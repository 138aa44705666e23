import AtOS.Shell.Spans
import Mathlib.Data.List.Forall2

/-! Printed tokens are lexed back to what was printed. -/

namespace AtOS

/-- A token as it is to be printed. -/
inductive Printed where
  | word (text : String) (quoted : Bool)
  | pipe
  | semicolon
  | background

/-- The text of a token: a word in quotes or bare, or the character of an operator. -/
def Printed.print : Printed → String
  | .word text true => "\"" ++ text ++ "\""
  | .word text false => text
  | .pipe => "|"
  | .semicolon => ";"
  | .background => "&"

/-- A word without quotes is bare. -/
def Printed.IsBare : Printed → Prop
  | .word _ quoted => quoted = false
  | _ => False

/-- No word has a quote, and a bare word is not empty and has no byte that ends it. -/
def Printed.Printable : Printed → Prop
  | .word text true => quoteByte ∉ asBytes text
  | .word text false => text ≠ "" ∧ ∀ byte ∈ asBytes text, endsWord byte = false
  | _ => True

/-- A line: each token after some whitespace, and whitespace at the end. -/
def printLine : List (String × Printed) → String → String
  | [], last => last
  | (blank, printed) :: rest, last => blank ++ printed.print ++ printLine rest last

/-- Only ASCII whitespace. -/
def IsBlank (text : String) : Prop := ∀ byte ∈ asBytes text, isAsciiWhitespace byte = true

/-- Tokens that can be printed, with whitespace between them, and some of it between bare words. -/
inductive Laid (last : String) : List (String × Printed) → Prop
  | ended (blank : IsBlank last) : Laid last []
  | one {blank : String} {printed : Printed} (isBlank : IsBlank blank)
      (printable : printed.Printable) (ends : IsBlank last) : Laid last [(blank, printed)]
  | cons {blank between : String} {printed next : Printed} {rest : List (String × Printed)}
      (isBlank : IsBlank blank) (printable : printed.Printable)
      (apart : printed.IsBare → next.IsBare → between ≠ "")
      (later : Laid last ((between, next) :: rest)) :
      Laid last ((blank, printed) :: (between, next) :: rest)

/-- A token is the printed one, and the span of a word has the text that was printed. -/
def Printed.Matches (input : String) : Printed → Token → Prop
  | .word text _, .word span => span.asStr input = some text
  | .pipe, .pipe => True
  | .semicolon, .semicolon => True
  | .background, .background => True
  | _, _ => False

section Printing

variable {input last : String} {pos : Nat} {printed : Printed} {pieces : List (String × Printed)}
  {rest : List UInt8}

/-- The bytes of a concatenation. -/
theorem asBytes_append (one other : String) : asBytes (one ++ other) = asBytes one ++ asBytes other := by
  rw [asBytes, String.toByteArray_append, ByteArray.data_append, Array.toList_append]
  rfl

/-- Only the empty string has no bytes. -/
theorem asBytes_eq_nil {text : String} (empty : asBytes text = []) : text = "" :=
  asBytes_inj (empty.trans (by decide))

/-- The quote is one byte. -/
theorem asBytes_quote : asBytes "\"" = [quoteByte] := by decide

/-- The token that a printed one is lexed to. -/
def Printed.token (start : Nat) : Printed → Token
  | .word text true => .word (.of (start + 1) (start + 1 + (asBytes text).length))
  | .word text false => .word (.of start (start + (asBytes text).length))
  | .pipe => .pipe
  | .semicolon => .semicolon
  | .background => .background

/-- A printed token is spelled as such. -/
theorem Printed.Printable.spells (printable : printed.Printable) (start : Nat) :
    Token.Spells (printed.token start) start (asBytes printed.print) := by
  cases printed with
  | pipe => exact .pipe
  | semicolon => exact .semicolon
  | background => exact .background
  | word text quoted =>
    cases quoted with
    | true =>
      rw [Printed.print, asBytes_append, asBytes_append, asBytes_quote]
      exact .quoted printable
    | false => exact .bare (fun empty => printable.1 (asBytes_eq_nil empty)) printable.2

/-- A printed token that is not bare has a byte that ends a word, and begins with it. -/
theorem Printed.Printable.bare_of (printable : printed.Printable) (notBare : ¬ printed.IsBare) :
    ∃ byte tail, asBytes printed.print = byte :: tail ∧ endsWord byte = true := by
  cases printed with
  | pipe => exact ⟨pipeByte, [], by decide, by decide⟩
  | semicolon => exact ⟨semicolonByte, [], by decide, by decide⟩
  | background => exact ⟨ampersandByte, [], by decide, by decide⟩
  | word text quoted =>
    cases quoted with
    | true =>
      refine ⟨quoteByte, asBytes text ++ [quoteByte], ?_, by decide⟩
      rw [Printed.print, asBytes_append, asBytes_append, asBytes_quote]
      rfl
    | false => exact absurd rfl notBare

/-- What is blank begins with nothing that could belong to a word. -/
theorem IsBlank.head {blank : String} (isBlank : IsBlank blank) {byte : UInt8}
    (first : byte ∈ (asBytes blank).head?) : endsWord byte = true :=
  endsWord_whitespace (isBlank byte (List.mem_of_mem_head? first))

/-- Nothing that could belong to a bare word follows it. -/
theorem Laid.stops {blank : String} (spaced : Laid last ((blank, printed) :: pieces)) :
    Token.Stops (asBytes printed.print) (asBytes (printLine pieces last)) := by
  intro plain byte first
  cases spaced with
  | one _ _ ends => exact ends.head first
  | @cons _ between _ next others isBlank printable apart later =>
    rw [printLine, asBytes_append, asBytes_append, List.append_assoc] at first
    -- The blanks in between stop the token, unless they are empty.
    have isBetween : IsBlank between := by cases later <;> assumption
    have printableNext : next.Printable := by cases later <;> assumption
    by_cases some : asBytes between = []
    · -- The next token touches the word, so it is not bare.
      have isBare : printed.IsBare := by
        by_contra notBare
        obtain ⟨breaks, tail, same, ends⟩ := printable.bare_of notBare
        rw [plain breaks (by rw [same]; simp)] at ends
        cases ends
      have notBare : ¬ next.IsBare := fun isBareNext =>
        apart isBare isBareNext (asBytes_eq_nil some)
      obtain ⟨breaks, tail, same, ends⟩ := printableNext.bare_of notBare
      rw [some, same] at first
      cases first
      exact ends
    · obtain ⟨head, tail, same⟩ := List.exists_cons_of_ne_nil some
      refine isBetween.head ?_
      rw [same] at first ⊢
      exact first

/-- A printed line is divided into the tokens that were printed. -/
theorem Laid.lexed (room : (asBytes input).length ≤ 255) (spaced : Laid last pieces) :
    ∀ {pos : Nat}, Boundary input pos → (asBytes input).drop pos = asBytes (printLine pieces last) →
      ∃ tokens, Lexed Token.Spells (asBytes input) pos tokens none ∧
        List.Forall₂ (fun piece token => Printed.Matches input piece.2 token) pieces tokens := by
  have token : ∀ {blank : String} {printed : Printed} {pieces : List (String × Printed)} {pos : Nat},
      IsBlank blank → printed.Printable → Laid last ((blank, printed) :: pieces) →
      Boundary input pos →
      (asBytes input).drop pos = asBytes (printLine ((blank, printed) :: pieces) last) →
      (∀ {next : Nat}, Boundary input next →
        (asBytes input).drop next = asBytes (printLine pieces last) →
        ∃ tokens, Lexed Token.Spells (asBytes input) next tokens none ∧
          List.Forall₂ (fun piece token => Printed.Matches input piece.2 token) pieces tokens) →
      ∃ tokens, Lexed Token.Spells (asBytes input) pos tokens none ∧
        List.Forall₂ (fun piece token => Printed.Matches input piece.2 token)
          ((blank, printed) :: pieces) tokens := by
    intro blank printed pieces pos isBlank printable spaced boundary split later
    -- The printed line starts with the blanks of its first piece, which the lexer skips.
    rw [printLine, asBytes_append, asBytes_append, List.append_assoc] at split
    have starts := boundary.behind _ split fun byte member =>
      endsWord_whitespace (isBlank byte member)
    have behind := drop_behind split
    -- The token spells what the piece printed, so it is placed at the bytes behind the blanks.
    have spells := printable.spells (pos + (asBytes blank).length)
    obtain ⟨placed, finishes⟩ := spells.placed behind spaced.stops starts room
    obtain ⟨tokens, lexed, matched⟩ := later finishes (drop_behind behind)
    refine ⟨_ :: tokens, .token split isBlank spells spaced.stops lexed, .cons ?_ matched⟩
    cases printed with
    | pipe => trivial
    | semicolon => trivial
    | background => trivial
    | word text quoted =>
      -- The slice has the bytes of the text, with or without quotes around it.
      cases quoted with
      | true =>
        obtain ⟨word, isWord, -, ⟨same, first⟩ | ⟨same, -⟩⟩ := placed.2 _ rfl
        · obtain ⟨exactly, -⟩ := @Span.of_exact (pos + (asBytes blank).length + 1) _
            (Nat.le_add_right _ (asBytes text).length) (by
              have size := congrArg List.length behind
              rw [Printed.print, asBytes_append, asBytes_append, asBytes_quote] at size
              simp only [List.length_drop, List.length_append, List.length_cons,
                List.length_nil] at size
              omega)
          rw [exactly] at first
          omega
        · -- The quotes on both sides come off, and the text is left.
          rw [Printed.print, asBytes_append, asBytes_append, asBytes_quote] at same
          have inner := List.append_cancel_right (List.cons.inj same).2
          exact isWord.trans (congrArg some (asBytes_inj inner).symm)
      -- A word without quotes is the text itself, since a quote would have ended it.
      | false =>
        obtain ⟨word, isWord, -, ⟨same, -⟩ | ⟨same, -⟩⟩ := placed.2 _ rfl
        · exact isWord.trans (congrArg some (asBytes_inj same).symm)
        · have bare := printable.2 quoteByte (by
            have there : quoteByte ∈ asBytes (Printed.word text false).print := by
              rw [same]
              simp
            exact there)
          exact absurd bare (by decide)
  -- The induction follows the layout of the line. Only the last piece leaves the end to the lexer.
  induction spaced with
  | ended blank =>
    intro pos boundary split
    refine ⟨[], .done fun byte member => ?_, .nil⟩
    rw [split] at member
    exact blank byte member
  | one isBlank printable ends =>
    intro pos boundary split
    refine token isBlank printable (.one isBlank printable ends) boundary split fun {next} _ rest =>
      ⟨[], .done fun byte member => ?_, .nil⟩
    rw [rest] at member
    exact ends byte member
  | cons isBlank printable apart later ih =>
    intro pos boundary split
    exact token isBlank printable (.cons isBlank printable apart later) boundary split ih

/--
Every input of at most 255 bytes is divided into tokens, and each span of a word is a slice of it.

Tokens that are printed within 255 bytes are lexed back, and their spans have the words as text.
-/
theorem lexing_undoes_printing :
    (∀ input : String, (asBytes input).length ≤ 255 → ∃ tokens error,
      Lexer.tokens ((asBytes input).length + 1) ⟨input, 0⟩ = some (tokens, error) ∧
        Lexed (Token.Placed input) (asBytes input) 0 tokens error) ∧
    ∀ (pieces : List (String × Printed)) (last : String), Laid last pieces →
      (asBytes (printLine pieces last)).length ≤ 255 → ∃ tokens,
        Lexer.tokens ((asBytes (printLine pieces last)).length + 1) ⟨printLine pieces last, 0⟩ =
            some (tokens, none) ∧
          List.Forall₂ (fun piece token => Printed.Matches (printLine pieces last) piece.2 token)
            pieces tokens := by
  -- The start of a string is a boundary of it.
  have atStart : ∀ input : String, Boundary input 0 := fun input => by
    refine String.Pos.Raw.isValid_iff_exists_append.mpr ⟨"", input, ?_, ?_⟩
    · rw [String.empty_append]
    · rfl
  constructor
  · intro input room
    obtain ⟨tokens, error, lexed⟩ :=
      exists_lexed (asBytes input) (asBytes input).length 0 (by omega)
    exact ⟨tokens, error, lexed.tokens (Nat.zero_le _) (by omega), lexed.placed room (atStart input)⟩
  · -- A printed line is lexed back into the pieces it was printed from.
    intro pieces last spaced room
    obtain ⟨tokens, lexed, matched⟩ := spaced.lexed room (atStart _) rfl
    exact ⟨tokens, lexed.tokens (Nat.zero_le _) (by omega), matched⟩

/-- A word with a blank in quotes, and a bare one right behind it. -/
theorem lexing_undoes_printing_touching : ∃ tokens,
    Lexer.tokens 7 ⟨printLine [("", .word "a b" true), ("", .word "c" false)] "", 0⟩ =
        some (tokens, none) ∧ tokens.length = 2 := by
  -- The line `"a b"c` prints a quoted word and a bare one that touches it.
  have blank : IsBlank "" := by
    intro byte member
    rw [show asBytes "" = [] by decide] at member
    cases member
  have quoted : Printed.Printable (.word "a b" true) := by
    show quoteByte ∉ asBytes "a b"
    decide
  have bare : Printed.Printable (.word "c" false) := by
    refine ⟨by decide, fun byte member => ?_⟩
    rw [show asBytes "c" = [99] from rfl] at member
    rcases List.mem_singleton.mp member with rfl
    decide
  have room : (asBytes (printLine [("", .word "a b" true), ("", .word "c" false)] "")).length = 6 :=
    rfl
  obtain ⟨tokens, lexes, matched⟩ := lexing_undoes_printing.2 _ _
    (.cons blank quoted (fun isBare => nomatch isBare) (.one blank bare blank)) (by omega)
  exact ⟨tokens, lexes, matched.length_eq.symm⟩

end Printing

end AtOS
