import AtOS.Processes.Args
import Mathlib.Data.List.TakeWhile

/-! The lexer of the shell: words, quoted words and operators, as spans of the input line. -/

namespace AtOS

/-- `is_ascii_whitespace`. -/
def isAsciiWhitespace (byte : UInt8) : Bool :=
  byte == 0x20 || byte == 0x09 || byte == 0x0A || byte == 0x0C || byte == 0x0D

/-- The byte of a pipe. -/
def pipeByte : UInt8 := 0x7C

/-- The byte of a semicolon. -/
def semicolonByte : UInt8 := 0x3B

/-- The byte of an ampersand. -/
def ampersandByte : UInt8 := 0x26

/-- The byte of a quote. -/
def quoteByte : UInt8 := 0x22

/-- The bytes at which a word without quotes breaks off. -/
def endsWord (byte : UInt8) : Bool :=
  byte == pipeByte || byte == quoteByte || byte == semicolonByte || byte == ampersandByte ||
    isAsciiWhitespace byte

/-- `Span`, a part of the input line by offsets of 8 bits. -/
structure Span where
  start : UInt8
  len : UInt8
  deriving DecidableEq

/-- The span from one position to another, with `as u8`. -/
def Span.of (start finish : Nat) : Span := ⟨UInt8.ofNat start, UInt8.ofNat (finish - start)⟩

/-- `as_str`: a slice panics if it is out of bounds, or not on the boundaries of characters. -/
def Span.asStr (span : Span) (input : String) : Option String :=
  let start : String.Pos.Raw := ⟨span.start.toNat⟩
  let finish : String.Pos.Raw := ⟨span.start.toNat + span.len.toNat⟩
  if starts : start.IsValid input then
    if finishes : finish.IsValid input then
      some (input.extract ⟨start, starts⟩ ⟨finish, finishes⟩)
    else none
  else none

/-- `Token`. -/
inductive Token where
  | word (span : Span)
  | pipe
  | semicolon
  | background
  deriving DecidableEq

/-- `LexError`. -/
inductive LexError where
  | unterminatedString
  deriving DecidableEq

/-- `Lexer`. -/
structure Lexer where
  input : String
  pos : Nat

/-- A loop that advances a position while the byte there passes a test. -/
def scanWhile (test : UInt8 → Bool) (bytes : List UInt8) (pos : Nat) : Nat :=
  pos + ((bytes.drop pos).takeWhile test).length

/-- `next_token` on the bytes of the input: the token or an error, and the new position. -/
def lexToken (bytes : List UInt8) (pos : Nat) : Except LexError (Option Token) × Nat :=
  let pos := scanWhile isAsciiWhitespace bytes pos
  match bytes[pos]? with
  | none => (.ok none, pos)
  | some byte =>
    if byte = pipeByte then (.ok (some .pipe), pos + 1)
    else if byte = semicolonByte then (.ok (some .semicolon), pos + 1)
    else if byte = ampersandByte then (.ok (some .background), pos + 1)
    else if byte = quoteByte then
      let start := pos + 1
      let pos := scanWhile (fun byte => byte != quoteByte) bytes start
      if pos = bytes.length then (.error .unterminatedString, pos)
      else (.ok (some (.word (.of start pos))), pos + 1)
    else
      let start := pos
      let pos := scanWhile (fun byte => !endsWord byte) bytes start
      (.ok (some (.word (.of start pos))), pos)

/-- `next_token`. -/
def Lexer.nextToken (lexer : Lexer) : Except LexError (Option Token) × Lexer :=
  let (result, pos) := lexToken (asBytes lexer.input) lexer.pos
  (result, { lexer with pos })

/-- Calling `next_token` until it returns no more tokens, with a bound on the calls. -/
def Lexer.tokens : Nat → Lexer → Option (List Token × Option LexError)
  | 0, _ => none
  | calls + 1, lexer =>
    match lexer.nextToken with
    | (.error error, _) => some ([], some error)
    | (.ok none, _) => some ([], none)
    | (.ok (some token), lexer) =>
      (lexer.tokens calls).map fun (tokens, error) => (token :: tokens, error)

section Scan

variable {test : UInt8 → Bool} {bytes good rest : List UInt8} {pos : Nat}

/-- A scan stops behind the bytes that pass. -/
theorem scanWhile_eq (split : bytes.drop pos = good ++ rest) (passes : ∀ byte ∈ good, test byte = true)
    (stops : ∀ byte ∈ rest.head?, test byte = false) : scanWhile test bytes pos = pos + good.length := by
  have whole : (good ++ rest).takeWhile test = good := by
    rw [List.takeWhile_append_of_pos passes]
    cases rest with
    | nil => simp
    | cons byte rest =>
      have first := stops byte rfl
      rw [List.takeWhile_cons, first]
      exact List.append_nil good
  rw [scanWhile, split, whole]

/-- What a scan has passed, and what is left. -/
theorem scanWhile_split (test : UInt8 → Bool) (bytes : List UInt8) (pos : Nat) :
    ∃ good rest, bytes.drop pos = good ++ rest ∧ (∀ byte ∈ good, test byte = true) ∧
      (∀ byte ∈ rest.head?, test byte = false) ∧ scanWhile test bytes pos = pos + good.length := by
  refine ⟨(bytes.drop pos).takeWhile test, (bytes.drop pos).dropWhile test,
    List.takeWhile_append_dropWhile.symm, fun byte member => List.mem_takeWhile_imp member,
    fun byte first => ?_, rfl⟩
  have stops := List.head?_dropWhile_not test (bytes.drop pos)
  rw [Option.mem_def.mp first] at stops
  simpa using stops

/-- What is behind a part of the rest. -/
theorem drop_behind (split : bytes.drop pos = good ++ rest) : bytes.drop (pos + good.length) = rest := by
  rw [← List.drop_drop, split, List.drop_left]

/-- The byte that follows is the first one of the rest. -/
theorem getElem?_behind (split : bytes.drop pos = good ++ rest) :
    bytes[pos + good.length]? = rest.head? := by
  rw [← drop_behind split, List.head?_drop]

end Scan

/-- What a token looks like in the input. -/
inductive Token.Spells : Token → (start : Nat) → List UInt8 → Prop
  | pipe {start : Nat} : Spells .pipe start [pipeByte]
  | semicolon {start : Nat} : Spells .semicolon start [semicolonByte]
  | background {start : Nat} : Spells .background start [ampersandByte]
  | quoted {start : Nat} {text : List UInt8} (plain : quoteByte ∉ text) :
      Spells (.word (.of (start + 1) (start + 1 + text.length))) start
        (quoteByte :: text ++ [quoteByte])
  | bare {start : Nat} {text : List UInt8} (nonempty : text ≠ [])
      (plain : ∀ byte ∈ text, endsWord byte = false) :
      Spells (.word (.of start (start + text.length))) start text

/-- Whether a token is spelled without quotes; then nothing that could belong to it may follow. -/
def Token.Stops (spelled rest : List UInt8) : Prop :=
  (∀ byte ∈ spelled, endsWord byte = false) → ∀ byte ∈ rest.head?, endsWord byte = true

/--
How the rest of the input, from a position on, is divided into tokens and whitespace.

The parameter says what a token looks like at a position.
-/
inductive Lexed (looks : Token → Nat → List UInt8 → Prop) (bytes : List UInt8) :
    Nat → List Token → Option LexError → Prop
  | done {pos : Nat} (blank : ∀ byte ∈ bytes.drop pos, isAsciiWhitespace byte = true) :
      Lexed looks bytes pos [] none
  | unterminated {pos : Nat} {blank rest : List UInt8}
      (split : bytes.drop pos = blank ++ quoteByte :: rest)
      (isBlank : ∀ byte ∈ blank, isAsciiWhitespace byte = true) (opened : quoteByte ∉ rest) :
      Lexed looks bytes pos [] (some .unterminatedString)
  | token {pos : Nat} {blank spelled rest : List UInt8} {token : Token} {tokens : List Token}
      {error : Option LexError} (split : bytes.drop pos = blank ++ (spelled ++ rest))
      (isBlank : ∀ byte ∈ blank, isAsciiWhitespace byte = true)
      (spells : looks token (pos + blank.length) spelled) (stops : Token.Stops spelled rest)
      (later : Lexed looks bytes (pos + blank.length + spelled.length) tokens error) :
      Lexed looks bytes pos (token :: tokens) error

section Lexing

variable {bytes blank spelled rest : List UInt8} {pos : Nat} {token : Token}

/-- White space ends a word. -/
theorem endsWord_whitespace {byte : UInt8} (white : isAsciiWhitespace byte = true) :
    endsWord byte = true := by simp [endsWord, white]

/-- No token begins with whitespace. -/
theorem Token.Spells.head {start : Nat} (spells : token.Spells start spelled) :
    ∃ byte tail, spelled = byte :: tail ∧ isAsciiWhitespace byte = false := by
  cases spells with
  | pipe => exact ⟨_, _, rfl, by decide⟩
  | semicolon => exact ⟨_, _, rfl, by decide⟩
  | background => exact ⟨_, _, rfl, by decide⟩
  | quoted => exact ⟨_, _, rfl, by decide⟩
  | bare nonempty plain =>
    obtain ⟨byte, tail, rfl⟩ := List.exists_cons_of_ne_nil nonempty
    refine ⟨byte, tail, rfl, ?_⟩
    have breaks := plain byte (by simp)
    by_contra white
    rw [endsWord_whitespace (by simpa using white)] at breaks
    cases breaks

/-- `next_token` finds the token that comes next. -/
theorem lexToken_token (split : bytes.drop pos = blank ++ (spelled ++ rest))
    (isBlank : ∀ byte ∈ blank, isAsciiWhitespace byte = true)
    (spells : token.Spells (pos + blank.length) spelled) (stops : Token.Stops spelled rest) :
    lexToken bytes pos = (.ok (some token), pos + blank.length + spelled.length) := by
  -- The scan over blanks stops at the token's first byte.
  obtain ⟨first, tail, isFirst, visible⟩ := spells.head
  have skipped : scanWhile isAsciiWhitespace bytes pos = pos + blank.length :=
    scanWhile_eq split isBlank (by simpa [isFirst] using visible)
  have next : bytes[pos + blank.length]? = some first := by
    rw [getElem?_behind split, isFirst]
    rfl
  have behind := drop_behind split
  unfold lexToken
  rw [skipped]
  simp only [next]
  -- An operator is one byte. A string and a word are scanned up to the byte behind them.
  cases spells with
  | pipe =>
    cases isFirst
    rfl
  | semicolon =>
    cases isFirst
    rfl
  | background =>
    cases isFirst
    rfl
  | @quoted _ text plain =>
    cases isFirst
    -- The scan inside the quotes stops at the closing one.
    have inner : bytes.drop (pos + blank.length + 1) = text ++ (quoteByte :: rest) := by
      rw [← List.drop_drop, behind]
      simp
    have closed : scanWhile (fun byte => byte != quoteByte) bytes (pos + blank.length + 1) =
        pos + blank.length + 1 + text.length := by
      refine scanWhile_eq inner (fun byte member => ?_) (by simp)
      have other : byte ≠ quoteByte := fun same => plain (same ▸ member)
      simpa using other
    -- The closing quote is a byte of the input, so the scan did not reach the end.
    have room : pos + blank.length + 1 + text.length ≠ bytes.length := by
      have there := getElem?_behind inner
      intro same
      rw [same] at there
      simp at there
    rw [if_neg (by decide), if_neg (by decide), if_neg (by decide), if_pos rfl, closed,
      if_neg room]
    simp only [Prod.mk.injEq, true_and, List.length_cons, List.length_append]
    simp only [List.length_nil]
    omega
  | bare nonempty plain =>
    -- The first byte of a word is none of the operators, so the lexer reaches its last branch.
    have notEnd := plain first (by simp [isFirst])
    simp only [endsWord, Bool.or_eq_false_iff, beq_eq_false_iff_ne] at notEnd
    obtain ⟨⟨⟨⟨notPipe, notQuote⟩, notSemicolon⟩, notAmpersand⟩, -⟩ := notEnd
    have whole : scanWhile (fun byte => !endsWord byte) bytes (pos + blank.length) =
        pos + blank.length + spelled.length := by
      refine scanWhile_eq behind (fun byte member => by simp [plain byte member]) ?_
      intro byte head
      simp [stops plain byte head]
    rw [if_neg notPipe, if_neg notSemicolon, if_neg notAmpersand, if_neg notQuote, whole]

/-- `next_token` finds that a quote is not closed. -/
theorem lexToken_unterminated (split : bytes.drop pos = blank ++ quoteByte :: rest)
    (isBlank : ∀ byte ∈ blank, isAsciiWhitespace byte = true) (opened : quoteByte ∉ rest) :
    lexToken bytes pos = (.error .unterminatedString, bytes.length) := by
  -- The lexer skips the blanks and stops at the opening quote.
  have skipped : scanWhile isAsciiWhitespace bytes pos = pos + blank.length :=
    scanWhile_eq split isBlank (by simp [isAsciiWhitespace, quoteByte])
  have next : bytes[pos + blank.length]? = some quoteByte := getElem?_behind split
  have inner : bytes.drop (pos + blank.length + 1) = rest ++ [] := by
    rw [← List.drop_drop, drop_behind split]
    simp
  -- No quote is left in the rest, so the scan runs to the end of the input.
  have toEnd : scanWhile (fun byte => byte != quoteByte) bytes (pos + blank.length + 1) =
      pos + blank.length + 1 + rest.length := by
    refine scanWhile_eq inner (fun byte member => ?_) (by simp)
    have other : byte ≠ quoteByte := fun same => opened (same ▸ member)
    simpa using other
  have size : pos + blank.length + 1 + rest.length = bytes.length := by
    have inside := (List.getElem?_eq_some_iff.mp next).1
    have length := congrArg List.length inner
    rw [List.length_drop, List.append_nil] at length
    omega
  -- The end of the input behind an opening quote is the lexer's only error.
  unfold lexToken
  rw [skipped]
  simp only [next]
  rw [if_neg (by decide), if_neg (by decide), if_neg (by decide), if_pos trivial, toEnd,
    if_pos size, size]

/-- `next_token` finds nothing but whitespace. -/
theorem lexToken_done (blank : ∀ byte ∈ bytes.drop pos, isAsciiWhitespace byte = true) :
    ∃ finish, lexToken bytes pos = (.ok none, finish) := by
  have split : bytes.drop pos = bytes.drop pos ++ [] := (List.append_nil _).symm
  have skipped : scanWhile isAsciiWhitespace bytes pos = pos + (bytes.drop pos).length :=
    scanWhile_eq split blank (by simp)
  have next : bytes[pos + (bytes.drop pos).length]? = none := getElem?_behind split
  unfold lexToken
  rw [skipped]
  simp only [next]
  exact ⟨_, rfl⟩

/-- What comes next in the input is whitespace only, an open quote, or a token. -/
theorem lexToken_cases (bytes : List UInt8) (pos : Nat) :
    (∀ byte ∈ bytes.drop pos, isAsciiWhitespace byte = true) ∨
    (∃ blank rest, bytes.drop pos = blank ++ quoteByte :: rest ∧
      (∀ byte ∈ blank, isAsciiWhitespace byte = true) ∧ quoteByte ∉ rest) ∨
    ∃ blank spelled rest token, bytes.drop pos = blank ++ (spelled ++ rest) ∧
      (∀ byte ∈ blank, isAsciiWhitespace byte = true) ∧
      Token.Spells token (pos + blank.length) spelled ∧ Token.Stops spelled rest := by
  -- The blanks in front are split off by the scan. What is left starts with a visible byte.
  obtain ⟨blank, rest, split, isBlank, visible, -⟩ := scanWhile_split isAsciiWhitespace bytes pos
  cases rest with
  | nil =>
    rw [List.append_nil] at split
    rw [split]
    exact Or.inl isBlank
  | cons first tail =>
    -- An operator byte is a token of its own, and it does not have to be stopped by what follows.
    have operator : ∀ token, Token.Spells token (pos + blank.length) [first] →
        endsWord first = true → ∃ blank spelled rest token,
          bytes.drop pos = blank ++ (spelled ++ rest) ∧
          (∀ byte ∈ blank, isAsciiWhitespace byte = true) ∧
          Token.Spells token (pos + blank.length) spelled ∧ Token.Stops spelled rest := by
      intro token spells ends
      refine ⟨blank, [first], tail, token, split, isBlank, spells, fun plain => ?_⟩
      rw [plain first (by simp)] at ends
      cases ends
    by_cases isPipe : first = pipeByte
    · subst isPipe
      exact Or.inr (Or.inr (operator _ .pipe (by decide)))
    by_cases isSemicolon : first = semicolonByte
    · subst isSemicolon
      exact Or.inr (Or.inr (operator _ .semicolon (by decide)))
    by_cases isAmpersand : first = ampersandByte
    · subst isAmpersand
      exact Or.inr (Or.inr (operator _ .background (by decide)))
    by_cases isQuote : first = quoteByte
    · subst isQuote
      -- A quote is a string if another one follows, and the error otherwise.
      by_cases closed : quoteByte ∈ tail
      · obtain ⟨text, rest, whole, plain⟩ := List.eq_append_cons_of_mem closed
        refine Or.inr (Or.inr ⟨blank, quoteByte :: text ++ [quoteByte], rest, _, ?_, isBlank,
          .quoted plain, fun bare => ?_⟩)
        · rw [split, whole]
          simp
        · have impossible := bare quoteByte (by simp)
          exact absurd impossible (by decide)
      · exact Or.inr (Or.inl ⟨blank, tail, split, isBlank, closed⟩)
    · -- A word without quotes goes on up to the first byte that ends it.
      obtain ⟨text, rest, whole, plain, ends, -⟩ :=
        scanWhile_split (fun byte => !endsWord byte) (first :: tail) 0
      rw [List.drop_zero] at whole
      have firstPlain : endsWord first = false := by
        have notWhite := visible first rfl
        simp [endsWord, isPipe, isSemicolon, isAmpersand, isQuote, notWhite]
      refine Or.inr (Or.inr ⟨blank, text, rest, _, by rw [split, whole], isBlank,
        .bare ?_ fun byte member => by simpa using plain byte member, fun _ byte head => by
          simpa using ends byte head⟩)
      -- The word is not empty, since its first byte does not end one.
      rintro rfl
      rw [List.nil_append] at whole
      have breaks := ends first (by rw [← whole]; rfl)
      simp [firstPlain] at breaks

/-- A lexer returns the tokens that its input is divided into. -/
theorem Lexed.tokens {input : String} {tokens : List Token} {error : Option LexError}
    (lexed : Lexed Token.Spells (asBytes input) pos tokens error) : ∀ {calls : Nat},
    pos ≤ (asBytes input).length → (asBytes input).length < pos + calls →
      Lexer.tokens calls ⟨input, pos⟩ = some (tokens, error) := by
  -- Each call but the last one finds a token, which has at least one byte.
  induction lexed with
  | done blank =>
    intro calls inside room
    -- The last call still has a pass left for itself.
    obtain ⟨calls, rfl⟩ : ∃ less, calls = less + 1 := ⟨calls - 1, by omega⟩
    obtain ⟨finish, found⟩ := lexToken_done blank
    rw [Lexer.tokens, Lexer.nextToken, found]
  | unterminated split isBlank opened =>
    intro calls inside room
    obtain ⟨calls, rfl⟩ : ∃ less, calls = less + 1 := ⟨calls - 1, by omega⟩
    rw [Lexer.tokens, Lexer.nextToken, lexToken_unterminated split isBlank opened]
  | token split isBlank spells stops later ih =>
    intro calls inside room
    obtain ⟨calls, rfl⟩ : ∃ less, calls = less + 1 := ⟨calls - 1, by omega⟩
    -- A token has a byte, so the calls left are enough for the bytes left.
    obtain ⟨first, tail, rfl, -⟩ := spells.head
    have size := congrArg List.length split
    simp only [List.length_drop, List.length_append, List.length_cons] at size
    rw [Lexer.tokens, Lexer.nextToken, lexToken_token split isBlank spells stops]
    dsimp only
    rw [ih (by simp only [List.length_cons]; omega) (by simp only [List.length_cons]; omega)]
    rfl

/-- Every input is divided into tokens. -/
theorem exists_lexed (bytes : List UInt8) (left : Nat) : ∀ pos, bytes.length ≤ pos + left →
    ∃ tokens error, Lexed Token.Spells bytes pos tokens error := by
  -- The induction is on the bytes left.
  induction left with
  | zero =>
    intro pos room
    refine ⟨[], none, .done fun byte member => ?_⟩
    rw [List.drop_eq_nil_of_le (show bytes.length ≤ pos from room)] at member
    cases member
  | succ left ih =>
    intro pos room
    -- `lexToken_cases` gives the end, the error or a token, and only a token goes on.
    rcases lexToken_cases bytes pos with blank | ⟨blank, rest, split, isBlank, opened⟩ |
      ⟨blank, spelled, rest, token, split, isBlank, spells, stops⟩
    · exact ⟨[], none, .done blank⟩
    · exact ⟨[], _, .unterminated split isBlank opened⟩
    · obtain ⟨first, tail, rfl, -⟩ := spells.head
      obtain ⟨tokens, error, lexed⟩ := ih (pos + blank.length + (first :: tail).length) (by
        simp only [List.length_cons]
        omega)
      exact ⟨token :: tokens, error, .token split isBlank spells stops lexed⟩

end Lexing

end AtOS
