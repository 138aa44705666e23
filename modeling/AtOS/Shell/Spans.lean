import AtOS.Shell.Lexer

/-! Every span is a slice of the input, and lexing undoes printing. -/

namespace AtOS

variable {input : String} {pos start : Nat} {byte : UInt8} {blank spelled rest : List UInt8}
  {token : Token}

/-- A position on the boundary of two characters, or at an end. -/
def Boundary (input : String) (pos : Nat) : Prop := String.Pos.Raw.IsValid input ⟨pos⟩

section Boundaries

/-- A string has as many bytes as its UTF-8 encoding. -/
theorem asBytes_length (input : String) : (asBytes input).length = input.utf8ByteSize := by
  rw [asBytes, Array.length_toList]
  rfl

/-- The byte at a position, as the string has it. -/
theorem getUTF8Byte_of_asBytes (there : (asBytes input)[pos]? = some byte) :
    ∃ inside : (⟨pos⟩ : String.Pos.Raw) < input.rawEndPos, input.getUTF8Byte ⟨pos⟩ inside = byte := by
  obtain ⟨bound, same⟩ := List.getElem?_eq_some_iff.mp there
  have inside : pos < input.utf8ByteSize := asBytes_length input ▸ bound
  exact ⟨inside, same⟩

/-- The bytes at which words break off are characters of their own. -/
theorem endsWord_ascii (ends : endsWord byte = true) : byte &&& 0x80 = 0 := by
  simp only [endsWord, isAsciiWhitespace, Bool.or_eq_true, beq_iff_eq] at ends
  rcases ends with (((rfl | rfl) | rfl) | rfl) | ((((rfl | rfl) | rfl) | rfl) | rfl) <;> decide

/-- In front of such a byte there is a boundary. -/
theorem Boundary.before (there : (asBytes input)[pos]? = some byte) (ends : endsWord byte = true) :
    Boundary input pos := by
  obtain ⟨inside, same⟩ := getUTF8Byte_of_asBytes there
  refine String.Pos.Raw.isValid_iff_isUTF8FirstByte.mpr (Or.inr ⟨inside, ?_⟩)
  rw [same]
  exact Or.inl (endsWord_ascii ends)

/-- At the end there is a boundary. -/
theorem Boundary.atEnd (isEnd : (asBytes input).length = pos) : Boundary input pos := by
  have same : (⟨pos⟩ : String.Pos.Raw) = input.rawEndPos := by
    rw [← isEnd, asBytes_length]
    rfl
  exact String.Pos.Raw.isValid_iff_isUTF8FirstByte.mpr (Or.inl same)

/-- Behind such a byte there is a boundary. -/
theorem Boundary.next (boundary : Boundary input pos) (there : (asBytes input)[pos]? = some byte)
    (ends : endsWord byte = true) : Boundary input (pos + 1) := by
  obtain ⟨inside, same⟩ := getUTF8Byte_of_asBytes there
  -- The character at the boundary starts with the byte, which is ASCII, so it is one byte wide.
  let here : input.Pos := ⟨⟨pos⟩, boundary⟩
  have notEnd : here ≠ input.endPos := by
    intro isEnd
    have offset : (⟨pos⟩ : String.Pos.Raw) = input.rawEndPos := congrArg String.Pos.offset isEnd
    rw [offset] at inside
    exact absurd inside (Nat.lt_irrefl _)
  have isByte : here.byte notEnd = byte := by
    simpa [String.Pos.byte, String.Slice.Pos.byte, String.Slice.getUTF8Byte, here] using same
  have width : (here.get notEnd).utf8Size = 1 := by
    rw [← String.Pos.utf8ByteSize_byte]
    simp only [isByte, UInt8.utf8ByteSize, endsWord_ascii ends, if_true]
  -- The next character starts one byte further on.
  have offset : (here.next notEnd).offset = ⟨pos + 1⟩ := by
    apply String.Pos.Raw.ext
    rw [String.Pos.byteIdx_offset_next, width]
  show String.Pos.Raw.IsValid input ⟨pos + 1⟩
  rw [← offset]
  exact (here.next notEnd).isValid

/-- Behind such bytes there is a boundary. -/
theorem Boundary.behind : ∀ (blank : List UInt8) {pos : Nat} {rest : List UInt8},
    Boundary input pos → (asBytes input).drop pos = blank ++ rest →
    (∀ byte ∈ blank, endsWord byte = true) → Boundary input (pos + blank.length) := by
  intro blank
  induction blank with
  | nil => exact fun boundary _ _ => boundary
  | cons byte blank ih =>
    intro pos rest boundary split ends
    have there : (asBytes input)[pos]? = some byte := by
      rw [← List.head?_drop, split]
      rfl
    have later := ih (boundary.next there (ends byte (by simp)))
      (by rw [← List.drop_drop, split]; rfl) fun other member => ends other (by simp [member])
    rw [List.length_cons, Nat.add_comm blank.length 1, ← Nat.add_assoc]
    exact later

end Boundaries

section Spans

/-- A span of at most 255 bytes is where it says. -/
theorem Span.of_exact {finish : Nat} (ordered : start ≤ finish) (room : finish ≤ 255) :
    (Span.of start finish).start.toNat = start ∧
      (Span.of start finish).len.toNat = finish - start := by
  constructor
  · show (UInt8.ofNat start).toNat = start
    rw [UInt8.toNat_ofNat', Nat.mod_eq_of_lt (by omega)]
  · show (UInt8.ofNat (finish - start)).toNat = finish - start
    rw [UInt8.toNat_ofNat', Nat.mod_eq_of_lt (by omega)]

/-- Strings with the same bytes are the same. -/
theorem asBytes_inj {one other : String} (same : asBytes one = asBytes other) : one = other := by
  apply String.toByteArray_inj.mp
  apply ByteArray.ext
  exact Array.toList_inj.mp same

/-- `as_str` of a span between two boundaries is the text there. -/
theorem Span.asStr_of {text : List UInt8} (split : (asBytes input).drop start = text ++ rest)
    (starts : Boundary input start) (finishes : Boundary input (start + text.length))
    (room : start + text.length ≤ 255) :
    ∃ word, (Span.of start (start + text.length)).asStr input = some word ∧ asBytes word = text := by
  obtain ⟨first, size⟩ := Span.of_exact (Nat.le_add_right start text.length) room
  unfold Span.asStr
  simp only [first, size, Nat.add_sub_cancel_left]
  rw [dif_pos (show String.Pos.Raw.IsValid input ⟨start⟩ from starts),
    dif_pos (show String.Pos.Raw.IsValid input ⟨start + text.length⟩ from finishes)]
  refine ⟨_, rfl, ?_⟩
  rw [asBytes, String.toByteArray_extract, ByteArray.data_extract, Array.toList_extract]
  show (asBytes input).extract start (start + text.length) = text
  rw [List.extract_eq_take_drop, split, Nat.add_sub_cancel_left, List.take_left]

/-- A token looks right, and the span of a word is a slice of the input with exactly its text. -/
def Token.Placed (input : String) (token : Token) (start : Nat) (spelled : List UInt8) : Prop :=
  token.Spells start spelled ∧ ∀ span, token = .word span → ∃ word, span.asStr input = some word ∧
    span.len.toNat = (asBytes word).length ∧
    (spelled = asBytes word ∧ span.start.toNat = start ∨
      spelled = quoteByte :: asBytes word ++ [quoteByte] ∧ span.start.toNat = start + 1)

/-- A token begins and ends on boundaries, and so does its span. -/
theorem Token.Spells.placed (spells : token.Spells start spelled)
    (split : (asBytes input).drop start = spelled ++ rest) (stops : Token.Stops spelled rest)
    (starts : Boundary input start) (room : (asBytes input).length ≤ 255) :
    token.Placed input start spelled ∧ Boundary input (start + spelled.length) := by
  -- The token lies inside the input, which bounds every index by 255.
  have inside : start + spelled.length ≤ (asBytes input).length := by
    obtain ⟨first, tail, isFirst, -⟩ := spells.head
    have size := congrArg List.length split
    rw [List.length_drop, List.length_append] at size
    have positive : 0 < spelled.length := by
      rw [isFirst]
      exact Nat.succ_pos _
    omega
  -- An operator is one ASCII byte, so its end is a boundary.
  have operator : ∀ {byte}, spelled = [byte] → endsWord byte = true →
      Boundary input (start + spelled.length) := by
    rintro byte rfl ends
    refine starts.behind [byte] split fun other member => ?_
    rw [List.mem_singleton.mp member]
    exact ends
  cases spells with
  | pipe => exact ⟨⟨.pipe, fun span impossible => nomatch impossible⟩, operator rfl (by decide)⟩
  | semicolon =>
    exact ⟨⟨.semicolon, fun span impossible => nomatch impossible⟩, operator rfl (by decide)⟩
  | background =>
    exact ⟨⟨.background, fun span impossible => nomatch impossible⟩, operator rfl (by decide)⟩
  | @quoted _ text plain =>
    -- Both quotes are ASCII, so the bytes between them are cut out at boundaries.
    have opening : (asBytes input)[start]? = some quoteByte := by
      rw [← List.head?_drop, split]
      rfl
    have inner : (asBytes input).drop (start + 1) = text ++ (quoteByte :: rest) := by
      rw [← List.drop_drop, split]
      simp
    have closing : (asBytes input)[start + 1 + text.length]? = some quoteByte :=
      getElem?_behind inner
    have opened := starts.next opening (by decide)
    have closes : Boundary input (start + 1 + text.length) := .before closing (by decide)
    have closed := closes.next closing (by decide)
    simp only [List.length_append, List.length_cons, List.length_nil] at inside
    -- The indices fit the `u8` fields, so the span reads the text back.
    obtain ⟨word, isWord, bytes⟩ := Span.asStr_of inner opened closes (by omega)
    obtain ⟨first, size⟩ := Span.of_exact (Nat.le_add_right (start + 1) text.length)
      (by omega)
    refine ⟨⟨.quoted plain, fun span same => ?_⟩, ?_⟩
    · cases same
      refine ⟨word, isWord, ?_, Or.inr ⟨by rw [bytes], first⟩⟩
      rw [size, bytes, Nat.add_sub_cancel_left]
    · have whole : start + (quoteByte :: text ++ [quoteByte]).length = start + 1 + text.length + 1 := by
        simp only [List.length_append, List.length_cons, List.length_nil]
        omega
      rw [whole]
      exact closed
  | bare nonempty plain =>
    -- A bare word ends at the end of the input or at an ASCII byte.
    have finishes : Boundary input (start + spelled.length) := by
      cases rest with
      | nil =>
        refine .atEnd ?_
        have size := congrArg List.length split
        rw [List.length_drop, List.append_nil] at size
        omega
      | cons next rest =>
        refine .before (getElem?_behind split) (stops plain next rfl)
    obtain ⟨word, isWord, bytes⟩ := Span.asStr_of split starts finishes (by omega)
    obtain ⟨first, size⟩ := Span.of_exact (Nat.le_add_right start spelled.length) (by omega)
    refine ⟨⟨.bare nonempty plain, fun span same => ?_⟩, finishes⟩
    cases same
    refine ⟨word, isWord, ?_, Or.inl ⟨bytes.symm, first⟩⟩
    rw [size, bytes, Nat.add_sub_cancel_left]

/-- Within 255 bytes, all spans of words are slices of the input. -/
theorem Lexed.placed {tokens : List Token} {error : Option LexError}
    (lexed : Lexed Token.Spells (asBytes input) pos tokens error)
    (room : (asBytes input).length ≤ 255) :
    Boundary input pos → Lexed (Token.Placed input) (asBytes input) pos tokens error := by
  induction lexed with
  | done blank => exact fun _ => .done blank
  | unterminated split isBlank opened => exact fun _ => .unterminated split isBlank opened
  | token split isBlank spells stops later ih =>
    intro boundary
    have starts := boundary.behind _ split fun byte member => endsWord_whitespace (isBlank byte member)
    obtain ⟨placed, finishes⟩ := spells.placed (drop_behind split) stops starts room
    exact .token split isBlank placed stops (ih finishes)

end Spans

end AtOS
