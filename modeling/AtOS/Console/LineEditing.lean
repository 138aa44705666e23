import AtOS.Console.KernelIo
import Mathlib.Data.List.Induction
import Mathlib.Logic.Function.Basic

/-! A line read from the console is what a stack makes of the bytes, and what the screen shows. -/

namespace AtOS

/-- A line being edited: the stack of its bytes, the bottom first, and whether it is finished. -/
structure LineStack where
  text : List UInt8
  stopped : Bool

/-- The line before the first byte, with room for as many bytes as the limit says. -/
def LineStack.start (limit : Nat) : LineStack := ⟨[], limit = 0⟩

/-- One byte of the stream: it pops, pushes, or does nothing. -/
def LineStack.press (limit : Nat) (line : LineStack) (byte : UInt8) : LineStack :=
  if line.stopped then line
  else if byte = newlineByte then line
  else if byte = backspaceByte ∨ byte = deleteByte then { line with text := line.text.dropLast }
  else if byte = returnByte then ⟨line.text ++ [newlineByte], true⟩
  else ⟨line.text ++ [byte], line.text.length + 1 = limit⟩

/-- The line a stream of bytes makes. -/
def edited (limit : Nat) (bytes : List UInt8) : LineStack :=
  bytes.foldl (LineStack.press limit) (.start limit)

/-- The bytes that a list of polls has found. -/
def arrived (polls : List (Option UInt8)) : List UInt8 := polls.filterMap id

/-- A line of a terminal: the character in each column, and the column of the cursor. -/
structure TerminalLine where
  cells : Nat → UInt8
  cursor : Nat

/-- A backspace moves the cursor left, and any other byte overwrites and moves it right. -/
def TerminalLine.feed (line : TerminalLine) (byte : UInt8) : TerminalLine :=
  if byte = backspaceByte then { line with cursor := line.cursor - 1 }
  else ⟨Function.update line.cells line.cursor byte, line.cursor + 1⟩

/-- The terminal line that shows a text, blanks after it, and the cursor right behind it. -/
def TerminalLine.showing (text : List UInt8) : TerminalLine :=
  ⟨fun column => text.getD column spaceByte, text.length⟩

/-- What a blank terminal line shows after the echoed bytes. -/
def displayed (echoed : List UInt8) : TerminalLine :=
  echoed.foldl TerminalLine.feed (.showing [])

/-- Nothing is typed at the start. -/
@[simp] theorem edited_nil (limit : Nat) : edited limit [] = .start limit := rfl

/-- More bytes are pressed on top of those before. -/
theorem edited_append (limit : Nat) (bytes more : List UInt8) :
    edited limit (bytes ++ more) = more.foldl (LineStack.press limit) (edited limit bytes) :=
  List.foldl_append

/-- The last byte is pressed last. -/
theorem edited_snoc (limit : Nat) (bytes : List UInt8) (byte : UInt8) :
    edited limit (bytes ++ [byte]) = (edited limit bytes).press limit byte := by
  rw [edited_append]
  rfl

/-- No byte changes a finished line. -/
theorem edited_append_of_stopped {limit : Nat} {bytes : List UInt8}
    (stopped : (edited limit bytes).stopped) (more : List UInt8) :
    edited limit (bytes ++ more) = edited limit bytes := by
  rw [edited_append]
  generalize edited limit bytes = line at stopped
  induction more with
  | nil => rfl
  | cons byte rest ih =>
    have unchanged : line.press limit byte = line := by simp [LineStack.press, stopped]
    rw [List.foldl_cons, unchanged, ih]

/-- No poll brings no byte. -/
@[simp] theorem arrived_nil : arrived [] = [] := rfl

/-- The bytes arrive in the order of the polls. -/
@[simp] theorem arrived_append (polls more : List (Option UInt8)) :
    arrived (polls ++ more) = arrived polls ++ arrived more :=
  List.filterMap_append

/-- A poll that finds a byte brings it. -/
@[simp] theorem arrived_some (byte : UInt8) (polls : List (Option UInt8)) :
    arrived (some byte :: polls) = byte :: arrived polls := rfl

/-- A poll that finds nothing brings nothing. -/
@[simp] theorem arrived_none (polls : List (Option UInt8)) :
    arrived (none :: polls) = arrived polls := rfl

/-- More bytes are shown on top of those before. -/
theorem displayed_append (echoed more : List UInt8) :
    displayed (echoed ++ more) = more.foldl TerminalLine.feed (displayed echoed) :=
  List.foldl_append

/-- The echo of a typed byte shows the text with that byte behind it. -/
theorem TerminalLine.feed_typed {byte : UInt8} (typed : byte ≠ backspaceByte) (text : List UInt8) :
    (TerminalLine.showing text).feed byte = .showing (text ++ [byte]) := by
  unfold feed showing
  rw [if_neg typed]
  simp only [List.length_append, List.length_singleton, TerminalLine.mk.injEq, and_true]
  funext column
  -- The column of the cursor gets the byte, and every other column stays as it is.
  rcases Nat.lt_trichotomy column text.length with before | here | behind
  · rw [Function.update_of_ne (by omega)]
    simp [List.getD_eq_getElem?_getD, List.getElem?_append_left before]
  · subst here
    simp [List.getD_eq_getElem?_getD]
  · rw [Function.update_of_ne (by omega)]
    have outside : (text ++ [byte]).length ≤ column := by simpa using Nat.succ_le_of_lt behind
    simp [List.getD_eq_getElem?_getD, List.getElem?_eq_none outside,
      List.getElem?_eq_none (Nat.le_of_lt behind)]

/-- A backspace, a space and a backspace show the text without its last byte. -/
theorem TerminalLine.feed_erased {text : List UInt8} (nonempty : text ≠ []) :
    [backspaceByte, spaceByte, backspaceByte].foldl TerminalLine.feed (.showing text) =
      .showing text.dropLast := by
  -- There is a last byte to be erased.
  obtain ⟨front, last, rfl⟩ := List.eq_nil_or_concat text |>.resolve_left nonempty
  simp only [List.foldl_cons, List.foldl_nil, List.dropLast_concat, List.concat_eq_append]
  unfold feed showing
  simp only [if_true, if_neg (show spaceByte ≠ backspaceByte by decide), List.length_append,
    List.length_singleton, Nat.add_sub_cancel, TerminalLine.mk.injEq, and_true]
  funext column
  -- Only the column of the last byte changes, and it becomes a blank.
  rcases Nat.lt_trichotomy column front.length with before | here | behind
  · rw [Function.update_of_ne (by omega)]
    simp [List.getD_eq_getElem?_getD, List.getElem?_append_left before]
  · subst here
    simp [List.getD_eq_getElem?_getD]
  · rw [Function.update_of_ne (by omega)]
    have outside : (front ++ [last]).length ≤ column := by simpa using Nat.succ_le_of_lt behind
    simp [List.getD_eq_getElem?_getD, List.getElem?_eq_none outside,
      List.getElem?_eq_none (Nat.le_of_lt behind)]

/-- A newline ends the line it is in. -/
def LineStack.Tidy (line : LineStack) : Prop :=
  newlineByte ∉ line.text.dropLast ∧ (line.stopped = false → newlineByte ∉ line.text)

/-- Every line a stream of bytes makes is tidy. -/
theorem edited_tidy (limit : Nat) (bytes : List UInt8) : (edited limit bytes).Tidy := by
  induction bytes using List.reverseRecOn with
  | nil => simp [LineStack.Tidy, LineStack.start]
  | append_singleton bytes byte ih =>
    rw [edited_snoc]
    generalize edited limit bytes = line at ih
    obtain ⟨inside, unfinished⟩ := ih
    unfold LineStack.press
    -- A line that has stopped ignores what is pressed.
    split_ifs with stopped ignored erases returns
    · exact ⟨inside, unfinished⟩
    · exact ⟨inside, unfinished⟩
    · -- Popping takes the last byte, and the others hold no newline.
      exact ⟨fun member => inside (List.dropLast_subset _ member), fun _ => inside⟩
    · have none_before := unfinished (by simpa using stopped)
      -- The newline ends the line, so it is the last byte of it.
      exact ⟨by simpa using none_before, fun running => by simp at running⟩
    · have none_before := unfinished (by simpa using stopped)
      refine ⟨by simpa using none_before, fun _ => ?_⟩
      simp [none_before, Ne.symm ignored]

/-- A poll that gives a reader nothing: it finds no byte, or a raw newline. -/
def Idle (polls : List (Option UInt8)) : Prop :=
  ∀ poll ∈ polls, poll = none ∨ poll = some newlineByte

/-- The polls up to the next key, if there is one. -/
theorem exists_key (polls : List (Option UInt8)) :
    Idle polls ∨ ∃ idle key rest, polls = idle ++ some key :: rest ∧ Idle idle ∧
      key ≠ newlineByte := by
  induction polls with
  | nil => exact .inl (by simp [Idle])
  | cons poll polls ih =>
    by_cases skipped : poll = none ∨ poll = some newlineByte
    · rcases ih with idles | ⟨idle, key, rest, same, idles, typed⟩
      · exact .inl (by simpa [Idle, skipped] using idles)
      · exact .inr ⟨poll :: idle, key, rest, by simp [same], by simpa [Idle, skipped] using idles,
          typed⟩
    · cases poll with
      | none => simp at skipped
      | some key => exact .inr ⟨[], key, polls, rfl, by simp [Idle], by simpa using skipped⟩

/-- Idle polls leave the line as it is. -/
theorem edited_idle {idle : List (Option UInt8)} (idles : Idle idle) (limit : Nat)
    (bytes : List UInt8) : edited limit (bytes ++ arrived idle) = edited limit bytes := by
  induction idle generalizing bytes with
  | nil => simp
  | cons poll idle ih =>
    have others : Idle idle := fun poll member => idles poll (by simp [member])
    rcases idles poll (by simp) with rfl | rfl
    · exact ih others bytes
    · have unchanged : edited limit (bytes ++ [newlineByte]) = edited limit bytes := by
        rw [edited_snoc]
        simp [LineStack.press]
      rw [arrived_some, ← List.singleton_append, ← List.append_assoc, ih others, unchanged]

section Keys

variable {limit : Nat} {bytes : List UInt8} {key : UInt8}

/-- A backspace or a delete takes the last byte away. -/
theorem edited_erase (running : (edited limit bytes).stopped = false)
    (erases : key = backspaceByte ∨ key = deleteByte) :
    edited limit (bytes ++ [key]) = ⟨(edited limit bytes).text.dropLast, false⟩ := by
  rw [edited_snoc]
  rcases erases with rfl | rfl
  all_goals simp [LineStack.press, running, newlineByte, backspaceByte, deleteByte]

/-- A carriage return finishes the line with a newline. -/
theorem edited_return (running : (edited limit bytes).stopped = false) :
    edited limit (bytes ++ [returnByte]) = ⟨(edited limit bytes).text ++ [newlineByte], true⟩ := by
  rw [edited_snoc]
  simp [LineStack.press, running, newlineByte, backspaceByte, deleteByte, returnByte]

/-- Any other key is put at the end. -/
theorem edited_typed (running : (edited limit bytes).stopped = false) (typed : key ≠ newlineByte)
    (keeps : ¬ (key = backspaceByte ∨ key = deleteByte)) (goesOn : key ≠ returnByte) :
    edited limit (bytes ++ [key]) = ⟨(edited limit bytes).text ++ [key],
      (edited limit bytes).text.length + 1 = limit⟩ := by
  rw [edited_snoc]
  simp [LineStack.press, running, typed, keeps, goesOn]

end Keys

/-- The lock that is free can be acquired. -/
@[simp] theorem KernelIo.acquire_free (sent : List UInt8) :
    (KernelIo.mk false sent).acquire = .ok ⟨true, sent⟩ := rfl

/-- The lock that is held can be released. -/
@[simp] theorem KernelIo.release_taken (sent : List UInt8) :
    (KernelIo.mk true sent).release = .ok ⟨false, sent⟩ := rfl

/-- Erasing sends three bytes under the lock. -/
@[simp] theorem KernelIo.erase_free (sent : List UInt8) :
    (KernelIo.mk false sent).erase =
      .ok ⟨false, sent ++ [backspaceByte, spaceByte, backspaceByte]⟩ := by
  simp [erase, writeByte, Bind.bind, Except.bind]

/-- The loops of `getch` go past idle polls. -/
theorem getchLoop_idle {idle : List (Option UInt8)} (idles : Idle idle) (sent : List UInt8)
    (polls : List (Option UInt8)) :
    (KernelIo.mk true sent).getchLoop (idle ++ polls) =
      (KernelIo.mk true sent).getchLoop polls := by
  induction idle with
  | nil => rfl
  | cons poll idle ih =>
    have others : Idle idle := fun poll member => idles poll (by simp [member])
    rcases idles poll (by simp) with rfl | rfl
    · simpa [KernelIo.getchLoop, Bind.bind, Except.bind] using ih others
    · simpa [KernelIo.getchLoop, Bind.bind, Except.bind, newlineByte, backspaceByte, deleteByte,
        returnByte] using ih others

/-- With idle polls only, `getch` goes on polling. -/
theorem getch_polling {idle : List (Option UInt8)} (idles : Idle idle) (sent : List UInt8) :
    (KernelIo.mk false sent).getch idle = .ok (.polling ⟨true, sent⟩) := by
  have skips := getchLoop_idle idles sent []
  rw [List.append_nil] at skips
  simp [KernelIo.getch, Bind.bind, Except.bind, skips, KernelIo.getchLoop]

/-- The key that `getch` returns behind idle polls, and what it echoes. -/
theorem getch_key {idle : List (Option UInt8)} (idles : Idle idle) (sent : List UInt8)
    {key : UInt8} (typed : key ≠ newlineByte) (rest : List (Option UInt8)) :
    (KernelIo.mk false sent).getch (idle ++ some key :: rest) =
      if key = backspaceByte ∨ key = deleteByte then .ok (.returned key ⟨false, sent⟩ rest)
      else if key = returnByte then
        .ok (.returned newlineByte ⟨false, sent ++ [newlineByte]⟩ rest)
      else .ok (.returned key ⟨false, sent ++ [key]⟩ rest) := by
  have skips := getchLoop_idle idles sent (some key :: rest)
  simp only [KernelIo.getch, KernelIo.acquire_free, Bind.bind, Except.bind, skips]
  simp only [KernelIo.getchLoop, KernelIo.writeByte, if_neg typed]
  split_ifs <;> rfl

/-- The buffer and the screen hold the line that the bytes so far make. -/
structure Edits (original sentBefore bytes : List UInt8) (r : Nat) (buf sent : List UInt8) :
    Prop where
  room : buf.length = original.length
  bounded : r ≤ original.length
  text : buf.take r = (edited original.length bytes).text
  untouched : ∀ position, (∀ before, before <+: bytes →
    (edited original.length before).text.length ≤ position) → buf[position]? = original[position]?
  screen : ∃ echoed, sent = sentBefore ++ echoed ∧
    displayed echoed = .showing (edited original.length bytes).text

section Edits

variable {original sentBefore bytes : List UInt8} {r : Nat} {buf sent : List UInt8}

/-- The length of the text is the count of `read`. -/
theorem Edits.height (edits : Edits original sentBefore bytes r buf sent) :
    (edited original.length bytes).text.length = r := by
  rw [← edits.text, List.length_take, edits.room]
  exact Nat.min_eq_left edits.bounded

/-- Before the first byte nothing is in the line. -/
theorem Edits.start : Edits original sentBefore [] 0 original sentBefore where
  room := rfl
  bounded := Nat.zero_le _
  text := rfl
  untouched := fun _ _ => rfl
  screen := ⟨[], by simp, rfl⟩

/-- What bounds the heights over more bytes bounds them over the first ones. -/
theorem Edits.untouched_by (edits : Edits original sentBefore bytes r buf sent) {more : List UInt8}
    {position : Nat} (above : ∀ before, before <+: bytes ++ more →
      (edited original.length before).text.length ≤ position) :
    buf[position]? = original[position]? :=
  edits.untouched position fun before first => above before (first.trans (List.prefix_append _ _))

/-- Bytes that leave the text alone. -/
theorem Edits.ignore (edits : Edits original sentBefore bytes r buf sent) {more : List UInt8}
    (same : (edited original.length (bytes ++ more)).text = (edited original.length bytes).text) :
    Edits original sentBefore (bytes ++ more) r buf sent where
  room := edits.room
  bounded := edits.bounded
  text := by rw [same, edits.text]
  untouched := fun _ above => edits.untouched_by above
  screen := by rw [same]; exact edits.screen

/-- A byte that pops the last one, with the echo that erases it. -/
theorem Edits.pop (edits : Edits original sentBefore bytes r buf sent) {byte : UInt8}
    (positive : r > 0) (free : r < buf.length)
    (popped : (edited original.length (bytes ++ [byte])).text =
      (edited original.length bytes).text.dropLast) :
    Edits original sentBefore (bytes ++ [byte]) (r - 1) buf
      (sent ++ [backspaceByte, spaceByte, backspaceByte]) where
  room := edits.room
  bounded := Nat.le_trans (Nat.sub_le _ _) edits.bounded
  text := by
    rw [popped, ← edits.text, List.dropLast_take free]
  untouched := fun _ above => edits.untouched_by above
  screen := by
    obtain ⟨echoed, rfl, shown⟩ := edits.screen
    refine ⟨echoed ++ [backspaceByte, spaceByte, backspaceByte], by simp, ?_⟩
    have nonempty : (edited original.length bytes).text ≠ [] :=
      List.ne_nil_of_length_pos (by rw [edits.height]; exact positive)
    rw [displayed_append, shown, TerminalLine.feed_erased nonempty, popped]

/-- A byte that pushes one, with its echo. -/
theorem Edits.push (edits : Edits original sentBefore bytes r buf sent) {byte pushed : UInt8}
    (free : r < buf.length) (typed : pushed ≠ backspaceByte)
    (grown : (edited original.length (bytes ++ [byte])).text =
      (edited original.length bytes).text ++ [pushed]) :
    Edits original sentBefore (bytes ++ [byte]) (r + 1) (buf.set r pushed)
      (sent ++ [pushed]) where
  room := by rw [List.length_set]; exact edits.room
  bounded := by rw [← edits.room]; exact free
  text := by
    -- The byte that is stored comes behind those that the buffer has.
    rw [grown, ← edits.text, List.take_add_one, List.take_set_of_le (Nat.le_refl r),
      List.getElem?_set_self free]
    rfl
  untouched := by
    intro position above
    -- The position written to lies below the height the text has now.
    have reached := above (bytes ++ [byte]) (List.prefix_refl _)
    rw [grown, List.length_append, edits.height, List.length_singleton] at reached
    rw [List.getElem?_set_ne (by omega)]
    exact edits.untouched_by above
  screen := by
    obtain ⟨echoed, rfl, shown⟩ := edits.screen
    refine ⟨echoed ++ [pushed], by simp, ?_⟩
    rw [displayed_append, shown, grown]
    exact TerminalLine.feed_typed typed _

end Edits

/-- How far a call of `read` has got: its count. -/
@[simp] def Reading.r : Reading → Nat
  | .returned r _ _ _ => r
  | .polling r _ _ => r

/-- The buffer of a call of `read`. -/
@[simp] def Reading.buf : Reading → List UInt8
  | .returned _ buf _ _ => buf
  | .polling _ buf _ => buf

/-- The bytes the device has sent. -/
@[simp] def Reading.sent : Reading → List UInt8
  | .returned _ _ io _ => io.sent
  | .polling _ _ io => io.sent

/-- Whether the mutex of the console is taken. -/
@[simp] def Reading.locked : Reading → Bool
  | .returned _ _ io _ => io.locked
  | .polling _ _ io => io.locked

/-- Whether the call has returned. -/
@[simp] def Reading.hasReturned : Reading → Bool
  | .returned .. => true
  | .polling .. => false

/-- The polls left to whoever reads next. -/
@[simp] def Reading.rest : Reading → List (Option UInt8)
  | .returned _ _ _ polls => polls
  | .polling .. => []

/--
Where the loop of `read` gets to.

The polls it has taken bring exactly the bytes of its line, the last of them the one that ends it.
-/
structure ReadsOn (original sentBefore bytes : List UInt8) (polls : List (Option UInt8))
    (reading : Reading) : Prop where
  edits : ∃ taken, polls = taken ++ reading.rest ∧
    Edits original sentBefore (bytes ++ arrived taken) reading.r reading.buf reading.sent ∧
    (edited original.length (bytes ++ arrived taken)).stopped = reading.hasReturned ∧
    ∀ before key, taken = before ++ [key] →
      ¬ (edited original.length (bytes ++ arrived before)).stopped
  released : reading.locked = !reading.hasReturned

/-- A finished loop has taken no poll. -/
theorem ReadsOn.done {original sentBefore bytes : List UInt8} {polls : List (Option UInt8)} {r : Nat}
    {buf sent : List UInt8} (edits : Edits original sentBefore bytes r buf sent)
    (stopped : (edited original.length bytes).stopped = true) :
    ReadsOn original sentBefore bytes polls (.returned r buf ⟨false, sent⟩ polls) where
  edits := ⟨[], rfl, by simpa using edits, by simpa using stopped,
    fun before key same => by simp at same⟩
  released := rfl

/-- The loop behind a key, after the idle polls and the key that came first. -/
theorem ReadsOn.after {original sentBefore bytes : List UInt8}
    {idle rest : List (Option UInt8)} {key : UInt8} {reading : Reading} (idles : Idle idle)
    (running : (edited original.length bytes).stopped = false)
    (reads : ReadsOn original sentBefore (bytes ++ arrived idle ++ [key]) rest reading) :
    ReadsOn original sentBefore bytes (idle ++ some key :: rest) reading where
  edits := by
    -- The edits of the rest are those after the key.
    obtain ⟨taken, same, edits, stopped, last⟩ := reads.edits
    refine ⟨idle ++ some key :: taken, by simp [same], by simpa using edits,
      by simpa using stopped, ?_⟩
    intro before final ending
    -- The last poll taken is the key itself, or the last one taken behind it.
    -- The last poll may be the key, if nothing is taken behind it.
    rcases List.eq_nil_or_concat taken with rfl | ⟨front, end_, rfl⟩
    · have split : before = idle ∧ final = some key := by
        simpa [eq_comm] using List.append_inj' ending rfl
      rw [split.1, edited_idle idles]
      simp [running]
    · have split : before = idle ++ some key :: front ∧ final = end_ := by
        have behind : idle ++ some key :: front ++ [end_] = before ++ [final] := by
          simpa using ending
        simpa [eq_comm] using List.append_inj' behind rfl
      rw [split.1]
      simpa using last front end_ (by simp)
  released := reads.released

/-- With idle polls only, the loop of `read` waits for a key. -/
theorem ReadsOn.waiting {original sentBefore bytes : List UInt8} {polls : List (Option UInt8)}
    {r : Nat} {buf sent : List UInt8} (edits : Edits original sentBefore bytes r buf sent)
    (running : (edited original.length bytes).stopped = false) (idles : Idle polls) :
    ReadsOn original sentBefore bytes polls (.polling r buf ⟨true, sent⟩) where
  edits := by
    refine ⟨polls, by simp, edits.ignore (by rw [edited_idle idles]), ?_, ?_⟩
    · rw [edited_idle idles, running]
      rfl
    · intro before key same
      have others : Idle before := fun poll member => idles poll (by simp [same, member])
      rw [edited_idle others]
      simp [running]
  released := rfl

section Loop

variable {original sentBefore : List UInt8} {passes : Nat} {bytes : List UInt8} {r : Nat}
  {buf sent : List UInt8} {idle rest : List (Option UInt8)} {key : UInt8}

/-- A pass of `read` for a key that erases. -/
theorem readLoop_erase (free : r < buf.length) (idles : Idle idle)
    (erases : key = backspaceByte ∨ key = deleteByte) :
    readLoop (passes + 1) r buf ⟨false, sent⟩ (idle ++ some key :: rest) =
      if r > 0 then
        readLoop passes (r - 1) buf ⟨false, sent ++ [backspaceByte, spaceByte, backspaceByte]⟩ rest
      else readLoop passes r buf ⟨false, sent⟩ rest := by
  have typed : key ≠ newlineByte := by rcases erases with rfl | rfl <;> decide
  simp only [readLoop, if_pos free, getch_key idles sent typed, if_pos erases, Bind.bind,
    Except.bind, KernelIo.erase_free]

/-- A pass of `read` for a carriage return. -/
theorem readLoop_return (free : r < buf.length) (idles : Idle idle) :
    readLoop (passes + 1) r buf ⟨false, sent⟩ (idle ++ some returnByte :: rest) =
      .ok (.returned (r + 1) (buf.set r newlineByte) ⟨false, sent ++ [newlineByte]⟩ rest) := by
  have key := getch_key idles sent (show returnByte ≠ newlineByte by decide) rest
  simp only [show ¬ (returnByte = backspaceByte ∨ returnByte = deleteByte) by decide, if_true,
    if_false] at key
  simp only [readLoop, if_pos free, key, Bind.bind, Except.bind,
    show ¬ (newlineByte = backspaceByte ∨ newlineByte = deleteByte) by decide, if_true, if_false]
  rfl

/-- A pass of `read` for any other key. -/
theorem readLoop_typed (free : r < buf.length) (idles : Idle idle) (typed : key ≠ newlineByte)
    (keeps : ¬ (key = backspaceByte ∨ key = deleteByte)) (goesOn : key ≠ returnByte) :
    readLoop (passes + 1) r buf ⟨false, sent⟩ (idle ++ some key :: rest) =
      readLoop passes (r + 1) (buf.set r key) ⟨false, sent ++ [key]⟩ rest := by
  simp only [readLoop, if_pos free, getch_key idles sent typed, if_neg keeps, if_neg goesOn,
    if_neg typed, Bind.bind, Except.bind]

/-- The loop of `read` keeps the buffer and the screen to the line its bytes make. -/
theorem readLoop_edits {polls : List (Option UInt8)} (enough : polls.length < passes)
    (edits : Edits original sentBefore bytes r buf sent)
    (stops : (edited original.length bytes).stopped = decide (r = original.length)) :
    ∃ reading, readLoop passes r buf ⟨false, sent⟩ polls = .ok reading ∧
      ReadsOn original sentBefore bytes polls reading := by
  have room := edits.room
  have bounded := edits.bounded
  -- The induction is on the passes, each of which takes polls up to the next key.
  induction passes generalizing bytes r buf sent polls with
  | zero => omega
  | succ passes ih =>
    by_cases free : r < buf.length
    case neg =>
      -- The buffer is full, so the loop has ended.
      have full : r = original.length := by omega
      exact ⟨_, by simp [readLoop, free, pure, Except.pure],
        .done edits (by simpa [full] using stops)⟩
    case pos =>
      have unfinished : r ≠ original.length := by omega
      have running : (edited original.length bytes).stopped = false := by simp [stops, unfinished]
      -- Either no key ever comes, or the next one comes behind polls that find nothing.
      rcases exists_key polls with idles | ⟨idle, key, rest, rfl, idles, typed⟩
      · refine ⟨_, ?_, .waiting edits running idles⟩
        simp [readLoop, free, getch_polling idles, Bind.bind, Except.bind, pure, Except.pure]
      -- The key comes behind idle polls, which change nothing.
      have same : edited original.length (bytes ++ arrived idle) = edited original.length bytes :=
        edited_idle idles _ _
      have here : Edits original sentBefore (bytes ++ arrived idle) r buf sent :=
        edits.ignore (by rw [same])
      have still : (edited original.length (bytes ++ arrived idle)).stopped = false := by
        rw [same, running]
      have fewer : rest.length < passes := by
        simp only [List.length_append, List.length_cons] at enough
        omega
      by_cases erases : key = backspaceByte ∨ key = deleteByte
      · -- Backspace and delete take back the last byte, if there is one.
        have popped := edited_erase still erases
        rw [readLoop_erase free idles erases]
        split_ifs with positive
        · have next := here.pop positive free (by rw [popped])
          obtain ⟨reading, read, reads⟩ := ih fewer next
            (by rw [popped]; symm; rw [decide_eq_false_iff_not]; omega) next.room next.bounded
          exact ⟨reading, read, .after idles running reads⟩
        · -- At the left edge there is nothing to erase.
          have nothing : (edited original.length (bytes ++ arrived idle)).text = [] :=
            List.eq_nil_of_length_eq_zero (by rw [here.height]; omega)
          have next : Edits original sentBefore (bytes ++ arrived idle ++ [key]) r buf sent :=
            here.ignore (by rw [popped, nothing]; rfl)
          obtain ⟨reading, read, reads⟩ := ih fewer next
            (by rw [popped]; simp [unfinished]) next.room next.bounded
          exact ⟨reading, read, .after idles running reads⟩
      by_cases finishes : key = returnByte
      · -- Return is stored as a newline, and ends the line.
        subst finishes
        rw [readLoop_return free idles]
        have pushed := here.push free (by decide) (congrArg LineStack.text (edited_return still))
        exact ⟨_, rfl, .after idles running (.done pushed (by rw [edited_return still]))⟩
      · -- Any other byte is stored and shown.
        have grown := edited_typed still typed erases finishes
        rw [readLoop_typed free idles typed erases finishes]
        have next := here.push free (fun same => erases (.inl same))
          (congrArg LineStack.text grown)
        obtain ⟨reading, read, reads⟩ := ih fewer next
          (by rw [grown, here.height]) next.room next.bounded
        exact ⟨reading, read, .after idles running reads⟩

end Loop

/-- Only the last byte of a line can be a newline. -/
theorem edited_newline {limit : Nat} {bytes : List UInt8} {position : Nat}
    (inside : position + 1 < (edited limit bytes).text.length) :
    (edited limit bytes).text[position]? ≠ some newlineByte := by
  intro found
  apply (edited_tidy limit bytes).1
  rw [List.mem_iff_getElem?]
  exact ⟨position, by rw [List.getElem?_dropLast, if_pos (by omega), found]⟩

/--
A line read from the console is what a stack makes of the bytes, and what the screen shows.

The polls are those the call makes up to some moment, with the byte or the lack of one that each
finds, so that what holds for all lists of polls holds behind every key of every stream.
-/
theorem KernelIo.read_edits (original sent : List UInt8) (polls : List (Option UInt8)) :
    ∃ reading, (KernelIo.mk false sent).read original polls = .ok reading ∧
      -- The call returns when the stack stops, with the text of the stack in the buffer.
      reading.hasReturned = (edited original.length (arrived polls)).stopped ∧
      reading.r = (edited original.length (arrived polls)).text.length ∧
      reading.buf.take reading.r = (edited original.length (arrived polls)).text ∧
      reading.r ≤ original.length ∧ reading.buf.length = original.length ∧
      (∀ position, position + 1 < reading.r → reading.buf[position]? ≠ some newlineByte) ∧
      -- Beyond the highest position the text ever reached the buffer is untouched.
      (∀ position, (∀ before, before <+: arrived polls →
          (edited original.length before).text.length ≤ position) →
        reading.buf[position]? = original[position]?) ∧
      -- The echo shows the text in the buffer, blanks after it, and the cursor right behind it.
      (∃ echoed, reading.sent = sent ++ echoed ∧
        displayed echoed = .showing (reading.buf.take reading.r)) ∧
      -- The mutex is taken while the call polls, and free when it has returned.
      reading.locked = (!reading.hasReturned) ∧
      -- No poll is made after the one that stops the stack.
      ∃ taken, polls = taken ++ reading.rest ∧ ∀ before key, taken = before ++ [key] →
        ¬ (edited original.length (arrived before)).stopped := by
  obtain ⟨reading, read, reads⟩ := readLoop_edits (Nat.lt_succ_self polls.length)
    (@Edits.start original sent)
    (by simp [LineStack.start, eq_comm])
  obtain ⟨taken, rfl, edits, stopped, last⟩ := reads.edits
  simp only [List.nil_append] at edits stopped last
  -- The polls left over come after the end of the line, if there are any.
  have whole : edited original.length (arrived (taken ++ reading.rest)) =
      edited original.length (arrived taken) := by
    rw [arrived_append]
    cases returned : reading.hasReturned with
    | true => exact edited_append_of_stopped (by rw [stopped, returned]) _
    | false =>
      cases reading with
      | returned r buf io polls => simp at returned
      | polling r buf io => simp
  rw [whole]
  refine ⟨reading, read, stopped.symm, edits.height.symm, edits.text, edits.bounded, edits.room,
    ?_, ?_, ?_, reads.released, taken, rfl, last⟩
  · intro position inside
    rw [← List.getElem?_take_of_lt (Nat.lt_of_succ_lt inside), edits.text]
    exact edited_newline (by rw [edits.height]; exact inside)
  · intro position above
    rw [arrived_append] at above
    exact edits.untouched_by above
  · rw [edits.text]
    exact edits.screen

/-- A backspace on the empty line, a dropped newline, an erased byte, and a byte typed ahead. -/
example :
    (KernelIo.mk false []).read [0, 0, 0, 0]
        [some 8, some 97, none, some 98, some 127, some 10, some 99, some 13, some 100] =
      .ok (.returned 3 [97, 99, 10, 0] ⟨false, [97, 98, 8, 32, 8, 99, 10]⟩ [some 100]) := by
  rfl

end AtOS
