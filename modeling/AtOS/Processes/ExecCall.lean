import AtOS.Processes.ArgsRoundTrip
import AtOS.Processes.Syscalls

/-! `exec` of the user library: the tables it passes, and what the kernel reads from them. -/

namespace AtOS

/-- A `&str`: where it lies, and how long it is. -/
structure StrRef where
  ptr : UInt64
  len : UInt64

/-- `MAX_ARGS` of `exec` in the user library. -/
def userMaxArgs : Nat := 32

/-- The loop of `exec` that fills `ptrs` and `lens`, from an argument on. -/
def fillTables : List StrRef → Nat → List UInt64 → List UInt64 → List UInt64 × List UInt64
  | [], _, ptrs, lens => (ptrs, lens)
  | arg :: rest, i, ptrs, lens =>
    fillTables rest (i + 1) (ptrs.set (i + 1) arg.ptr) (lens.set (i + 1) arg.len)

/-- `exec` of the user library up to its `svc`: `ptrs`, `lens` and `count`. -/
def execTables (path : StrRef) (args : List StrRef) :
    Except String (List UInt64 × List UInt64 × UInt64) :=
  if args.length + 1 > userMaxArgs then .error "too many arguments"
  else
    let ptrs := (List.replicate userMaxArgs 0).set 0 path.ptr
    let lens := (List.replicate userMaxArgs 0).set 0 path.len
    let (ptrs, lens) := fillTables args 0 ptrs lens
    .ok (ptrs, lens, UInt64.ofNat (args.length + 1))

/-- A string of a program lies in its memory. -/
structure StrRef.Holds (read : Nat → Option UInt8) (ref : StrRef) (text : String) : Prop where
  notNull : ref.ptr ≠ 0
  len : ref.len.toNat = (asBytes text).length
  bytes : readSlice read ref.ptr.toNat (asBytes text).length = some (asBytes text)

/-- The first entries of a table lie in memory. -/
def TableAt (read : Nat → Option UInt8) (start : UInt64) (table : List UInt64) (count : Nat) : Prop :=
  ∀ i < count, readU64 read (start.toNat + 8 * i) = table[i]?

/-- A program is at the `svc` of `exec` for a path and arguments, with these registers. -/
structure CallsExec (read : Nat → Option UInt8) (x : Vector UInt64 31) (path : String)
    (args : List String) : Prop where
  ptrs : x.get 0 ≠ 0
  lens : x.get 1 ≠ 0
  /-- The strings, and the entries of the tables that are in use, are in the memory of the program. -/
  tables : ∃ pathRef refs ptrs lens, execTables pathRef refs = .ok (ptrs, lens, x.get 2) ∧
    List.Forall₂ (StrRef.Holds read) (pathRef :: refs) (path :: args) ∧
    TableAt read (x.get 0) ptrs (refs.length + 1) ∧ TableAt read (x.get 1) lens (refs.length + 1)

section Tables

variable {path : StrRef} {args : List StrRef} {ptrs lens : List UInt64} {count : UInt64}

/-- What the loop does to one of its tables. -/
def fillTable : List UInt64 → Nat → List UInt64 → List UInt64
  | [], _, table => table
  | value :: rest, i, table => fillTable rest (i + 1) (table.set (i + 1) value)

/-- The two tables are filled independently of each other. -/
theorem fillTables_eq : ∀ (args : List StrRef) (i : Nat) (ptrs lens : List UInt64),
    fillTables args i ptrs lens =
      (fillTable (args.map (·.ptr)) i ptrs, fillTable (args.map (·.len)) i lens)
  | [], _, _, _ => rfl
  | _ :: rest, i, _, _ => fillTables_eq rest (i + 1) ..

/-- The entries up to the start of the loop stay as they are. -/
theorem fillTable_before : ∀ (values : List UInt64) (i : Nat) (table : List UInt64) {j : Nat},
    j ≤ i → (fillTable values i table)[j]? = table[j]?
  | [], _, _, _, _ => rfl
  | value :: rest, i, table, j, before => by
    rw [fillTable, fillTable_before rest (i + 1) _ (by omega),
      List.getElem?_set_ne (show i + 1 ≠ j by omega)]

/-- The entries behind it are the values, in order, as long as the table has room. -/
theorem fillTable_behind : ∀ (values : List UInt64) (i : Nat) (table : List UInt64) {j : Nat},
    i + values.length < table.length → j < values.length →
      (fillTable values i table)[i + 1 + j]? = values[j]?
  | [], _, _, _, _, inside => by cases inside
  | value :: rest, i, table, j, room, inside => by
    -- The induction is on the values still to write.
    rw [List.length_cons] at room inside
    rw [fillTable]
    cases j with
    | zero =>
      -- The first value is written at once, and the rest of the loop is behind it.
      rw [Nat.add_zero, fillTable_before rest (i + 1) _ (Nat.le_refl _),
        List.getElem?_set_self (by omega)]
      rfl
    | succ j =>
      have later := @fillTable_behind rest (i + 1) (table.set (i + 1) value) j
        (by rw [List.length_set]; omega) (by omega)
      rw [show i + 1 + (j + 1) = i + 1 + 1 + j by omega, later]
      rfl

/-- A table that starts with an entry, filled: the entries are that one and the values. -/
theorem fillTable_first (first : UInt64) (values : List UInt64) {i : Nat}
    (few : values.length < userMaxArgs) (inside : i < values.length + 1) :
    (fillTable values 0 ((List.replicate userMaxArgs 0).set 0 first))[i]? =
      (first :: values)[i]? := by
  cases i with
  | zero =>
    rw [fillTable_before _ _ _ (Nat.le_refl _), List.getElem?_set_self (by simp [userMaxArgs])]
    rfl
  | succ i =>
    have behind := @fillTable_behind values 0 ((List.replicate userMaxArgs 0).set 0 first) i
      (by rw [List.length_set, List.length_replicate]; omega) (by omega)
    rw [show i + 1 = 0 + 1 + i by omega, behind, show 0 + 1 + i = i + 1 by omega]
    rfl

/-- The tables of `exec` have the pointers and lengths of the path and its arguments. -/
theorem execTables_spec (made : execTables path args = .ok (ptrs, lens, count)) :
    args.length + 1 ≤ userMaxArgs ∧ count = UInt64.ofNat (args.length + 1) ∧
      ∀ i < args.length + 1, ptrs[i]? = ((path :: args)[i]?).map (·.ptr) ∧
        lens[i]? = ((path :: args)[i]?).map (·.len) := by
  unfold execTables at made
  split at made
  · cases made
  · rename_i few
    dsimp only at made
    rw [fillTables_eq, Except.ok.injEq, Prod.mk.injEq, Prod.mk.injEq] at made
    obtain ⟨rfl, rfl, rfl⟩ := made
    refine ⟨by omega, rfl, fun i inside => ?_⟩
    rw [fillTable_first _ _ (by rw [List.length_map]; omega) (by rwa [List.length_map]),
      fillTable_first _ _ (by rw [List.length_map]; omega) (by rwa [List.length_map]),
      ← List.getElem?_map, ← List.getElem?_map]
    exact ⟨rfl, rfl⟩

end Tables

section Reading

variable {read other : Nat → Option UInt8} {x : Vector UInt64 31} {path : String}
  {args : List String}

/-- A loop over indices that does with each item what another does with the items. -/
theorem mapM_range_items {Error Item Value : Type} {find : Nat → Except Error Value}
    {body : Item → Except Error Value} : ∀ {items : List Item},
    (∀ i item, items[i]? = some item → find i = body item) →
      (List.range items.length).mapM find = items.mapM body := by
  intro items
  induction items generalizing find with
  | nil => exact fun _ => rfl
  | cons item rest ih =>
    intro each
    rw [List.length_cons, List.range_succ_eq_map, List.mapM_cons, List.mapM_cons, List.mapM_map,
      each 0 item rfl, @ih (find ∘ Nat.succ) fun i other found => each (i + 1) other found]

/-- A loop that takes some items as they are, and refuses all others in the same way. -/
theorem mapM_refuses {Error Item Value : Type} {body : Item → Except Error Value}
    {value : Item → Value} {good : Item → Prop} [DecidablePred good] {error : Error} :
    ∀ items : List Item,
      (∀ item ∈ items, body item = if good item then .ok (value item) else .error error) →
      items.mapM body =
        if ∀ item ∈ items, good item then .ok (items.map value) else .error error := by
  intro items
  -- The loop stops at the first item that is refused.
  induction items with
  | nil => simp [pure, Except.pure]
  | cons item rest ih =>
    intro each
    rw [List.mapM_cons, each item List.mem_cons_self,
      ih fun other member => each other (List.mem_cons_of_mem _ member)]
    by_cases first : good item
    · by_cases others : ∀ other ∈ rest, good other
      · rw [if_pos first, if_pos others, if_pos (by simpa using ⟨first, others⟩)]
        rfl
      · rw [if_pos first, if_neg others, if_neg fun all => others fun other member =>
          all other (List.mem_cons_of_mem _ member)]
        rfl
    · rw [if_neg first]
      show Except.error error = _
      rw [if_neg fun all => first (all item List.mem_cons_self)]

/-- What is read through one memory is read through another one as well. -/
def ReadsAs (read other : Nat → Option UInt8) : Prop :=
  ∀ va byte, read va = some byte → other va = some byte

/-- What one memory reads another one that agrees with it reads too. -/
theorem ReadsAs.slice (reads : ReadsAs read other) {start length : Nat} {bytes : List UInt8}
    (found : readSlice read start length = some bytes) :
    readSlice other start length = some bytes := by
  -- Position by position, the second loop finds what the first one has found.
  have each : ∀ (positions : List Nat) (bytes : List UInt8),
      (positions.mapM fun position => read (start + position)) = some bytes →
        (positions.mapM fun position => other (start + position)) = some bytes := by
    intro positions
    induction positions with
    | nil => exact fun _ found => found
    | cons position rest ih =>
      intro bytes found
      rw [List.mapM_cons] at found ⊢
      cases here : read (start + position) with
      | none =>
        rw [here] at found
        cases found
      | some byte =>
        rw [here] at found
        rw [reads _ _ here]
        cases others : rest.mapM fun position => read (start + position) with
        | none =>
          rw [others] at found
          cases found
        | some more =>
          rw [others] at found
          rw [ih more others]
          exact found
  exact each _ _ found

/-- A word is read likewise, since it is read as a slice. -/
theorem ReadsAs.word (reads : ReadsAs read other) {start : Nat} {value : UInt64}
    (found : readU64 read start = some value) : readU64 other start = some value := by
  rw [readU64, Option.map_eq_some_iff] at found ⊢
  obtain ⟨bytes, slice, word⟩ := found
  exact ⟨bytes, reads.slice slice, word⟩

/-- An argument is read as its bytes, unless it is too long. -/
theorem readExecArg_holds (reads : ReadsAs read other) {ptrs lens : UInt64} {i : Nat} {ref : StrRef}
    {text : String} (holds : ref.Holds read text)
    (ptr : readU64 read (ptrs.toNat + 8 * i) = some ref.ptr)
    (len : readU64 read (lens.toNat + 8 * i) = some ref.len) :
    readExecArg other ptrs lens i =
      if (asBytes text).length ≤ maxExecArgLen then .ok (asBytes text) else .error .invalid := by
  -- The pointer and the length are read as they are in the caller's own view.
  unfold readExecArg
  rw [reads.word ptr, reads.word len]
  dsimp only
  by_cases short : (asBytes text).length ≤ maxExecArgLen
  · rw [if_pos short, if_neg, holds.len, reads.slice holds.bytes]
    rintro (long | ⟨-, isNull⟩)
    · rw [holds.len] at long
      omega
    · exact holds.notNull isNull
  · rw [if_neg short, if_pos]
    left
    rw [holds.len]
    omega

/-- What the kernel reads for a call of `exec` is the path and its arguments, if none is too long. -/
theorem CallsExec.reads (calls : CallsExec read x path args) (reads : ReadsAs read other) :
    readExecArgs other (x.get 0) (x.get 1) (x.get 2) =
      if ∀ text ∈ path :: args, (asBytes text).length ≤ maxExecArgLen then .ok (path :: args)
      else .error .invalid := by
  obtain ⟨pathRef, refs, ptrs, lens, made, strings, ptrsAt, lensAt⟩ := calls.tables
  -- The library's two tables hold the pointers and lengths of the path and the arguments.
  obtain ⟨few, count, entries⟩ := execTables_spec made
  have sameLength := strings.length_eq
  rw [List.length_cons, List.length_cons] at sameLength
  have number : (x.get 2).toNat = (path :: args).length := by
    rw [count, UInt64.toNat_ofNat', Nat.mod_eq_of_lt (by rw [userMaxArgs] at few; omega),
      List.length_cons, sameLength]
  -- The first loop copies the strings, or refuses the first one that is too long.
  have storage : (List.range (x.get 2).toNat).mapM (readExecArg other (x.get 0) (x.get 1)) =
      if ∀ text ∈ path :: args, (asBytes text).length ≤ maxExecArgLen then
        .ok ((path :: args).map asBytes) else .error .invalid := by
    rw [number, ← mapM_refuses (path :: args) fun _ _ => rfl]
    refine mapM_range_items fun i text found => ?_
    have inside := (List.getElem?_eq_some_iff.mp found).1
    rw [List.length_cons] at inside
    obtain ⟨ptr, len⟩ := entries i (by omega)
    -- The string at an index and its reference belong together.
    obtain ⟨ref, here, holds⟩ : ∃ ref, (pathRef :: refs)[i]? = some ref ∧ ref.Holds read text := by
      have isRef : i < (pathRef :: refs).length := by
        rw [List.length_cons]
        omega
      refine ⟨_, List.getElem?_eq_getElem isRef, ?_⟩
      have holds := strings.get isRef (by rw [List.length_cons]; omega)
      rw [List.getElem?_eq_some_iff] at found
      obtain ⟨_, rfl⟩ := found
      exact holds
    rw [here, Option.map_some] at ptr len
    exact readExecArg_holds reads holds ((ptrsAt i (by omega)).trans ptr)
      ((lensAt i (by omega)).trans len)
  -- The four checks of the call's prologue pass.
  have passes : ¬ (x.get 0 = 0 ∨ x.get 1 = 0 ∨ x.get 2 = 0 ∨ maxExecArgs < (x.get 2).toNat) := by
    rintro (isNull | isNull | none | many)
    · exact calls.ptrs isNull
    · exact calls.lens isNull
    · rw [none] at number
      simp at number
    · rw [number, List.length_cons, maxExecArgs] at many
      rw [userMaxArgs] at few
      omega
  unfold readExecArgs
  rw [if_neg passes]
  simp only [bind, Except.bind]
  rw [storage]
  by_cases short : ∀ text ∈ path :: args, (asBytes text).length ≤ maxExecArgLen
  · -- The second loop decodes what the program has as strings.
    rw [if_pos short, if_pos short]
    dsimp only
    rw [List.mapM_map]
    have decodes := @mapM_refuses _ _ _ (decodeExecArg ∘ asBytes) id (fun _ => True) _
      ArgFailure.invalid (path :: args) fun text _ => by
        rw [if_pos trivial, Function.comp_apply, decodeExecArg, fromUTF8_asBytes]
        rfl
    rw [decodes, if_pos fun _ _ => trivial, List.map_id]
  · -- A string that is too long is refused by the first loop.
    rw [if_neg short, if_neg short]

end Reading

end AtOS
