import AtOS.Paging.FreePageTable

/-! Copying the tables of an address space: `do_duplicate_table_recursive` entry by entry. -/

namespace AtOS

open ByteMemory RadixForest

/-- The attribute bits of the valid entry at the end of a path. -/
def attributes (mem : Mem) (root : Nat) (path : List EntryIndex) : Option Nat :=
  (walk (child mem) root path.dropLast).bind fun table =>
    path.getLast?.bind fun index =>
      if IsValid (entry mem table index) then some (entry mem table index &&& flagsMask) else none

section Attributes

variable {mem : Mem} {root : Nat}

/-- The last table on a path has the attributes of the page. -/
theorem attributes_snoc (mem : Mem) (root : Nat) (path : List EntryIndex) (index : EntryIndex) :
    attributes mem root (path ++ [index]) = (walk (child mem) root path).bind fun table =>
      if IsValid (entry mem table index) then some (entry mem table index &&& flagsMask)
      else none := by
  simp [attributes]

/-- A path has attributes exactly when it leads to a node. -/
theorem attributes_isSome {path : List EntryIndex} (nonempty : path ≠ []) :
    (attributes mem root path).isSome = (walk (child mem) root path).isSome := by
  obtain ⟨shorter, index, rfl⟩ := (List.eq_nil_or_concat path).resolve_left nonempty
  rw [List.concat_eq_append, attributes_snoc, walk_snoc]
  cases walk (child mem) root shorter with
  | none => rfl
  | some table =>
    simp only [Option.bind_some, child]
    split <;> rfl

/-- A path that leads nowhere has no attributes. -/
theorem attributes_none {path : List EntryIndex} (unreached : walk (child mem) root path = none) :
    attributes mem root path = none := by
  by_cases empty : path = []
  · subst empty
    cases unreached
  · have nothing : (attributes mem root path).isSome = (walk (child mem) root path).isSome :=
      attributes_isSome empty
    rw [unreached] at nothing
    simpa using nothing

/-- Memory that keeps the tables of a root keeps the attributes of every path. -/
theorem attributes_congr {next : Mem}
    (kept : ∀ table ∈ tables (child mem) 3 root, Set.EqOn next mem (frame table))
    {path : List EntryIndex} (short : path.length ≤ 3) :
    attributes next root path = attributes mem root path := by
  rcases List.eq_nil_or_concat path with rfl | ⟨shorter, index, rfl⟩
  · simp [attributes]
  · rw [List.concat_eq_append, List.length_append, List.length_singleton] at short
    have same := walk_congr (fun table member => child_congr (kept table member)) shorter (by omega)
    rw [List.concat_eq_append, attributes_snoc, attributes_snoc, same]
    cases reached : walk (child mem) root shorter with
    | none => simp only [Option.bind_none]
    | some table =>
      have sameEntry := entry_congr (kept table ⟨shorter, by omega, reached⟩) index
      simp only [Option.bind_some, sameEntry]

end Attributes

/--
What filling some entries of a table of one tree leaves behind.

The region holds the entries that were filled, from frames of the free list.
-/
structure Filled (alloc after : PageAllocator) (roots : Set Nat) (free : List Nat)
    (managed : Set Nat) (dst : Nat) (path : List EntryIndex) (region : Set EntryIndex)
    (used rest : List Nat) : Prop where
  free_eq : free = used ++ rest
  owned : Owned after roots rest managed
  total : after.totalFrameCount = alloc.totalFrameCount
  walks : ∀ owner ∈ roots, ∀ other : List EntryIndex, other.length ≤ 3 →
    ¬ (owner = dst ∧ ∃ index ∈ region, ∃ tail, other = path ++ index :: tail) →
    walk (child after.mem) owner other = walk (child alloc.mem) owner other
  entries : ∀ table, walk (child alloc.mem) dst path = some table → ∀ index ∉ region,
    entry after.mem table index = entry alloc.mem table index
  kept : ∀ pa ∈ managed, pa ∉ used → walk (child alloc.mem) dst path ≠ some pa →
    Set.EqOn after.mem alloc.mem (frame pa)

/-- What was filled is a copy of what the same path leads to in the source tree. -/
structure Duplicated (alloc after : PageAllocator) (roots : Set Nat) (free : List Nat)
    (managed : Set Nat) (src dst : Nat) (path : List EntryIndex) (region : Set EntryIndex)
    (used rest : List Nat) : Prop
    extends Filled alloc after roots free managed dst path region used rest where
  attributes_eq : ∀ index ∈ region, ∀ tail, (path ++ index :: tail).length ≤ 3 →
    attributes after.mem dst (path ++ index :: tail) =
      attributes alloc.mem src (path ++ index :: tail)
  content : ∀ index ∈ region, ∀ tail, (path ++ index :: tail).length = 3 → ∀ pa copied,
    walk (child alloc.mem) src (path ++ index :: tail) = some pa →
    walk (child after.mem) dst (path ++ index :: tail) = some copied →
    ∀ offset < 4096, after.mem (copied + offset) = alloc.mem (pa + offset)

/-- What a copy that ran out of frames leaves behind. -/
structure DuplicateFailed (alloc after : PageAllocator) (roots : Set Nat) (free : List Nat)
    (managed : Set Nat) (src dst : Nat) : Prop where
  owned : Owned after roots [] managed
  total : after.totalFrameCount = alloc.totalFrameCount
  walks : ∀ owner ∈ roots, owner ≠ dst → ∀ path : List EntryIndex, path.length ≤ 3 →
    walk (child after.mem) owner path = walk (child alloc.mem) owner path
  /-- What was copied is part of the source. -/
  contained : ∀ path : List EntryIndex, path.length ≤ 3 →
    (walk (child after.mem) dst path).isSome →
    (walk (child alloc.mem) dst path).isSome ∨ (walk (child alloc.mem) src path).isSome
  /-- Some node of the source was not copied. -/
  missing : ∃ path : List EntryIndex, path.length ≤ 3 ∧
    walk (child after.mem) dst path = none ∧ (walk (child alloc.mem) src path).isSome
  kept : ∀ pa ∈ managed, pa ∉ free → pa ∉ nodes (child alloc.mem) 3 dst →
    Set.EqOn after.mem alloc.mem (frame pa)

section Compose

variable {alloc middle after : PageAllocator} {roots : Set Nat} {free usedFirst used rest : List Nat}
  {managed : Set Nat} {src dst : Nat} {path : List EntryIndex} {first region : Set EntryIndex}

/-- The frames of a live tree other than the table being filled are not written. -/
theorem Filled.frame_kept
    (step : Filled alloc after roots free managed dst path region used rest)
    (owned : Owned alloc roots free managed) (liveDst : dst ∈ roots) (short : path.length ≤ 3)
    {owner pa : Nat} (live : owner ∈ roots) {other : List EntryIndex} (shortOther : other.length ≤ 3)
    (reached : walk (child alloc.mem) owner other = some pa)
    (elsewhere : ¬ (owner = dst ∧ other = path)) : Set.EqOn after.mem alloc.mem (frame pa) := by
  have member := node_of_walk shortOther reached
  refine step.kept pa (owned.node_managed live member) (fun listed => ?_) fun same => ?_
  · -- The used frames were free.
    exact owned.apart owner live pa member (step.free_eq ▸ List.mem_append_left rest listed)
  · exact elsewhere (owned.separate live liveDst shortOther short reached same)

/-- Attributes whose entry is not written are kept. -/
theorem Filled.attributes_kept
    (step : Filled alloc after roots free managed dst path region used rest)
    (owned : Owned alloc roots free managed) (liveDst : dst ∈ roots) (short : path.length ≤ 3)
    {owner : Nat} (live : owner ∈ roots) {other : List EntryIndex} (shortOther : other.length ≤ 3)
    (elsewhere : ¬ (owner = dst ∧ ∃ index ∈ region, ∃ tail, other = path ++ index :: tail)) :
    attributes after.mem owner other = attributes alloc.mem owner other := by
  -- The attributes stand in the last table of a path, so the paths to the tables matter.
  rcases List.eq_nil_or_concat other with rfl | ⟨shorter, last, rfl⟩
  · simp [attributes]
  · rw [List.concat_eq_append] at shortOther elsewhere ⊢
    have bound : shorter.length ≤ 3 := by
      simp only [List.length_append, List.length_singleton] at shortOther
      omega
    -- A table inside the region would put the whole path inside it.
    have same := step.walks owner live shorter bound (by
      rintro ⟨rfl, index, inside, tail, rfl⟩
      exact elsewhere ⟨rfl, index, inside, tail ++ [last], by simp⟩)
    rw [attributes_snoc, attributes_snoc, same]
    cases reached : walk (child alloc.mem) owner shorter with
    | none => simp only [Option.bind_none]
    | some table =>
      -- An entry outside the region is not written, in this table or in any other.
      have sameEntry : entry after.mem table last = entry alloc.mem table last := by
        by_cases here : owner = dst ∧ shorter = path
        · obtain ⟨rfl, rfl⟩ := here
          exact step.entries table reached last fun inside =>
            elsewhere ⟨rfl, last, inside, [], rfl⟩
        · exact entry_congr (step.frame_kept owned liveDst short live bound reached here) last
      simp only [Option.bind_some, sameEntry]

/-- The path to the table itself is not changed by filling it. -/
theorem Filled.table_walk
    (step : Filled alloc after roots free managed dst path region used rest) (liveDst : dst ∈ roots)
    (short : path.length ≤ 3) : walk (child after.mem) dst path = walk (child alloc.mem) dst path := by
  refine step.walks dst liveDst path short ?_
  rintro ⟨-, index, -, tail, same⟩
  have lengths := congrArg List.length same
  simp at lengths

/-- Two regions of one table, filled one after the other, are filled together. -/
theorem Filled.append (liveDst : dst ∈ roots) (short : path.length ≤ 3) {middleFree : List Nat}
    (one : Filled alloc middle roots free managed dst path first usedFirst middleFree)
    (two : Filled middle after roots middleFree managed dst path region used rest) :
    Filled alloc after roots free managed dst path (first ∪ region) (usedFirst ++ used) rest := by
  -- The first half leaves the table itself where it was.
  have sameTable := one.table_walk liveDst short
  refine ⟨?_, two.owned, two.total.trans one.total, ?_, ?_, ?_⟩
  · rw [one.free_eq, two.free_eq, List.append_assoc]
  · -- A path outside both regions is changed by neither half.
    intro owner live other shortOther elsewhere
    rw [two.walks owner live other shortOther, one.walks owner live other shortOther]
    · rintro ⟨rfl, index, inside, tail, rfl⟩
      exact elsewhere ⟨rfl, index, Or.inl inside, tail, rfl⟩
    · rintro ⟨rfl, index, inside, tail, rfl⟩
      exact elsewhere ⟨rfl, index, Or.inr inside, tail, rfl⟩
  · -- So is an entry outside both.
    intro table reached index outside
    rw [two.entries table (sameTable.trans reached) index fun inside => outside (Or.inr inside),
      one.entries table reached index fun inside => outside (Or.inl inside)]
  · -- A frame that no half takes, and that is not the table, keeps its content.
    intro pa member unused notTable address inside
    have still : walk (child middle.mem) dst path ≠ some pa := by
      rw [sameTable]
      exact notTable
    rw [two.kept pa member (fun listed => unused (List.mem_append_right _ listed)) still inside]
    exact one.kept pa member (fun listed => unused (List.mem_append_left _ listed)) notTable inside

/-- Filling below a new entry of a table is filling that entry. -/
theorem Filled.deepen (liveDst : dst ∈ roots)
    (short : path.length < 3) {index : EntryIndex} {pa : Nat} {middleFree : List Nat}
    (one : Filled alloc middle roots free managed dst path {index} [pa] middleFree)
    (hung : walk (child middle.mem) dst (path ++ [index]) = some pa)
    (two : Filled middle after roots middleFree managed dst (path ++ [index]) region used rest) :
    Filled alloc after roots free managed dst path {index} (pa :: used) rest := by
  have deeper : (path ++ [index]).length ≤ 3 := by
    simp only [List.length_append, List.length_singleton]
    omega
  refine ⟨?_, two.owned, two.total.trans one.total, ?_, ?_, ?_⟩
  · rw [one.free_eq, two.free_eq, List.singleton_append, List.cons_append]
  · -- Below the one index, both steps may change what they like.
    intro owner live other shortOther elsewhere
    rw [two.walks owner live other shortOther, one.walks owner live other shortOther elsewhere]
    rintro ⟨rfl, next, -, tail, rfl⟩
    exact elsewhere ⟨rfl, index, rfl, next :: tail, by simp⟩
  · -- The table above the new one is a different frame, so filling the new one leaves it alone.
    intro table reached other outside
    have reachedMiddle := (one.table_walk liveDst (Nat.le_of_lt short)).trans reached
    have apart : ¬ (dst = dst ∧ path = path ++ [index]) := by simp
    have still := two.frame_kept one.owned liveDst deeper liveDst (Nat.le_of_lt short)
      reachedMiddle apart
    rw [entry_congr still other, one.entries table reached other outside]
  · -- The frames that are written are the new table, which the second step may write, and its own.
    intro other member unused notTable address inside
    have distinct : other ≠ pa := fun same => unused (same ▸ List.mem_cons_self)
    have still : walk (child middle.mem) dst (path ++ [index]) ≠ some other := by
      rw [hung]
      exact fun same => distinct (Option.some.inj same).symm
    rw [two.kept other member (fun listed => unused (List.mem_cons_of_mem _ listed)) still inside]
    exact one.kept other member (by simpa using distinct) notTable inside

/-- Copies of two regions of one table, one after the other, are a copy of both. -/
theorem Duplicated.append (owned : Owned alloc roots free managed) (liveSrc : src ∈ roots)
    (liveDst : dst ∈ roots) (distinct : src ≠ dst) (short : path.length ≤ 3)
    {middleFree : List Nat}
    (one : Duplicated alloc middle roots free managed src dst path first usedFirst middleFree)
    (two : Duplicated middle after roots middleFree managed src dst path region used rest)
    (apart : ∀ index ∈ first, index ∉ region) :
    Duplicated alloc after roots free managed src dst path (first ∪ region) (usedFirst ++ used)
      rest := by
  -- A path into the first region is no path into the second.
  have crossing : ∀ index ∈ first, ∀ tail,
      ¬ (dst = dst ∧ ∃ other ∈ region, ∃ rest, path ++ index :: tail = path ++ other :: rest) := by
    rintro index inside tail ⟨-, other, insideOther, rest, same⟩
    obtain ⟨rfl, -⟩ := List.cons.inj (List.append_cancel_left same)
    exact apart index inside insideOther
  refine ⟨one.toFilled.append liveDst short two.toFilled, ?_, ?_⟩
  · -- The attributes of either half survive the other half.
    rintro index (inside | inside) tail shortTail
    · rw [two.attributes_kept one.owned liveDst short liveDst shortTail (crossing index inside tail)]
      exact one.attributes_eq index inside tail shortTail
    · rw [two.attributes_eq index inside tail shortTail]
      exact one.attributes_kept owned liveDst short liveSrc shortTail fun same => distinct same.1
  · -- So do the contents of the pages.
    rintro index (inside | inside) tail full pa copied source target offset within
    · -- The copied leaf was there before the second copy, which does not write it.
      rw [two.walks dst liveDst _ (Nat.le_of_eq full) (crossing index inside tail)] at target
      have longer : ¬ (dst = dst ∧ path ++ index :: tail = path) := by simp
      have still := two.frame_kept one.owned liveDst short liveDst (Nat.le_of_eq full) target longer
      rw [still (by simp only [frame, block, Set.mem_Ico]; omega)]
      exact one.content index inside tail full pa copied source target offset within
    · -- The source leaf was not written by the first copy.
      have still := one.frame_kept owned liveDst short liveSrc (Nat.le_of_eq full) source
        fun same => distinct same.1
      rw [← one.walks src liveSrc _ (Nat.le_of_eq full) fun same => distinct same.1] at source
      rw [two.content index inside tail full pa copied source target offset within]
      exact still (by simp only [frame, block, Set.mem_Ico]; omega)

/-- A copy below a new entry, whose attributes are those of the source, is a copy of that entry. -/
theorem Duplicated.deepen (owned : Owned alloc roots free managed) (liveSrc : src ∈ roots)
    (liveDst : dst ∈ roots) (distinct : src ≠ dst) (short : path.length < 2) {index : EntryIndex}
    {pa : Nat} {middleFree : List Nat}
    (one : Filled alloc middle roots free managed dst path {index} [pa] middleFree)
    (hung : walk (child middle.mem) dst (path ++ [index]) = some pa)
    (flags : attributes middle.mem dst (path ++ [index]) = attributes alloc.mem src (path ++ [index]))
    (two : Duplicated middle after roots middleFree managed src dst (path ++ [index]) Set.univ used
      rest) :
    Duplicated alloc after roots free managed src dst path {index} (pa :: used) rest := by
  have bound : path.length ≤ 3 := by omega
  have deeper : (path ++ [index]).length ≤ 3 := by
    simp only [List.length_append, List.length_singleton]
    omega
  refine ⟨one.deepen liveDst (by omega) hung two.toFilled, ?_, ?_⟩
  · -- At the index itself, the entry repeats the flags; below it, the recursion has copied.
    rintro other rfl tail shortTail
    cases tail with
    | nil =>
      rw [two.attributes_kept one.owned liveDst deeper liveDst deeper (by simp)]
      exact flags
    | cons next tail =>
      have inside := two.attributes_eq next (Set.mem_univ _) tail (by simpa using shortTail)
      rw [List.append_assoc, List.singleton_append] at inside
      rw [inside]
      exact one.attributes_kept owned liveDst bound liveSrc shortTail fun same => distinct same.1
  · -- No page is reached with an index of a table alone.
    rintro other rfl tail full copiedFrom copied source target offset within
    cases tail with
    | nil => simp only [List.length_append, List.length_singleton] at full; omega
    | cons next tail =>
      -- The source has not been written by the step that hung the new table in.
      have still := one.frame_kept owned liveDst bound liveSrc (Nat.le_of_eq full) source
        fun same => distinct same.1
      rw [← one.walks src liveSrc _ (Nat.le_of_eq full) fun same => distinct same.1] at source
      have inside := two.content next (Set.mem_univ _) tail (by simpa using full) copiedFrom copied
        (by rw [List.append_assoc, List.singleton_append]; exact source)
        (by rw [List.append_assoc, List.singleton_append]; exact target) offset within
      rw [inside]
      exact still (by simp only [frame, block, Set.mem_Ico]; omega)

/-- What a copy leads to is led to by the source. -/
theorem Duplicated.repeats
    (step : Duplicated alloc after roots free managed src dst path region used rest)
    {index : EntryIndex} (inside : index ∈ region) {tail : List EntryIndex}
    (short : (path ++ index :: tail).length ≤ 3)
    (found : (walk (child after.mem) dst (path ++ index :: tail)).isSome) :
    (walk (child alloc.mem) src (path ++ index :: tail)).isSome := by
  rw [← attributes_isSome (by simp)] at found ⊢
  rw [← step.attributes_eq index inside tail short]
  exact found

/-- A failure after a partial copy is a failure of the whole. -/
theorem DuplicateFailed.prepend (owned : Owned alloc roots free managed) (liveSrc : src ∈ roots)
    (liveDst : dst ∈ roots) (distinct : src ≠ dst) (short : path.length < 3)
    {middleFree : List Nat}
    (one : Filled alloc middle roots free managed dst path first usedFirst middleFree)
    (repeats : ∀ index ∈ first, ∀ tail, (path ++ index :: tail).length ≤ 3 →
      (walk (child middle.mem) dst (path ++ index :: tail)).isSome →
      (walk (child alloc.mem) src (path ++ index :: tail)).isSome)
    (two : DuplicateFailed middle after roots middleFree managed src dst) :
    DuplicateFailed alloc after roots free managed src dst := by
  -- What failed in the second half had the first half as its source.
  have source : ∀ other : List EntryIndex, other.length ≤ 3 →
      walk (child middle.mem) src other = walk (child alloc.mem) src other :=
    fun other bound => one.walks src liveSrc other bound fun same => distinct same.1
  refine ⟨two.owned, two.total.trans one.total, ?_, ?_, ?_, ?_⟩
  · -- Other address spaces are changed by neither.
    intro owner live another other bound
    rw [two.walks owner live another other bound]
    exact one.walks owner live other bound fun same => another same.1
  · intro other bound found
    rcases two.contained other bound found with target | reached
    · by_cases inside : ∃ index ∈ first, ∃ tail, other = path ++ index :: tail
      · -- Inside the copied region the target repeats the source.
        obtain ⟨index, member, tail, rfl⟩ := inside
        exact Or.inr (repeats index member tail bound target)
      · left
        rw [← one.walks dst liveDst other bound fun same => inside same.2]
        exact target
    · right
      rw [← source other bound]
      exact reached
  · -- What is missing in the end was missing from the source.
    obtain ⟨other, bound, absent, present⟩ := two.missing
    exact ⟨other, bound, absent, source other bound ▸ present⟩
  · intro pa member notFree notNode address inside
    have free_eq := one.free_eq
    -- An old frame that was in no place of the target is in none after the first copy.
    have outside : pa ∉ nodes (child middle.mem) 3 dst := by
      rintro ⟨other, bound, reached⟩
      rcases (owned.cover pa).mp member with listed | ⟨owner, live, rest, shortRest, place⟩
      · exact absurd listed notFree
      · have another : owner ≠ dst := by
          rintro rfl
          exact notNode ⟨rest, shortRest, place⟩
        rw [← one.walks owner live rest shortRest fun same => another same.1] at place
        exact another (one.owned.separate live liveDst shortRest bound place reached).1
    rw [two.kept pa member (fun listed => notFree (by simp [free_eq, listed])) outside inside]
    exact one.kept pa member (fun listed => notFree (by simp [free_eq, listed]))
      (fun reached => notNode ⟨path, Nat.le_of_lt short, reached⟩) inside

end Compose

section Entries

variable {alloc : PageAllocator} {roots : Set Nat} {free rest : List Nat} {managed : Set Nat}
  {src dst srcTable dstTable : Nat} {path : List EntryIndex} {index : EntryIndex}

/--
A fresh frame is hung into an empty entry of the target, with attribute bits of the source.

The frame has its final content already: a leaf holds a copy, and a table holds zeros.
-/
theorem Owned.hang {pa : Nat} (owned : Owned alloc roots (pa :: rest) managed)
    (live : dst ∈ roots) (short : path.length < 3)
    (reached : walk (child alloc.mem) dst path = some dstTable)
    (vacant : child alloc.mem dstTable index = none) {value : Nat} (valid : IsValid value)
    (content : Mem) (outside : ∀ address ∉ frame pa, content address = alloc.mem address)
    (inside : path.length = 2 ∨ ∀ address ∈ frame pa, content address = 0) :
    ∃ popped, getFreeFramePa alloc = some (pa, popped) ∧ popped.mem = alloc.mem ∧
      Filled alloc
        { popped with mem := setEntry content dstTable index (pa ||| (value &&& flagsMask)) }
        roots (pa :: rest) managed dst path {index} [pa] rest ∧
      walk (child (setEntry content dstTable index (pa ||| (value &&& flagsMask)))) dst
        (path ++ [index]) = some pa ∧
      attributes (setEntry content dstTable index (pa ||| (value &&& flagsMask))) dst
        (path ++ [index]) = some (value &&& flagsMask) ∧
      Set.EqOn (setEntry content dstTable index (pa ||| (value &&& flagsMask))) content
        (frame pa) := by
  obtain ⟨popped, pop, mem, total, ownedRest, isFrame, member⟩ := owned.pop
  have tableMember := owned.node_managed live (node_of_walk (Nat.le_of_lt short) reached)
  have isTable := owned.frames dstTable tableMember
  -- The frame was free, so it is not the table.
  have apart : dstTable ≠ pa := by
    rintro rfl
    exact owned.apart dst live dstTable (node_of_walk (Nat.le_of_lt short) reached) (by simp)
  generalize nextEq : setEntry content dstTable index (pa ||| (value &&& flagsMask)) = next
  -- Inside the frame the entry is not written, since the table is another frame.
  have same : Set.EqOn next content (frame pa) := by
    intro address within
    rw [← nextEq]
    exact setEntry_outside _ _ _ (frame_disjoint isFrame isTable apart.symm within)
  obtain ⟨attached, walks⟩ := ownedRest.attach live short (mem ▸ reached) (mem ▸ vacant) isFrame
    (fun stray => stray.2 rfl) (flags_valid valid) (flags_address value) (flags_lt value) next
    (fun address beyond => by
      rw [← nextEq, mem]
      exact setEntry_congr (outside address beyond) dstTable index _)
    (inside.imp_right fun zero address within => (same within).trans (zero address within))
  -- The frame that was taken from the free list is still managed.
  rw [Set.insert_sdiff_self_of_mem member] at attached
  have hung := walks dst live (path ++ [index]) (by simp; omega)
  rw [if_pos ⟨rfl, rfl⟩] at hung
  have still := walks dst live path (Nat.le_of_lt short)
  rw [if_neg (by simp), mem, reached] at still
  -- Only one entry of the table is written, and the frame does not lie in the table.
  have written : entry next dstTable index = pa ||| (value &&& flagsMask) := by
    rw [← nextEq]
    exact entry_setEntry _ _ _ (pointer_lt isFrame (flags_lt value))
  have tableKept : ∀ other ≠ index, entry next dstTable other = entry alloc.mem dstTable other := by
    intro other distinct
    rw [← nextEq, entry_setEntry_of_ne _ _ _ distinct]
    exact entry_congr (fun address within =>
      outside address (frame_disjoint isTable isFrame apart within)) other
  refine ⟨popped, pop, mem, ⟨rfl, attached, total, ?_, ?_, ?_⟩, hung, ?_, same⟩
  · -- No path leads through the entry but the new one.
    intro owner liveOwner other shortOther elsewhere
    rw [walks owner liveOwner other shortOther, if_neg, mem]
    rintro ⟨rfl, rfl⟩
    exact elsewhere ⟨rfl, index, rfl, [], rfl⟩
  · intro table reachedTable other distinct
    rw [reached] at reachedTable
    obtain rfl := Option.some.inj reachedTable
    exact tableKept other distinct
  · -- A frame other than these two is not written.
    intro other memberOther unused notTable address within
    have isOther := owned.frames other memberOther
    have distinct : other ≠ pa := by simpa using unused
    have another : other ≠ dstTable := by
      rintro rfl
      exact notTable reached
    have unwritten : next address = content address := by
      rw [← nextEq]
      exact setEntry_outside _ _ _ (frame_disjoint isOther isTable another within)
    exact unwritten.trans (outside address (frame_disjoint isOther isFrame distinct within))
  · rw [attributes_snoc, still, Option.bind_some, written,
      if_pos (pointer_valid isFrame (flags_valid valid)), pointer_flags isFrame value]

/-- An entry whose source is invalid is copied by leaving the target empty. -/
theorem Owned.duplicate_invalid (owned : Owned alloc roots free managed)
    (reachedSrc : walk (child alloc.mem) src path = some srcTable)
    (reachedDst : walk (child alloc.mem) dst path = some dstTable)
    (vacant : child alloc.mem dstTable index = none)
    (invalid : ¬ IsValid (entry alloc.mem srcTable index)) :
    Duplicated alloc alloc roots free managed src dst path {index} [] free := by
  -- An entry that is not valid leads nowhere, in the source and in the target.
  have absent : child alloc.mem srcTable index = none := child_eq_none.mpr invalid
  have nowhere : ∀ root table, walk (child alloc.mem) root path = some table →
      child alloc.mem table index = none → ∀ tail,
      walk (child alloc.mem) root (path ++ index :: tail) = none := by
    intro root table reached none tail
    simp [walk_append, reached, none]
  refine ⟨⟨rfl, owned, rfl, fun _ _ _ _ _ => rfl, fun _ _ _ _ => rfl, fun _ _ _ _ _ _ => rfl⟩,
    ?_, ?_⟩
  · rintro other rfl tail -
    rw [attributes_none (nowhere src srcTable reachedSrc absent tail),
      attributes_none (nowhere dst dstTable reachedDst vacant tail)]
  · rintro other rfl tail - pa copied source
    rw [nowhere src srcTable reachedSrc absent tail] at source
    cases source

/-- A copy that finds no free frame for a valid entry fails without a further change. -/
theorem Owned.duplicate_exhausted (owned : Owned alloc roots [] managed) (short : path.length < 3)
    (reachedSrc : walk (child alloc.mem) src path = some srcTable)
    (reachedDst : walk (child alloc.mem) dst path = some dstTable)
    (vacant : child alloc.mem dstTable index = none)
    (valid : IsValid (entry alloc.mem srcTable index)) :
    DuplicateFailed alloc alloc roots [] managed src dst := by
  refine ⟨owned, rfl, fun _ _ _ _ _ => rfl, fun _ _ found => Or.inl found, ?_,
    fun _ _ _ _ _ _ => rfl⟩
  refine ⟨path ++ [index], by simp; omega, ?_, ?_⟩
  · rw [walk_snoc, reachedDst]
    exact vacant
  · rw [walk_snoc, reachedSrc, Option.bind_some, child_of_valid valid]
    rfl

/-- What copying an entry must achieve, for the entries of one table. -/
def CopiesEntry (recurse : Nat → Nat → PageAllocator → Except String Unit × PageAllocator)
    (isLeafTable : Bool) (roots managed : Set Nat) (src dst : Nat) (path : List EntryIndex) : Prop :=
  ∀ alloc free srcTable dstTable index, Owned alloc roots free managed →
    walk (child alloc.mem) src path = some srcTable →
    walk (child alloc.mem) dst path = some dstTable → child alloc.mem dstTable index = none →
    Loop.Outcome
      (fun _ after => ∃ used rest,
        Duplicated alloc after roots free managed src dst path {index} used rest)
      (fun _ after => DuplicateFailed alloc after roots free managed src dst)
      (duplicateEntry recurse isLeafTable srcTable dstTable index alloc)

/-- What copying a whole table must achieve, for the tables at one height. -/
def CopiesTable (recurse : Nat → Nat → PageAllocator → Except String Unit × PageAllocator)
    (roots managed : Set Nat) (src dst : Nat) (path : List EntryIndex) : Prop :=
  ∀ alloc free srcTable dstTable, Owned alloc roots free managed →
    walk (child alloc.mem) src path = some srcTable →
    walk (child alloc.mem) dst path = some dstTable →
    (∀ index, child alloc.mem dstTable index = none) →
    Loop.Outcome
      (fun _ after => ∃ used rest,
        Duplicated alloc after roots free managed src dst path Set.univ used rest)
      (fun _ after => DuplicateFailed alloc after roots free managed src dst)
      (recurse srcTable dstTable alloc)

/-- An entry of a leaf table is copied with its frame. -/
theorem duplicateEntry_leaf
    (recurse : Nat → Nat → PageAllocator → Except String Unit × PageAllocator)
    (liveDst : dst ∈ roots) (deep : path.length = 2) :
    CopiesEntry recurse true roots managed src dst path := by
  intro alloc free srcTable dstTable index owned reachedSrc reachedDst vacant
  unfold duplicateEntry
  by_cases valid : IsValid (entry alloc.mem srcTable index)
  · -- A valid entry is copied with its page, unless no frame is left for the copy.
    simp only [valid, if_true, not_true_eq_false, if_false]
    cases free with
    | nil =>
      rw [owned.pop_nil]
      exact .failed (owned.duplicate_exhausted (by omega) reachedSrc reachedDst vacant valid)
    | cons pa rest =>
      generalize leafEq : entry alloc.mem srcTable index &&& addressMask = leaf
      have found : walk (child alloc.mem) src (path ++ [index]) = some leaf := by
        rw [walk_snoc, reachedSrc, Option.bind_some, child_of_valid valid, leafEq]
      obtain ⟨popped, pop, mem, filled, hung, flags, same⟩ := owned.hang liveDst (by omega)
        reachedDst vacant valid (copy alloc.mem leaf pa 4096)
        (fun address outside => copy_outside alloc.mem leaf pa 4096 outside)
        (Or.inl deep)
      rw [pop]
      simp only [mem]
      refine .done ⟨[pa], rest, filled, ?_, ?_⟩
      · -- No path goes on below a page.
        rintro other rfl tail bound
        have ending : tail = [] := List.length_eq_zero_iff.mp (by simp at bound; omega)
        subst ending
        rw [flags, attributes_snoc, reachedSrc, Option.bind_some, if_pos valid]
      · -- The page itself is copied byte by byte.
        rintro other rfl tail full copiedFrom copied source target offset within
        have ending : tail = [] := List.length_eq_zero_iff.mp (by simp at full; omega)
        subst ending
        rw [hung] at target
        rw [found] at source
        obtain rfl := Option.some.inj target
        obtain rfl := Option.some.inj source
        have inside : pa + offset ∈ frame pa := by
          simp only [frame, block, Set.mem_Ico]
          omega
        exact (same inside).trans (copy_inside alloc.mem leaf pa 4096 within)
  · -- An entry that is not valid costs nothing.
    simp only [valid, if_false]
    exact .done ⟨[], free, owned.duplicate_invalid reachedSrc reachedDst vacant valid⟩

/-- An entry of an upper table is copied with the tree below it. -/
theorem duplicateEntry_table
    {recurse : Nat → Nat → PageAllocator → Except String Unit × PageAllocator}
    (liveSrc : src ∈ roots) (liveDst : dst ∈ roots) (distinct : src ≠ dst) (short : path.length < 2)
    (below : ∀ index, CopiesTable recurse roots managed src dst (path ++ [index])) :
    CopiesEntry recurse false roots managed src dst path := by
  intro alloc free srcTable dstTable index owned reachedSrc reachedDst vacant
  unfold duplicateEntry
  by_cases valid : IsValid (entry alloc.mem srcTable index)
  · simp only [valid, if_true, Bool.false_eq_true, not_false_eq_true]
    cases free with
    | nil =>
      rw [owned.pop_nil]
      exact .failed (owned.duplicate_exhausted (by omega) reachedSrc reachedDst vacant valid)
    | cons pa rest =>
      generalize nextEq : entry alloc.mem srcTable index &&& addressMask = next
      have found : walk (child alloc.mem) src (path ++ [index]) = some next := by
        rw [walk_snoc, reachedSrc, Option.bind_some, child_of_valid valid, nextEq]
      obtain ⟨popped, pop, mem, filled, hung, flags, same⟩ := owned.hang liveDst (by omega)
        reachedDst vacant valid (fill alloc.mem pa 4096 0)
        (fun address outside => fill_outside alloc.mem pa 4096 0 outside)
        (Or.inr fun address inside => fill_inside alloc.mem pa 4096 0 inside)
      have sameFlags : attributes (setEntry (fill alloc.mem pa 4096 0) dstTable index
            (pa ||| (entry alloc.mem srcTable index &&& flagsMask))) dst (path ++ [index]) =
          attributes alloc.mem src (path ++ [index]) := by
        rw [flags, attributes_snoc, reachedSrc, Option.bind_some, if_pos valid]
      rw [pop]
      simp only [mem]
      -- The new table is empty, and the recursion fills it from the table of the source.
      have childless : ∀ other, child (setEntry (fill alloc.mem pa 4096 0) dstTable index
          (pa ||| (entry alloc.mem srcTable index &&& flagsMask))) pa other = none :=
        child_zero fun address inside =>
          (same inside).trans (fill_inside alloc.mem pa 4096 0 inside)
      have source := filled.walks src liveSrc (path ++ [index]) (by simp; omega)
        fun same => distinct same.1
      have step := below index _ rest next pa filled.owned (source.trans found) hung childless
      -- The copy of the entry is complete, or something below it failed.
      refine step.imp ?_ fun error after failed => ?_
      · rintro - after ⟨used, rest, copied⟩
        exact ⟨pa :: used, rest,
          Duplicated.deepen owned liveSrc liveDst distinct short filled hung sameFlags copied⟩
      · refine DuplicateFailed.prepend owned liveSrc liveDst distinct (by omega) filled ?_ failed
        -- The new table leads nowhere yet, and it stands where the source has a table.
        rintro other rfl tail bound reached
        cases tail with
        | nil =>
          rw [found]
          rfl
        | cons first tail =>
          have deeper : path ++ other :: first :: tail = path ++ [other] ++ (first :: tail) := by simp
          rw [deeper, walk_append, hung, Option.bind_some,
            walk_childless childless (by simp)] at reached
          cases reached
  · simp only [valid, if_false]
    exact .done ⟨[], free, owned.duplicate_invalid reachedSrc reachedDst vacant valid⟩

/-- Entry after entry, a whole table is copied. -/
theorem forEach_duplicateEntry
    {recurse : Nat → Nat → PageAllocator → Except String Unit × PageAllocator} {isLeafTable : Bool}
    (liveSrc : src ∈ roots) (liveDst : dst ∈ roots) (distinct : src ≠ dst) (short : path.length < 3)
    (copies : CopiesEntry recurse isLeafTable roots managed src dst path)
    {indices : List EntryIndex} (nodup : indices.Nodup) (complete : ∀ index, index ∈ indices) :
    CopiesTable (fun srcTable dstTable => Loop.forEach
      (duplicateEntry recurse isLeafTable srcTable dstTable) indices)
      roots managed src dst path := by
  intro alloc free srcTable dstTable owned reachedSrc reachedDst childless
  have bound : path.length ≤ 3 := Nat.le_of_lt short
  have everything : { index : EntryIndex | index ∉ [] } = Set.univ := by
    ext index
    simp
  -- Each pass finds the source as it was, and its entry of the target still empty.
  have pass : ∀ index ahead state, (index :: ahead).Nodup →
      (∃ used rest, Duplicated alloc state roots free managed src dst path
        { other | other ∉ index :: ahead } used rest) →
      Loop.Outcome
        (fun _ after => ∃ used rest, Duplicated alloc after roots free managed src dst path
          { other | other ∉ ahead } used rest)
        (fun _ after => DuplicateFailed alloc after roots free managed src dst)
        (duplicateEntry recurse isLeafTable srcTable dstTable index state) := by
    -- What is still to be copied is vacant in the target.
    rintro index ahead state nodup ⟨used, rest, copied⟩
    have source := copied.walks src liveSrc path bound fun same => distinct same.1
    have target := (copied.table_walk liveDst bound).trans reachedDst
    have vacant : child state.mem dstTable index = none := by
      rw [child_eq_none, copied.entries dstTable reachedDst index (by simp), ← child_eq_none]
      exact childless index
    have step := copies state rest srcTable dstTable index copied.owned
      (source.trans reachedSrc) target vacant
    refine step.imp ?_ fun error after failed => ?_
    · -- A pass that goes through adds its own entry to those that have been copied.
      rintro - after ⟨usedNow, restNow, now⟩
      refine ⟨used ++ usedNow, restNow, ?_⟩
      rw [behind_cons nodup, ← Set.union_singleton]
      refine copied.append owned liveSrc liveDst distinct bound now ?_
      rintro other behind rfl
      simp at behind
    · -- A pass that fails leaves the entries before it as parts of the failed copy.
      exact failed.prepend owned liveSrc liveDst distinct short copied.toFilled
        fun other inside tail => copied.repeats inside
  -- So the loop copies all entries, or fails at one of them.
  have loop := Loop.forEach_rule (duplicateEntry recurse isLeafTable srcTable dstTable)
    (fun ahead state => ahead.Nodup ∧ ∃ used rest, Duplicated alloc state roots free managed src dst
      path { index | index ∉ ahead } used rest)
    (fun _ state => DuplicateFailed alloc state roots free managed src dst)
    (fun index ahead state before => (pass index ahead state before.1 before.2).imp
      (fun _ after step => ⟨(List.nodup_cons.mp before.1).2, step⟩) fun _ _ failed => failed)
    indices alloc ⟨nodup, [], free,
      ⟨rfl, owned, rfl, fun _ _ _ _ _ => rfl, fun _ _ _ _ => rfl, fun _ _ _ _ _ _ => rfl⟩,
      fun index behind => absurd (complete index) behind,
      fun index behind => absurd (complete index) behind⟩
  rw [everything] at loop
  exact loop.imp (fun _ after copied => copied.2) fun _ _ failed => failed

/-- One level of the recursion is the loop over the entries of a table. -/
theorem doDuplicateTableRecursive_succ (height : Nat) :
    ∃ indices : List EntryIndex, indices.Nodup ∧ (∀ index, index ∈ indices) ∧
      doDuplicateTableRecursive (height + 1) = fun srcTable dstTable =>
        Loop.forEach (duplicateEntry (doDuplicateTableRecursive height) (height == 0) srcTable
          dstTable) indices := by
  refine ⟨List.finRange 512, List.nodup_finRange 512, List.mem_finRange, ?_⟩
  funext srcTable dstTable alloc
  rw [doDuplicateTableRecursive]

/-- `do_duplicate_table_recursive` copies the tree below an empty table, or runs out of frames. -/
theorem doDuplicateTableRecursive_spec (liveSrc : src ∈ roots) (liveDst : dst ∈ roots)
    (distinct : src ≠ dst) (height : Nat) : ∀ path : List EntryIndex, path.length + height = 2 →
    CopiesTable (doDuplicateTableRecursive (height + 1)) roots managed src dst path := by
  -- The induction is on the height above the leaf tables.
  induction height with
  -- The entries of the last tables point to pages.
  | zero =>
    intro path level
    obtain ⟨indices, nodup, complete, loop⟩ := doDuplicateTableRecursive_succ 0
    rw [loop]
    have entries : CopiesEntry (doDuplicateTableRecursive 0) (0 == 0) roots managed src dst path :=
      duplicateEntry_leaf _ liveDst level
    exact forEach_duplicateEntry liveSrc liveDst distinct (by omega) entries nodup complete
  | succ height ih =>
    intro path level
    obtain ⟨indices, nodup, complete, loop⟩ := doDuplicateTableRecursive_succ (height + 1)
    rw [loop]
    -- The entries above them point to tables, which the recursion copies.
    have below : ∀ index, CopiesTable (doDuplicateTableRecursive (height + 1)) roots managed src dst
        (path ++ [index]) := fun index => ih (path ++ [index]) (by
      simp only [List.length_append, List.length_singleton]
      omega)
    have entries : CopiesEntry (doDuplicateTableRecursive (height + 1)) (height + 1 == 0) roots
        managed src dst path :=
      duplicateEntry_table liveSrc liveDst distinct (by omega) below
    exact forEach_duplicateEntry liveSrc liveDst distinct (by omega) entries nodup complete

end Entries

end AtOS
