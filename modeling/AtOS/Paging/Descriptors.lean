import AtOS.Paging.Kept

/-! The entries of the tables, valid or not: which ones an operation writes, and what it writes. -/

namespace AtOS

open ByteMemory RadixForest

/-- The attribute bits of a valid entry: those of a page in the last table, and `0b11` above it. -/
def entryFlags (depth : Nat) : Nat := if depth = 2 then leafFlags else 0b11

/-- An entry as the allocator leaves it, in a table that is so many steps below its root. -/
inductive EntryFormed (depth value : Nat) : Prop where
  | pointer (valid : IsValid value) (flags : value &&& flagsMask = entryFlags depth)
  | vacant (clear : value % 2 = 0)
  /-- A new root is not cleared, so its first word may be the tag of the link that was there. -/
  | leftover (first : depth = 0) (tag : value = 1)

/--
The entries of some address spaces are as the allocator leaves them.

The predicate picks, for each root, the entries of its first table that this is said of, with all
that is below them.
-/
def Formed (may : Nat → EntryIndex → Prop) (roots : Set Nat) (mem : Mem) : Prop :=
  ∀ root ∈ roots, ∀ path : List EntryIndex, path.length < 3 → ∀ table,
    walk (child mem) root path = some table → ∀ index, may root (path.headD index) →
      EntryFormed path.length (entry mem table index)

/-- Every entry is as it was, or it is one that may change and is left as the allocator does it. -/
def Edited (may : Nat → EntryIndex → Prop) (roots : Set Nat) (before after : Mem) : Prop :=
  ∀ root ∈ roots, ∀ path : List EntryIndex, path.length < 3 → ∀ table,
    walk (child after) root path = some table → ∀ index,
      walk (child before) root path = some table ∧
          entry after table index = entry before table index ∨
        may root (path.headD index) ∧ EntryFormed path.length (entry after table index)

section Edited

variable {may : Nat → EntryIndex → Prop} {roots fewer : Set Nat} {before middle after : Mem}

/-- Fewer address spaces are well formed if more are. -/
theorem Formed.mono (formed : Formed may roots before) (subset : fewer ⊆ roots) :
    Formed may fewer before := fun root live => formed root (subset live)

/-- Fewer address spaces are edited properly if more are. -/
theorem Edited.mono (edited : Edited may roots before after) (subset : fewer ⊆ roots) :
    Edited may fewer before after := fun root live => edited root (subset live)

/-- Changing nothing is a proper edit. -/
theorem Edited.refl (may : Nat → EntryIndex → Prop) (roots : Set Nat) (mem : Mem) :
    Edited may roots mem mem := fun _ _ _ _ _ reached _ => Or.inl ⟨reached, rfl⟩

/-- Proper edits compose. -/
theorem Edited.trans (edited : Edited may roots before middle)
    (later : Edited may roots middle after) : Edited may roots before after := by
  intro root live path short table reached index
  rcases later root live path short table reached index with ⟨reachedMiddle, same⟩ | changed
  · rw [same]
    exact edited root live path short table reachedMiddle index
  · exact Or.inr changed

/-- Where the tables are kept, no entry changes. -/
theorem Edited.ofKept (may : Nat → EntryIndex → Prop)
    (kept : ∀ root ∈ roots, ∀ table ∈ tables (child before) 3 root,
      Set.EqOn after before (frame table)) : Edited may roots before after := by
  intro root live path short table reached index
  rw [walk_congr (fun node member => child_congr (kept root live node member)) path
    (Nat.le_of_lt short)] at reached
  exact Or.inl ⟨reached, entry_congr (kept root live table ⟨path, short, reached⟩) index⟩

/-- What is left as the allocator does it stays so. -/
theorem Edited.formed (edited : Edited may roots before after)
    (formed : Formed may roots before) : Formed may roots after := by
  intro root live path short table reached index allowed
  rcases edited root live path short table reached index with ⟨reachedBefore, same⟩ | changed
  · rw [same]
    exact formed root live path short table reachedBefore index allowed
  · exact changed.2

end Edited

section Entries

variable {may : Nat → EntryIndex → Prop} {alloc : PageAllocator} {roots : Set Nat}
  {free : List Nat} {managed : Set Nat} {root table pa : Nat} {path : List EntryIndex}
  {index : EntryIndex}

/-- The first index of a longer path is that of the path. -/
theorem headD_snoc (path : List EntryIndex) (index other : EntryIndex) :
    (path ++ [index]).headD other = path.headD index := by
  cases path <;> rfl

/-- The attribute bits of an entry are those of a valid one, and leave the address alone. -/
theorem entryFlags_spec (depth : Nat) : entryFlags depth &&& 0b11 = 0b11 ∧
    entryFlags depth &&& addressMask = 0 ∧ entryFlags depth < 2 ^ 64 ∧
    entryFlags depth &&& flagsMask = entryFlags depth := by
  unfold entryFlags
  split <;> decide

/-- A frame joined with the attribute bits of its place is an entry as the allocator leaves it. -/
theorem pointer_formed {pa depth : Nat} (isFrame : IsFrame pa) :
    EntryFormed depth (pa ||| entryFlags depth) := by
  obtain ⟨valid, -, -, isolated⟩ := entryFlags_spec depth
  refine .pointer (pointer_valid isFrame valid) ?_
  rw [← isolated]
  exact pointer_flags isFrame _

/-- Hanging a frame into a table changes one entry, and a new table is empty. -/
theorem Owned.attach_edited (owned : Owned alloc roots free managed) (live : root ∈ roots)
    (short : path.length < 3) (reached : walk (child alloc.mem) root path = some table)
    (vacant : child alloc.mem table index = none) (isFrame : IsFrame pa) (stray : pa ∉ managed)
    (allowed : may root (path.headD index)) {next : Mem}
    (elsewhere : ∀ address ∉ frame pa,
      next address = setEntry alloc.mem table index (pa ||| entryFlags path.length) address)
    (content : path.length = 2 ∨ ∀ address ∈ frame pa, next address = 0) :
    Edited may roots alloc.mem next := by
  -- The frame is hung in as in `ensure_table` or `alloc_page`, which fixes all paths.
  obtain ⟨valid, attributes, fits, -⟩ := entryFlags_spec path.length
  have walks := (owned.attach live short reached vacant isFrame stray valid attributes fits next
    elsewhere content).2
  have tableNode := node_of_walk (Nat.le_of_lt short) reached
  have tableManaged := owned.node_managed live tableNode
  have isTable := owned.frames table tableManaged
  -- Any other table either is the new one, or existed before and keeps its entries but for one.
  intro owner liveOwner rest shortRest node reachedRest other
  rw [walks owner liveOwner rest (Nat.le_of_lt shortRest)] at reachedRest
  split at reachedRest
  · -- The new table is empty.
    rename_i here
    obtain ⟨rfl, rfl⟩ := here
    cases reachedRest
    have zero : ∀ address ∈ frame pa, next address = 0 := by
      refine content.resolve_left fun deep => ?_
      rw [List.length_append, List.length_singleton] at shortRest
      omega
    refine Or.inr ⟨?_, ?_⟩
    · rw [headD_snoc]
      exact allowed
    · rw [entry_zero zero]
      exact .vacant rfl
  · -- A table that existed before is not the new frame, so only one entry can differ.
    have member := owned.node_managed liveOwner (node_of_walk (Nat.le_of_lt shortRest) reachedRest)
    have isNode := owned.frames node member
    have apart : node ≠ pa := fun same => stray (same ▸ member)
    have written : entry next node other =
        entry (setEntry alloc.mem table index (pa ||| entryFlags path.length)) node other :=
      entry_congr (fun address inside =>
        elsewhere address (frame_disjoint isNode isFrame apart inside)) other
    by_cases here : owner = root ∧ rest = path
    · obtain ⟨rfl, rfl⟩ := here
      rw [reached] at reachedRest
      cases reachedRest
      by_cases same : other = index
      · -- This is the entry that is written.
        subst other
        rw [written, entry_setEntry _ _ _ (pointer_lt isFrame fits)]
        exact Or.inr ⟨allowed, pointer_formed isFrame⟩
      · rw [written, entry_setEntry_of_ne _ _ _ same]
        exact Or.inl ⟨reached, rfl⟩
    · -- Another table is another frame, and is not written at all.
      have distinct := owned.other_table live short reached liveOwner shortRest reachedRest here
      rw [written]
      refine Or.inl ⟨reachedRest, entry_congr (fun address inside => ?_) other⟩
      exact setEntry_outside _ _ _ (frame_disjoint isNode isTable distinct inside)

/-- Unhooking a page clears one entry. -/
theorem Owned.detach_edited (owned : Owned alloc roots free managed) (live : root ∈ roots)
    (deep : path.length = 2) (reached : walk (child alloc.mem) root path = some table)
    (mapped : child alloc.mem table index = some pa) (allowed : may root (path.headD index)) :
    Edited may roots alloc.mem (setEntry alloc.mem table index 0) := by
  have short : path.length < 3 := by omega
  -- Clearing an entry leaves all tables in place, and only the pages below it vanish.
  have walks := (owned.detach live deep reached mapped).2
  have isTable := owned.node_frame live (node_of_walk (Nat.le_of_lt short) reached)
  intro owner liveOwner rest shortRest node reachedRest other
  rw [walks owner liveOwner rest (Nat.le_of_lt shortRest), if_neg (fun same => by
    rw [same.2, List.length_append, List.length_singleton] at shortRest
    omega)] at reachedRest
  by_cases here : owner = root ∧ rest = path
  · obtain ⟨rfl, rfl⟩ := here
    rw [reached] at reachedRest
    cases reachedRest
    -- The entry of the page is vacant now, and the others are as they were.
    by_cases same : other = index
    · subst other
      rw [entry_setEntry _ _ _ (by decide)]
      exact Or.inr ⟨allowed, .vacant rfl⟩
    · rw [entry_setEntry_of_ne _ _ _ same]
      exact Or.inl ⟨reached, rfl⟩
  · -- Another table is another frame.
    have distinct := owned.other_table live short reached liveOwner shortRest reachedRest here
    have isNode := owned.node_frame liveOwner
      (node_of_walk (Nat.le_of_lt shortRest) reachedRest)
    refine Or.inl ⟨reachedRest, entry_congr (fun address inside => ?_) other⟩
    exact setEntry_outside _ _ _ (frame_disjoint isNode isTable distinct inside)

end Entries

section Operations

variable {may : Nat → EntryIndex → Prop} {alloc after : PageAllocator} {roots : Set Nat}
  {free : List Nat} {managed : Set Nat} {root va pa : Nat}

/-- Hanging in a table changes one entry, or none. -/
theorem ensureTable_edited {path : List EntryIndex} {table : Nat} {index : EntryIndex}
    {message : String} (owned : Owned alloc roots free managed) (live : root ∈ roots)
    (short : path.length < 2) (reached : walk (child alloc.mem) root path = some table)
    (allowed : may root (path.headD index))
    (done : ensureTable table index message alloc = .ok after) :
    Edited may roots alloc.mem after.mem := by
  unfold ensureTable at done
  split at done
  · -- The new table is cleared before it is hung in, so all its entries are vacant.
    rename_i invalid
    cases free with
    | nil => simp [owned.pop_nil] at done
    | cons pa rest =>
      obtain ⟨popped, pop, mem, -, ownedRest, isFrame, -⟩ := owned.pop
      rw [pop] at done
      cases done
      rw [← mem] at reached invalid ⊢
      have flags : entryFlags path.length = 0b11 := if_neg (by omega)
      refine ownedRest.attach_edited live (by omega) reached (child_eq_none.mpr invalid) isFrame
        (fun inside => inside.2 rfl) allowed (fun address outside => ?_)
        (Or.inr fun address inside => fill_inside _ pa 4096 0 inside)
      rw [flags]
      exact fill_outside _ pa 4096 0 outside
  · -- A table that is there already is not edited.
    cases done
    exact .refl may roots _

/-- `alloc_page` changes entries on the path of its page only, and leaves them as it should. -/
theorem allocPage_edited (owned : Owned alloc roots free managed) (live : root ∈ roots)
    (allowed : may root (l1Index va)) (done : allocPage va root alloc = .ok (pa, after)) :
    Edited may roots alloc.mem after.mem := by
  simp only [allocPage, bind, Except.bind, pure, Except.pure, throw, throwThe,
    MonadExceptOf.throw] at done
  split at done
  · cases done
  -- The second-level table is there or is hung in,
  cases first : ensureTable root (l1Index va)
      "No free frames available for new L2 page table" alloc with
  | error panic =>
    rw [first] at done
    cases done
  | ok one =>
    obtain ⟨taken₁, free₁, l2, step₁⟩ := ensureTable_ok [] owned live (by simp) rfl first
    have upper : Edited may roots alloc.mem one.mem :=
      ensureTable_edited owned live (show ([] : List EntryIndex).length < 2 by simp) rfl allowed
        first
    rw [first] at done
    simp only [step₁.address] at done
    have reached₁ : walk (child one.mem) root [l1Index va] = some l2 := by
      rw [step₁.walks root live _ (by simp), if_pos ⟨rfl, rfl⟩]
    -- then the third-level table,
    cases second : ensureTable l2 (l2Index va)
        "No free frames available for new L3 page table" one with
    | error panic =>
      rw [second] at done
      cases done
    | ok two =>
      obtain ⟨taken₂, free₂, l3, step₂⟩ :=
        ensureTable_ok [l1Index va] step₁.owned live (by simp) reached₁ second
      have lower : Edited may roots one.mem two.mem :=
        ensureTable_edited step₁.owned live (by simp) reached₁ allowed second
      rw [second] at done
      simp only [step₂.address] at done
      have reached₂ : walk (child two.mem) root [l1Index va, l2Index va] = some l3 := by
        rw [step₂.walks root live _ (by simp), if_pos ⟨rfl, rfl⟩]
      refine upper.trans (lower.trans ?_)
      -- and the page is hung in last.
      split at done
      · rename_i invalid
        cases free₂ with
        | nil => simp [step₂.owned.pop_nil] at done
        | cons leaf rest =>
          obtain ⟨popped, pop, mem, -, ownedRest, isFrame, -⟩ := step₂.owned.pop
          rw [pop] at done
          cases done
          rw [← mem] at reached₂ invalid ⊢
          exact ownedRest.attach_edited live (by simp) reached₂ (child_eq_none.mpr invalid) isFrame
            (fun inside => inside.2 rfl) allowed (fun _ _ => rfl) (Or.inl rfl)
      · cases done

/-- `free_page` clears the entry of its page. -/
theorem freePage_edited (owned : Owned alloc roots free managed) (live : root ∈ roots)
    (allowed : may root (l1Index va)) :
    Edited may roots alloc.mem (freePage va root alloc).mem := by
  cases mapped : leafOf alloc.mem root va with
  | none =>
    rw [freePage_unmapped mapped]
    exact .refl may roots _
  | some pa =>
    -- First the entry is cleared, and then the frame of the page is pushed.
    obtain ⟨l3, reached, found, result⟩ := freePage_mapped mapped
    have cleared : Edited may roots alloc.mem (setEntry alloc.mem l3 (l3Index va) 0) :=
      owned.detach_edited live rfl reached found allowed
    obtain ⟨detached, -⟩ := owned.detach live rfl reached found
    have isFrame := owned.node_frame live (node_of_walk (by simp) mapped)
    rw [result]
    -- The frame that is pushed is no table any more.
    refine cleared.trans (.ofKept may fun owner liveOwner table member address inside => ?_)
    have inTree := tables_subset_nodes owner member
    refine addFreeFrame_outside _ isFrame (frame_disjoint (detached.node_frame liveOwner inTree)
      isFrame (fun same => ?_) inside)
    exact (detached.node_managed liveOwner inTree).2 same

/-- `copy_to_pages` writes into no table. -/
theorem PagesCopied.edited {src : List UInt8} {dst done : Nat} {result : Except String Unit}
    (copied : PagesCopied alloc after src dst root result done)
    (owned : Owned alloc roots free managed) (live : root ∈ roots) :
    Edited may roots alloc.mem after.mem := by
  refine .ofKept may fun owner liveOwner table member => ?_
  refine copied.kept owned live (owned.node_managed liveOwner (tables_subset_nodes owner member))
    fun path full reached => ?_
  exact owned.separate.leaf_not_table live liveOwner full reached member

/-- What keeps some address spaces changes no entry of them. -/
theorem Kept.edited {before after : Mem} (kept : Kept before after roots) :
    Edited may roots before after := .ofKept may fun _ live => kept.tables live

end Operations

section Duplicating

variable {may : Nat → EntryIndex → Prop} {roots : Set Nat} {managed : Set Nat} {src dst : Nat}
  {path : List EntryIndex}

/-- An entry that is copied has the attribute bits that its place asks for. -/
theorem EntryFormed.flags_eq {depth value : Nat} (formed : EntryFormed depth value)
    (valid : IsValid value) : value &&& flagsMask = entryFlags depth := by
  have low : value % 4 = 3 := by
    have masked := BitMasks.and_low value 2
    simp only [Nat.reducePow, Nat.reduceSub] at masked
    rw [← masked]
    exact valid
  cases formed with
  | pointer _ flags => exact flags
  | vacant clear => omega
  | leftover _ tag => omega

/-- Copying an entry leaves all entries as they should be. -/
def EditsEntry (may : Nat → EntryIndex → Prop)
    (recurse : Nat → Nat → PageAllocator → Except String Unit × PageAllocator)
    (isLeafTable : Bool) (roots managed : Set Nat) (src dst : Nat) (path : List EntryIndex) : Prop :=
  ∀ alloc free srcTable dstTable index after, Owned alloc roots free managed →
    Formed may roots alloc.mem → walk (child alloc.mem) src path = some srcTable →
    walk (child alloc.mem) dst path = some dstTable → child alloc.mem dstTable index = none →
    duplicateEntry recurse isLeafTable srcTable dstTable index alloc = (.ok (), after) →
    Edited may roots alloc.mem after.mem

/-- Copying a whole table does so. -/
def EditsTable (may : Nat → EntryIndex → Prop)
    (recurse : Nat → Nat → PageAllocator → Except String Unit × PageAllocator)
    (roots managed : Set Nat) (src dst : Nat) (path : List EntryIndex) : Prop :=
  ∀ alloc free srcTable dstTable after, Owned alloc roots free managed →
    Formed may roots alloc.mem → walk (child alloc.mem) src path = some srcTable →
    walk (child alloc.mem) dst path = some dstTable →
    (∀ index, child alloc.mem dstTable index = none) →
    recurse srcTable dstTable alloc = (.ok (), after) → Edited may roots alloc.mem after.mem

/-- A frame with its content is hung into the target, with the attribute bits of the source. -/
theorem Owned.hang_edited {alloc : PageAllocator} {rest : List Nat} {srcTable dstTable pa : Nat}
    {index : EntryIndex} (owned : Owned alloc roots (pa :: rest) managed)
    (formed : Formed may roots alloc.mem) (liveSrc : src ∈ roots) (liveDst : dst ∈ roots)
    (maySrc : ∀ index, may src index) (mayDst : ∀ index, may dst index) (short : path.length < 3)
    (reachedSrc : walk (child alloc.mem) src path = some srcTable)
    (reachedDst : walk (child alloc.mem) dst path = some dstTable)
    (vacant : child alloc.mem dstTable index = none)
    (valid : IsValid (entry alloc.mem srcTable index)) {content : Mem}
    (outside : ∀ address ∉ frame pa, content address = alloc.mem address)
    (inside : path.length = 2 ∨ ∀ address ∈ frame pa, content address = 0) :
    Edited may roots alloc.mem (setEntry content dstTable index
      (pa ||| (entry alloc.mem srcTable index &&& flagsMask))) := by
  -- The flags that are copied from a proper entry are those that `alloc_page` would set.
  have flags := (formed src liveSrc path short srcTable reachedSrc index (maySrc _)).flags_eq valid
  obtain ⟨popped, -, mem, -, ownedRest, isFrame, -⟩ := owned.pop
  have isTable := owned.node_frame liveDst (node_of_walk (Nat.le_of_lt short) reachedDst)
  -- The new frame was free, so it is not the table it is hung into.
  have apart : pa ≠ dstTable := by
    rintro rfl
    exact owned.apart dst liveDst pa (node_of_walk (Nat.le_of_lt short) reachedDst) (by simp)
  rw [flags, ← mem]
  refine ownedRest.attach_edited liveDst short (mem ▸ reachedDst) (mem ▸ vacant) isFrame
    (fun stray => stray.2 rfl) (mayDst _) (fun address beyond => ?_)
    (inside.imp_right fun zero address within => ?_)
  · rw [mem]
    exact setEntry_congr (outside address beyond) dstTable index _
  · rw [setEntry_outside _ _ _ (frame_disjoint isFrame isTable apart within)]
    exact zero address within

/-- An entry of a last table, -/
theorem duplicateEntry_leaf_edited
    (recurse : Nat → Nat → PageAllocator → Except String Unit × PageAllocator)
    (liveSrc : src ∈ roots) (liveDst : dst ∈ roots) (maySrc : ∀ index, may src index)
    (mayDst : ∀ index, may dst index) (deep : path.length = 2) :
    EditsEntry may recurse true roots managed src dst path := by
  intro alloc free srcTable dstTable index after owned formed reachedSrc reachedDst vacant done
  unfold duplicateEntry at done
  -- A valid entry is copied with the page it points to, and any other entry is left alone.
  by_cases valid : IsValid (entry alloc.mem srcTable index)
  · simp only [valid, if_true, not_true_eq_false, if_false] at done
    cases free with
    | nil => simp [owned.pop_nil] at done
    | cons pa rest =>
      obtain ⟨popped, pop, mem, -⟩ := owned.pop
      rw [pop] at done
      simp only [mem, Prod.mk.injEq, true_and] at done
      rw [← done]
      exact owned.hang_edited formed liveSrc liveDst maySrc mayDst (by omega) reachedSrc reachedDst
        vacant valid (fun address outside => copy_outside _ _ pa 4096 outside) (Or.inl deep)
  · simp only [valid, if_false, Prod.mk.injEq, true_and] at done
    rw [← done]
    exact .refl may roots _

/-- an entry of an upper table, -/
theorem duplicateEntry_table_edited
    {recurse : Nat → Nat → PageAllocator → Except String Unit × PageAllocator}
    (liveSrc : src ∈ roots) (liveDst : dst ∈ roots) (maySrc : ∀ index, may src index)
    (mayDst : ∀ index, may dst index) (distinct : src ≠ dst) (short : path.length < 2)
    (below : ∀ index, EditsTable may recurse roots managed src dst (path ++ [index])) :
    EditsEntry may recurse false roots managed src dst path := by
  intro alloc free srcTable dstTable index after owned formed reachedSrc reachedDst vacant done
  unfold duplicateEntry at done
  by_cases valid : IsValid (entry alloc.mem srcTable index)
  · -- A new table gets the flags of the old one,
    simp only [valid, if_true, Bool.false_eq_true, not_false_eq_true] at done
    cases free with
    | nil => simp [owned.pop_nil] at done
    | cons pa rest =>
      generalize nextEq : entry alloc.mem srcTable index &&& addressMask = next at done
      have found : walk (child alloc.mem) src (path ++ [index]) = some next := by
        rw [walk_snoc, reachedSrc, Option.bind_some, child_of_valid valid, nextEq]
      obtain ⟨popped, pop, mem, filled, hung, -, same⟩ := owned.hang liveDst (by omega)
        reachedDst vacant valid (fill alloc.mem pa 4096 0)
        (fun address outside => fill_outside alloc.mem pa 4096 0 outside)
        (Or.inr fun address inside => fill_inside alloc.mem pa 4096 0 inside)
      rw [pop] at done
      simp only [mem] at done
      have hooked := owned.hang_edited formed liveSrc liveDst maySrc mayDst (by omega) reachedSrc
        reachedDst vacant valid (fun address outside => fill_outside alloc.mem pa 4096 0 outside)
        (Or.inr fun address inside => fill_inside alloc.mem pa 4096 0 inside)
      -- The new table is empty, and the recursion fills it.
      have source := filled.walks src liveSrc (path ++ [index]) (by simp; omega)
        fun same => distinct same.1
      have childless : ∀ other, child (setEntry (fill alloc.mem pa 4096 0) dstTable index
          (pa ||| (entry alloc.mem srcTable index &&& flagsMask))) pa other = none :=
        child_zero fun address inside =>
          (same inside).trans (fill_inside alloc.mem pa 4096 0 inside)
      have started := hooked.formed formed
      have filling := below index { popped with
        mem := setEntry (fill alloc.mem pa 4096 0) dstTable index
          (pa ||| (entry alloc.mem srcTable index &&& flagsMask)) } rest next pa after filled.owned
        started (source.trans found) hung childless done
      exact hooked.trans filling
  · -- An entry that is not valid is left vacant.
    simp only [valid, if_false, Prod.mk.injEq, true_and] at done
    rw [← done]
    exact .refl may roots _

/-- and entry after entry a whole table. -/
theorem forEach_duplicateEntry_edited
    {recurse : Nat → Nat → PageAllocator → Except String Unit × PageAllocator} {isLeafTable : Bool}
    (liveSrc : src ∈ roots) (liveDst : dst ∈ roots) (distinct : src ≠ dst) (short : path.length < 3)
    (copies : CopiesEntry recurse isLeafTable roots managed src dst path)
    (edits : EditsEntry may recurse isLeafTable roots managed src dst path)
    {indices : List EntryIndex} (nodup : indices.Nodup) {alloc after : PageAllocator}
    {free : List Nat} {srcTable dstTable : Nat} (owned : Owned alloc roots free managed)
    (formed : Formed may roots alloc.mem)
    (reachedSrc : walk (child alloc.mem) src path = some srcTable)
    (reachedDst : walk (child alloc.mem) dst path = some dstTable)
    (childless : ∀ index ∈ indices, child alloc.mem dstTable index = none)
    (done : Loop.forEach (duplicateEntry recurse isLeafTable srcTable dstTable) indices alloc =
      (.ok (), after)) : Edited may roots alloc.mem after.mem := by
  -- The induction is on the entries, with the tables as the pass before left them.
  induction indices generalizing alloc free with
  | nil =>
    cases done
    exact .refl may roots _
  | cons index ahead ih =>
    obtain ⟨notAhead, nodup⟩ := List.nodup_cons.mp nodup
    -- A pass that goes through keeps the account of the frames, and edits properly.
    have step := copies alloc free srcTable dstTable index owned reachedSrc reachedDst
      (childless index List.mem_cons_self)
    have edit := fun after => edits alloc free srcTable dstTable index after owned formed reachedSrc
      reachedDst (childless index List.mem_cons_self)
    rw [Loop.forEach] at done
    cases result : duplicateEntry recurse isLeafTable srcTable dstTable index alloc with
    | mk outcome middle =>
      rw [result] at step edit done
      cases step with
      | failed => cases done
      | done copied =>
        obtain ⟨used, rest, copied⟩ := copied
        have edited : Edited may roots alloc.mem middle.mem := edit middle rfl
        have source := copied.walks src liveSrc path (Nat.le_of_lt short) fun same => distinct same.1
        have target := (copied.table_walk liveDst (Nat.le_of_lt short)).trans reachedDst
        -- The entries that are still to come are empty as before.
        refine edited.trans (ih nodup copied.owned (edited.formed formed)
          (source.trans reachedSrc) target (fun other member => ?_) done)
        rw [child_eq_none, copied.entries dstTable reachedDst other, ← child_eq_none]
        · exact childless other (List.mem_cons_of_mem _ member)
        · rintro rfl
          exact notAhead member

/-- `do_duplicate_table_recursive` leaves all entries as they should be. -/
theorem doDuplicateTableRecursive_edited (liveSrc : src ∈ roots) (liveDst : dst ∈ roots)
    (maySrc : ∀ index, may src index) (mayDst : ∀ index, may dst index) (distinct : src ≠ dst)
    (height : Nat) : ∀ path : List EntryIndex, path.length + height = 2 →
      EditsTable may (doDuplicateTableRecursive (height + 1)) roots managed src dst path := by
  -- The induction is on the height above the last tables.
  induction height with
  -- In the last tables, the entries point to pages.
  | zero =>
    intro path level alloc free srcTable dstTable after owned formed reachedSrc reachedDst childless
      done
    rw [doDuplicateTableRecursive] at done
    exact forEach_duplicateEntry_edited liveSrc liveDst distinct (by omega)
      (duplicateEntry_leaf _ liveDst level)
      (duplicateEntry_leaf_edited _ liveSrc liveDst maySrc mayDst level) (List.nodup_finRange 512)
      owned formed reachedSrc reachedDst (fun index _ => childless index) done
  | succ height ih =>
    intro path level alloc free srcTable dstTable after owned formed reachedSrc reachedDst childless
      done
    -- Above them, the tables that are hung in are filled by the recursion.
    have deeper : ∀ index, (path ++ [index]).length + height = 2 := by
      intro index
      rw [List.length_append, List.length_singleton]
      omega
    rw [doDuplicateTableRecursive] at done
    exact forEach_duplicateEntry_edited liveSrc liveDst distinct (by omega)
      (duplicateEntry_table liveSrc liveDst distinct (by omega) fun index =>
        doDuplicateTableRecursive_spec liveSrc liveDst distinct height _ (deeper index))
      (duplicateEntry_table_edited liveSrc liveDst maySrc mayDst distinct (by omega) fun index =>
        ih _ (deeper index)) (List.nodup_finRange 512)
      owned formed reachedSrc reachedDst (fun index _ => childless index) done

/-- The copy of an address space has all its entries as they should be. -/
theorem duplicateVaSpace_formed {alloc after : PageAllocator} {free : List Nat}
    (owned : Owned alloc roots free managed) (live : src ∈ roots)
    (formed : Formed may roots alloc.mem) (maySrc : ∀ index, may src index)
    (mayDst : ∀ index, may dst index) (done : duplicateVaSpace src alloc = (.ok dst, after)) :
    Formed may (insert dst roots) after.mem := by
  unfold duplicateVaSpace at done
  cases free with
  | nil => simp [owned.pop_nil] at done
  | cons root rest =>
    obtain ⟨popped, pop, root_popped⟩ := owned.popRoot
    rw [pop] at done
    dsimp only at done
    split at done
    · rename_i result copying
      simp only [Prod.mk.injEq, Except.ok.injEq] at done
      obtain ⟨rfl, rfl⟩ := done
      have liveSrc : src ∈ insert root roots := Set.mem_insert_of_mem _ live
      have distinct : src ≠ root := fun same => root_popped.fresh (same ▸ live)
      -- The new root is empty, and the old tables are as they were.
      have started : Formed may (insert root roots) (fill popped.mem root 4096 0) := by
        rintro owner (rfl | liveOwner) path short table reached index allowed
        · cases path with
          | nil =>
            cases reached
            rw [entry_zero fun address inside => fill_inside _ _ 4096 0 inside]
            exact .vacant rfl
          | cons first tail =>
            rw [walk_childless root_popped.childless (by simp)] at reached
            cases reached
        · exact (Edited.ofKept may fun owner liveOwner =>
            root_popped.tables_kept owned liveOwner).formed formed owner liveOwner path short table
              reached index allowed
      -- All three levels are copied from there.
      exact (doDuplicateTableRecursive_edited liveSrc (Set.mem_insert _ _) maySrc mayDst distinct 2
        [] rfl _ rest src root _ root_popped.owned started rfl rfl root_popped.childless
          copying).formed started
    · cases done

end Duplicating

end AtOS
