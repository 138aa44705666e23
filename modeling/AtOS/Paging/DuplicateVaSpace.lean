import AtOS.Paging.DuplicateTable

/-! Copying an address space: `duplicate_va_space` builds a mirror image, or leaves nothing behind. -/

namespace AtOS

open ByteMemory RadixForest

/-- What `duplicate_va_space` leaves behind when it returns a new root. -/
structure SpaceDuplicated (alloc after : PageAllocator) (roots : Set Nat) (free : List Nat)
    (managed : Set Nat) (src dst : Nat) (used rest : List Nat) : Prop where
  free_eq : free = dst :: (used ++ rest)
  owned : Owned after (insert dst roots) rest managed
  total : after.totalFrameCount = alloc.totalFrameCount
  walks : ∀ owner ∈ roots, ∀ path : List EntryIndex, path.length ≤ 3 →
    walk (child after.mem) owner path = walk (child alloc.mem) owner path
  /-- The new tree has the shape and the attribute bits of the source. -/
  attributes_eq : ∀ path : List EntryIndex, path.length ≤ 3 →
    attributes after.mem dst path = attributes alloc.mem src path
  /-- Its leaves have the bytes of the source. -/
  content : ∀ path : List EntryIndex, path.length = 3 → ∀ pa copied,
    walk (child alloc.mem) src path = some pa → walk (child after.mem) dst path = some copied →
    ∀ offset < 4096, after.mem (copied + offset) = alloc.mem (pa + offset)
  kept : ∀ pa ∈ managed, pa ∉ dst :: used → Set.EqOn after.mem alloc.mem (frame pa)

/-- What `duplicate_va_space` leaves behind when it fails. -/
structure SpaceRolledBack (alloc after : PageAllocator) (roots : Set Nat) (free : List Nat)
    (managed : Set Nat) (src : Nat) (rest : List Nat) : Prop where
  owned : Owned after roots rest managed
  same_free : ∀ pa, pa ∈ rest ↔ pa ∈ free
  total : after.totalFrameCount = alloc.totalFrameCount
  walks : ∀ owner ∈ roots, ∀ path : List EntryIndex, path.length ≤ 3 →
    walk (child after.mem) owner path = walk (child alloc.mem) owner path
  kept : ∀ pa ∈ managed, pa ∉ free → Set.EqOn after.mem alloc.mem (frame pa)
  /-- The source owns more frames than were free. -/
  few : free.length < (nodes (child alloc.mem) 3 src).ncard

section DuplicateVaSpace

variable {alloc start after : PageAllocator} {roots : Set Nat} {free rest : List Nat}
  {managed : Set Nat} {src dst : Nat}

/-- The new root before the recursion: a zeroed frame from the free list, with no children. -/
structure RootPopped (alloc start : PageAllocator) (roots : Set Nat) (rest : List Nat)
    (managed : Set Nat) (dst : Nat) : Prop where
  owned : Owned start (insert dst roots) rest managed
  total : start.totalFrameCount = alloc.totalFrameCount
  fresh : dst ∉ roots
  childless : ∀ index, child start.mem dst index = none
  kept : ∀ pa ∈ managed, pa ≠ dst → Set.EqOn start.mem alloc.mem (frame pa)

/-- Popping a frame and zeroing it makes a new root. -/
theorem Owned.popRoot (owned : Owned alloc roots (dst :: rest) managed) :
    ∃ popped, getFreeFramePa alloc = some (dst, popped) ∧
      RootPopped alloc { popped with mem := fill popped.mem dst 4096 0 } roots rest managed dst := by
  obtain ⟨popped, pop, mem, total, ownedRest, isFrame, member⟩ := owned.pop
  -- Only the popped frame is cleared, and it was free.
  have kept : ∀ pa ∈ managed \ {dst},
      Set.EqOn (fill popped.mem dst 4096 0) popped.mem (frame pa) := fun pa inside address within =>
    fill_outside _ dst 4096 0
      (frame_disjoint (owned.frames pa inside.1) isFrame inside.2 within)
  have childless : ∀ index, child (fill popped.mem dst 4096 0) dst index = none :=
    child_zero fun address inside => fill_inside _ dst 4096 0 inside
  -- So it can be a root that owns nothing but itself.
  have adopted := (ownedRest.keep_managed kept).adopt isFrame (fun inside => inside.2 rfl) childless
  rw [Set.insert_sdiff_self_of_mem member] at adopted
  refine ⟨popped, pop, adopted, total, fun live => ?_, childless, fun pa inside distinct => ?_⟩
  · exact owned.apart dst live dst (root_mem_nodes dst) (by simp)
  · have step := kept pa ⟨inside, distinct⟩
    rw [mem] at step
    rw [mem]
    exact step

/-- The trees of the old roots are not touched by popping a new one. -/
theorem RootPopped.tables_kept (popped : RootPopped alloc start roots rest managed dst)
    (owned : Owned alloc roots (dst :: rest) managed) {owner : Nat} (live : owner ∈ roots) :
    ∀ table ∈ tables (child alloc.mem) 3 owner, Set.EqOn start.mem alloc.mem (frame table) := by
  intro table member
  have inside := tables_subset_nodes owner member
  refine popped.kept table (owned.node_managed live inside) ?_
  rintro rfl
  exact owned.apart owner live table inside (by simp)

/-- A complete copy below the new root is a duplicate of the source. -/
theorem RootPopped.duplicated (popped : RootPopped alloc start roots rest managed dst)
    (owned : Owned alloc roots (dst :: rest) managed) (live : src ∈ roots) {used left : List Nat}
    (copied : Duplicated start after (insert dst roots) rest managed src dst [] Set.univ used left) :
    SpaceDuplicated alloc after roots (dst :: rest) managed src dst used left := by
  -- Clearing the new root has left the tables of all others alone.
  have kept := fun owner (liveOwner : owner ∈ roots) => popped.tables_kept owned liveOwner
  refine ⟨by rw [copied.free_eq], copied.owned, copied.total.trans popped.total, ?_, ?_, ?_, ?_⟩
  · intro owner liveOwner path short
    rw [copied.walks owner (Set.mem_insert_of_mem _ liveOwner) path short]
    · exact walk_keep (kept owner liveOwner) short
    · -- The new root is not one of the old roots.
      rintro ⟨rfl, -⟩
      exact popped.fresh liveOwner
  · -- The copy has the attributes of the state it started from, and those are the old ones.
    intro path short
    cases path with
    | nil => simp [attributes]
    | cons index tail =>
      have same := copied.attributes_eq index (Set.mem_univ _) tail short
      rw [List.nil_append] at same
      rw [same]
      exact attributes_congr (kept src live) short
  · -- Likewise its pages have the contents of the source at the start.
    intro path full pa target source reached offset within
    cases path with
    | nil => simp at full
    | cons index tail =>
      have sourceStart : walk (child start.mem) src (index :: tail) = some pa := by
        rw [walk_keep (kept src live) (Nat.le_of_eq full), source]
      have same := copied.content index (Set.mem_univ _) tail full pa target sourceStart reached
        offset within
      have inside : pa ∈ nodes (child alloc.mem) 3 src := node_of_walk (Nat.le_of_eq full) source
      have distinct : pa ≠ dst := by
        rintro rfl
        exact owned.apart src live pa inside (by simp)
      rw [same]
      exact popped.kept pa (owned.node_managed live inside) distinct
        (by simp only [frame, block, Set.mem_Ico]; omega)
  · -- No other frame was written, neither by the copy nor by clearing the new root.
    intro pa member unused address inside
    have distinct : pa ≠ dst := fun same => unused (by simp [same])
    have notTable : walk (child start.mem) dst [] ≠ some pa := fun same =>
      distinct (Option.some.inj same).symm
    rw [copied.kept pa member (fun listed => unused (by simp [listed])) notTable inside]
    exact popped.kept pa member distinct inside

/-- A copy that ran out of frames holds all of them, and is smaller than the source. -/
theorem RootPopped.few (popped : RootPopped alloc start roots rest managed dst)
    (owned : Owned alloc roots (dst :: rest) managed) (live : src ∈ roots)
    (failed : DuplicateFailed start after (insert dst roots) rest managed src dst) :
    (dst :: rest).length < (nodes (child alloc.mem) 3 src).ncard := by
  have liveDst : dst ∈ insert dst roots := Set.mem_insert _ _
  -- All old address spaces are as they were, even though the copy failed.
  have old : ∀ owner ∈ roots, ∀ path : List EntryIndex, path.length ≤ 3 →
      walk (child after.mem) owner path = walk (child alloc.mem) owner path := by
    intro owner liveOwner path short
    rw [failed.walks owner (Set.mem_insert_of_mem _ liveOwner)
      (fun same => popped.fresh (same ▸ liveOwner)) path short]
    exact walk_keep (popped.tables_kept owned liveOwner) short
  have startSource : ∀ path : List EntryIndex, path.length ≤ 3 →
      walk (child start.mem) src path = walk (child alloc.mem) src path :=
    fun path short => walk_keep (popped.tables_kept owned live) short
  -- Every frame that was free is in the partial copy.
  have inside : ∀ pa ∈ dst :: rest, pa ∈ nodes (child after.mem) 3 dst := by
    intro pa listed
    rcases (failed.owned.cover pa).mp (owned.free_managed listed) with none | ⟨owner, place, node⟩
    · simp at none
    · rcases place with rfl | liveOwner
      · -- A frame that was free cannot be in an old address space.
        exact node
      · obtain ⟨path, short, reached⟩ := node
        rw [old owner liveOwner path short] at reached
        exact absurd listed (owned.apart owner liveOwner pa ⟨path, short, reached⟩)
  have held : (dst :: rest).length ≤ (nodes (child after.mem) 3 dst).ncard := by
    rw [← List.toFinset_card_of_nodup owned.nodup, ← Set.ncard_coe_finset]
    refine Set.ncard_le_ncard (fun pa member => inside pa (by simpa using member))
      (nodes_finite dst)
  -- Its places are places of the source, and one place of the source is left out.
  have smaller : places (child after.mem) 3 dst ⊂ places (child alloc.mem) 3 src := by
    refine (Set.ssubset_iff_of_subset ?_).mpr ?_
    · rintro path ⟨short, found⟩
      refine ⟨short, ?_⟩
      rcases failed.contained path short found with there | there
      · cases path with
        | nil => rfl
        | cons index tail => simp [walk_childless popped.childless] at there
      · rw [startSource path short] at there
        exact there
    · -- The place that was to be copied when the frames ran out is missing.
      obtain ⟨path, short, absent, present⟩ := failed.missing
      refine ⟨path, ⟨short, startSource path short ▸ present⟩, ?_⟩
      rintro ⟨-, found⟩
      simp [absent] at found
  -- So the source has more nodes than there were free frames.
  have fewer := Set.ncard_lt_ncard smaller (places_finite src)
  rw [(failed.owned.separate.mono (Set.singleton_subset_iff.mpr liveDst)).ncard_nodes] at held
  rw [(owned.separate.mono (Set.singleton_subset_iff.mpr live)).ncard_nodes]
  omega

/-- Freeing the partial copy restores the free frames and keeps everything else. -/
theorem RootPopped.rolledBack (popped : RootPopped alloc start roots rest managed dst)
    (owned : Owned alloc roots (dst :: rest) managed) (live : src ∈ roots)
    (failed : DuplicateFailed start after (insert dst roots) rest managed src dst) :
    ∃ left, SpaceRolledBack alloc (freePageTable dst after) roots (dst :: rest) managed src left := by
  -- The rollback frees exactly the nodes of the partial copy.
  obtain ⟨freed, gone⟩ := freePageTable_spec failed.owned (Set.mem_insert dst roots)
  have remaining : insert dst roots \ {dst} = roots := Set.insert_sdiff_self_of_notMem popped.fresh
  have ownedAfter := gone.owned
  rw [remaining] at ownedAfter
  -- All other address spaces lead where they led.
  have walks : ∀ owner ∈ roots, ∀ path : List EntryIndex, path.length ≤ 3 →
      walk (child (freePageTable dst after).mem) owner path = walk (child alloc.mem) owner path := by
    intro owner liveOwner path short
    have distinct : owner ≠ dst := fun same => popped.fresh (same ▸ liveOwner)
    rw [gone.walks owner (Set.mem_insert_of_mem _ liveOwner) distinct path short,
      failed.walks owner (Set.mem_insert_of_mem _ liveOwner) distinct path short]
    exact walk_keep (popped.tables_kept owned liveOwner) short
  have sameNodes : ∀ owner ∈ roots, nodes (child (freePageTable dst after).mem) 3 owner =
      nodes (child alloc.mem) 3 owner := by
    intro owner liveOwner
    ext node
    constructor
    · rintro ⟨path, short, reached⟩
      exact ⟨path, short, walks owner liveOwner path short ▸ reached⟩
    · rintro ⟨path, short, reached⟩
      exact ⟨path, short, (walks owner liveOwner path short).trans reached⟩
  have sameFree := owned.free_iff ownedAfter sameNodes
  refine ⟨freed ++ [], ownedAfter, sameFree, gone.total.trans (failed.total.trans popped.total),
    walks, ?_, popped.few owned live failed⟩
  intro pa member notFree address inside
  -- A frame that was not free is in the tree of an old root, and so not in the partial copy.
  have distinct : pa ≠ dst := fun same => notFree (by simp [same])
  have outside : pa ∉ nodes (child after.mem) 3 dst := fun node =>
    notFree ((sameFree pa).mp (by simpa using (gone.exact pa).mpr node))
  have notStart : pa ∉ nodes (child start.mem) 3 dst := by
    rintro ⟨path, short, reached⟩
    cases path with
    | nil => exact distinct (Option.some.inj reached).symm
    | cons index tail => simp [walk_childless popped.childless] at reached
  rw [gone.kept pa member outside inside,
    failed.kept pa member (fun listed => notFree (by simp [listed])) notStart inside]
  exact popped.kept pa member distinct inside

/-- `duplicate_va_space` of a live root adds a mirror image as a new root, or changes nothing. -/
theorem duplicateVaSpace_spec (owned : Owned alloc roots free managed) (live : src ∈ roots) :
    Loop.Outcome
      (fun dst after => ∃ used rest, SpaceDuplicated alloc after roots free managed src dst used rest)
      (fun _ after => ∃ rest, SpaceRolledBack alloc after roots free managed src rest)
      (duplicateVaSpace src alloc) := by
  unfold duplicateVaSpace
  -- Without a free frame there is not even a root.
  cases free with
  | nil =>
    rw [owned.pop_nil]
    refine .failed ⟨[], owned, fun _ => Iff.rfl, rfl, fun _ _ _ _ => rfl, fun _ _ _ _ _ => rfl, ?_⟩
    exact (Set.ncard_pos (nodes_finite src)).mpr ⟨src, root_mem_nodes src⟩
  | cons dst rest =>
    obtain ⟨popped, pop, root⟩ := owned.popRoot
    have distinct : src ≠ dst := fun same => root.fresh (same ▸ live)
    have step := doDuplicateTableRecursive_spec (Set.mem_insert_of_mem dst live)
      (Set.mem_insert dst roots) distinct 2 [] rfl _ rest src dst root.owned rfl rfl root.childless
    simp only [pop]
    generalize doDuplicateTableRecursive 3 src dst
      { popped with mem := fill popped.mem dst 4096 0 } = result at step
    -- The copy is complete, or it is rolled back.
    cases step with
    | done holds =>
      obtain ⟨used, left, copied⟩ := holds
      exact .done ⟨used, left, root.duplicated owned live copied⟩
    | failed holds => exact .failed (root.rolledBack owned live holds)

end DuplicateVaSpace

end AtOS
