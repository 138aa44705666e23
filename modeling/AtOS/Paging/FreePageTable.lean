import AtOS.Paging.FreePage

/-! Freeing an address space: `free_page_table` returns every frame of a tree, and nothing else. -/

namespace AtOS

open ByteMemory RadixForest

/-- What freeing the tree below a table leaves behind. -/
structure TreeFreed (alloc after : PageAllocator) (roots : Set Nat) (free : List Nat)
    (managed gone : Set Nat) (freed : List Nat) : Prop where
  owned : Owned after roots (freed ++ free) (managed ∪ gone)
  exact : ∀ pa, pa ∈ freed ↔ pa ∈ gone
  total : after.totalFrameCount = alloc.totalFrameCount
  /-- Only the freed frames are written. -/
  kept : ∀ address, (∀ pa ∈ gone, address ∉ frame pa) → after.mem address = alloc.mem address

section FreeTable

variable {alloc : PageAllocator} {roots : Set Nat} {free : List Nat} {managed : Set Nat}
  {height table : Nat}

/-- What a tree must be for its frames to be freed: frames in flight, each reached once. -/
structure InFlight (alloc : PageAllocator) (managed : Set Nat) (height table : Nat) : Prop where
  frames : ∀ pa ∈ nodes (child alloc.mem) height table, IsFrame pa
  stray : ∀ pa ∈ nodes (child alloc.mem) height table, pa ∉ managed
  separate : Separate (child alloc.mem) height {table}

/-- The loop over a table, with the entries still to come. -/
structure Freeing (alloc state : PageAllocator) (roots : Set Nat) (free : List Nat)
    (managed : Set Nat) (height table : Nat) (rest : List EntryIndex) : Prop where
  nodup : rest.Nodup
  /-- The subtrees behind the loop are free. -/
  freed : ∃ freed, Owned state roots (freed ++ free)
      (managed ∪ branches (child alloc.mem) height table { index | index ∉ rest }) ∧
    ∀ pa, pa ∈ freed ↔ pa ∈ branches (child alloc.mem) height table { index | index ∉ rest }
  total : state.totalFrameCount = alloc.totalFrameCount
  /-- The entries ahead of the loop are as they were. -/
  ahead : ∀ index ∈ rest, entry state.mem table index = entry alloc.mem table index
  kept : ∀ address, address ∉ frame table →
    (∀ pa ∈ branches (child alloc.mem) height table { index | index ∉ rest }, address ∉ frame pa) →
    state.mem address = alloc.mem address

/-- Frames of a subtree still ahead of the loop are as they were. -/
theorem Freeing.subtree_kept {state : PageAllocator} {index : EntryIndex} {rest : List EntryIndex}
    (loop : Freeing alloc state roots free managed height table (index :: rest))
    (tree : InFlight alloc managed (height + 1) table) {next : Nat}
    (found : child alloc.mem table index = some next) {pa : Nat}
    (member : pa ∈ nodes (child alloc.mem) height next) :
    Set.EqOn state.mem alloc.mem (frame pa) := by
  -- The frame lies in a subtree that the loop has not come to.
  have chosen : pa ∈ branches (child alloc.mem) height table {index} := ⟨index, rfl, next, found, member⟩
  have isFrame := tree.frames pa (branches_subset _ chosen)
  intro address inside
  refine loop.kept address ?_ ?_
  · -- The table is above the subtree.
    have distinct : pa ≠ table := by
      rintro rfl
      exact tree.separate.root_not_branch _ chosen
    exact frame_disjoint isFrame (tree.frames table (root_mem_nodes table)) distinct inside
  · -- The subtrees behind the loop hang below other indices.
    intro other behind
    have distinct : pa ≠ other := by
      rintro rfl
      exact tree.separate.branch_disjoint found (by simp) member behind
    exact frame_disjoint isFrame (tree.frames other (branches_subset _ behind)) distinct inside

/-- Passing one index moves it from ahead of the loop to behind it. -/
theorem behind_cons {index : EntryIndex} {rest : List EntryIndex} (nodup : (index :: rest).Nodup) :
    { other | other ∉ rest } = insert index { other | other ∉ index :: rest } := by
  have fresh := (List.nodup_cons.mp nodup).1
  ext other
  simp only [Set.mem_ofPred_eq, Set.mem_insert_iff, List.mem_cons]
  constructor
  · intro outside
    by_cases same : other = index
    · exact Or.inl same
    · exact Or.inr (by tauto)
  · rintro (rfl | outside)
    · exact fresh
    · tauto

/-- An entry without a child is passed without a step. -/
theorem Freeing.skip {state : PageAllocator} {index : EntryIndex} {rest : List EntryIndex}
    (loop : Freeing alloc state roots free managed height table (index :: rest))
    (vacant : child alloc.mem table index = none) :
    Freeing alloc state roots free managed height table rest := by
  have same := branches_insert_none height vacant { other | other ∉ index :: rest }
  rw [← behind_cons loop.nodup] at same
  refine ⟨(List.nodup_cons.mp loop.nodup).2, ?_, loop.total,
    fun other member => loop.ahead other (by simp [member]), ?_⟩
  · rw [same]
    exact loop.freed
  · rw [same]
    exact loop.kept

/-- What is accounted for behind the loop is neither the table nor in a subtree ahead. -/
theorem InFlight.apart (tree : InFlight alloc managed (height + 1) table) {index : EntryIndex}
    {rest : List EntryIndex} {next : Nat} (found : child alloc.mem table index = some next) :
    ∀ pa ∈ managed ∪ branches (child alloc.mem) height table { other | other ∉ index :: rest },
      pa ≠ table ∧ pa ∉ nodes (child alloc.mem) height next := by
  rintro pa (member | behind)
  · refine ⟨?_, fun inside => ?_⟩
    · rintro rfl
      exact tree.stray pa (root_mem_nodes pa) member
    · exact tree.stray pa (branches_subset {index} ⟨index, rfl, next, found, inside⟩) member
  · refine ⟨?_, fun inside => ?_⟩
    · rintro rfl
      exact tree.separate.root_not_branch _ behind
    · exact tree.separate.branch_disjoint found (by simp) inside behind

/-- Freeing the subtree of one entry moves the entry from ahead of the loop to behind it. -/
theorem Freeing.advance {state after : PageAllocator} {index : EntryIndex}
    {rest : List EntryIndex}
    (loop : Freeing alloc state roots free managed height table (index :: rest))
    {next : Nat} (found : child alloc.mem table index = some next)
    (subtree : ∀ free managed, Owned state roots free managed →
      (∀ pa ∈ managed, pa ≠ table ∧ pa ∉ nodes (child alloc.mem) height next) →
      ∃ freed, Owned after roots (freed ++ free) (managed ∪ nodes (child alloc.mem) height next) ∧
        ∀ pa, pa ∈ freed ↔ pa ∈ nodes (child alloc.mem) height next)
    (tree : InFlight alloc managed (height + 1) table)
    (total : after.totalFrameCount = state.totalFrameCount)
    (ahead : ∀ other ∈ rest, entry after.mem table other = entry state.mem table other)
    (kept : ∀ address, address ∉ frame table →
      (∀ pa ∈ nodes (child alloc.mem) height next, address ∉ frame pa) →
      after.mem address = state.mem address) :
    Freeing alloc after roots free managed height table rest := by
  -- The part of the tree that has been freed grows by one subtree.
  have more := branches_insert height found { other | other ∉ index :: rest }
  rw [← behind_cons loop.nodup] at more
  obtain ⟨freed, owned, exact⟩ := loop.freed
  obtain ⟨freedNow, ownedNow, exactNow⟩ := subtree _ _ owned (tree.apart found)
  refine ⟨(List.nodup_cons.mp loop.nodup).2, ⟨freedNow ++ freed, ?_, ?_⟩,
    total.trans loop.total, fun other member => ?_, fun address outside apart => ?_⟩
  · rw [more, ← Set.union_assoc, List.append_assoc]
    exact ownedNow
  · -- What is freed now comes on top of what has been freed before.
    intro pa
    rw [more, List.mem_append, exactNow, exact, Set.mem_union]
    tauto
  · -- The entries further on have still not been touched.
    exact (ahead other member).trans (loop.ahead other (by simp [member]))
  · rw [more] at apart
    exact (kept address outside fun pa member => apart pa (Or.inr member)).trans
      (loop.kept address outside fun pa member => apart pa (Or.inl member))

/-- One entry of a leaf table is cleared, and its frame freed. -/
theorem Freeing.leafEntry {state : PageAllocator} {index : EntryIndex} {rest : List EntryIndex}
    (recurse : Nat → PageAllocator → PageAllocator)
    (loop : Freeing alloc state roots free managed 0 table (index :: rest))
    (tree : InFlight alloc managed 1 table) :
    Freeing alloc (freeEntry recurse true table state index) roots free managed 0 table rest := by
  -- Each index comes once, so the entries ahead are never the one at hand.
  have fresh := (List.nodup_cons.mp loop.nodup).1
  have sameEntry := loop.ahead index (by simp)
  unfold freeEntry
  by_cases valid : IsValid (entry state.mem table index)
  · have found : child alloc.mem table index = some (entry state.mem table index &&& addressMask) := by
      rw [sameEntry] at valid ⊢
      exact child_of_valid valid
    generalize leafEq : entry state.mem table index &&& addressMask = leaf at found
    simp only [valid, if_true, not_true_eq_false, if_false, leafEq]
    -- Below the last table, a subtree is a single page.
    have alone : nodes (child alloc.mem) 0 leaf = {leaf} := nodes_zero leaf
    have inTree : leaf ∈ nodes (child alloc.mem) 1 table :=
      branches_subset {index} ⟨index, rfl, leaf, found, root_mem_nodes leaf⟩
    have isLeaf := tree.frames leaf inTree
    have isTable := tree.frames table (root_mem_nodes table)
    -- A page is no table.
    have apart : table ≠ leaf := by
      rintro rfl
      exact tree.separate.root_not_branch {index} ⟨index, rfl, table, found, root_mem_nodes table⟩
    refine loop.advance found ?_ tree (by rw [addFreeFrame_eq _ isLeaf]) ?_ ?_
    · -- Clearing the entry touches only the table, which is in flight.
      intro free managed owned outside
      have cleared : Owned { state with mem := setEntry state.mem table index 0 } roots free managed :=
        owned.keep_managed fun pa member address inside => setEntry_outside _ _ _
          (frame_disjoint (owned.frames pa member) isTable (outside pa member).1 inside)
      rw [alone] at outside ⊢
      have pushed := cleared.push isLeaf fun member => (outside leaf member).2 rfl
      refine ⟨[leaf], ?_, by simp⟩
      rw [Set.union_singleton]
      exact pushed
    · -- Pushing the page writes its own frame only.
      intro other member
      have distinct : other ≠ index := fun same => fresh (same ▸ member)
      rw [entry_congr fun address inside => addFreeFrame_outside _ isLeaf
        (frame_disjoint isTable isLeaf apart inside)]
      exact entry_setEntry_of_ne _ _ _ distinct
    · intro address outside outsideLeaf
      rw [addFreeFrame_outside _ isLeaf (outsideLeaf leaf (root_mem_nodes leaf))]
      exact setEntry_outside _ _ _ outside
  · -- There is nothing to free below an entry that is not valid.
    rw [if_neg valid]
    refine loop.skip ?_
    rw [child_eq_none, ← sameEntry]
    exact valid

/-- One entry of an upper table has its subtree freed. -/
theorem Freeing.tableEntry {state : PageAllocator} {index : EntryIndex} {rest : List EntryIndex}
    {recurse : Nat → PageAllocator → PageAllocator}
    (below : ∀ alloc free managed table, Owned alloc roots free managed →
      InFlight alloc managed height table → ∃ freed, TreeFreed alloc (recurse table alloc) roots free
        managed (nodes (child alloc.mem) height table) freed)
    (loop : Freeing alloc state roots free managed height table (index :: rest))
    (tree : InFlight alloc managed (height + 1) table) :
    Freeing alloc (freeEntry recurse false table state index) roots free managed height table
      rest := by
  have sameEntry := loop.ahead index (by simp)
  unfold freeEntry
  by_cases valid : IsValid (entry state.mem table index)
  · have found : child alloc.mem table index = some (entry state.mem table index &&& addressMask) := by
      rw [sameEntry] at valid ⊢
      exact child_of_valid valid
    generalize nextEq : entry state.mem table index &&& addressMask = next at found
    simp only [valid, if_true, Bool.false_eq_true, not_false_eq_true, nextEq]
    -- The subtree is still as it was when the loop started.
    have sameChild : Set.EqOn (child state.mem) (child alloc.mem)
        (tables (child alloc.mem) height next) := fun node member =>
      child_congr (loop.subtree_kept tree found (tables_subset_nodes next member))
    have sameNodes := nodes_congr sameChild
    -- All of it belongs to the tree that is freed.
    have inTree : ∀ pa ∈ nodes (child alloc.mem) height next,
        pa ∈ nodes (child alloc.mem) (height + 1) table :=
      fun pa member => branches_subset {index} ⟨index, rfl, next, found, member⟩
    -- The subtree is in flight: nothing that is left owned has a frame of it.
    have flight : ∀ managed, (∀ pa ∈ managed, pa ≠ table ∧
        pa ∉ nodes (child alloc.mem) height next) → InFlight state managed height next := by
      intro managed outside
      refine ⟨fun pa member => ?_, fun pa member inside => ?_, ?_⟩
      · exact tree.frames pa (inTree pa (sameNodes ▸ member))
      · exact (outside pa inside).2 (sameNodes ▸ member)
      · refine (tree.separate.below found).congr fun root same => ?_
        cases same
        exact sameChild
    obtain ⟨freed, owned, -⟩ := loop.freed
    have isTable := tree.frames table (root_mem_nodes table)
    obtain ⟨freedNow, step⟩ := below state _ _ next owned (flight _ (tree.apart found))
    rw [sameNodes] at step
    refine loop.advance found ?_ tree step.total ?_ ?_
    · -- The recursion frees the subtree.
      intro free managed owned outside
      obtain ⟨freed, done⟩ := below state free managed next owned (flight managed outside)
      rw [sameNodes] at done
      exact ⟨freed, done.owned, done.exact⟩
    · -- The entries further on lie in the table, which is no frame of the subtree.
      intro other member
      refine entry_congr (fun address inside => step.kept address fun pa inSubtree => ?_) other
      have distinct : table ≠ pa := by
        rintro rfl
        exact tree.separate.root_not_branch {index} ⟨index, rfl, next, found, inSubtree⟩
      exact frame_disjoint isTable (tree.frames pa (inTree pa inSubtree)) distinct inside
    · intro address _ outside
      exact step.kept address outside
  · rw [if_neg valid]
    refine loop.skip ?_
    rw [child_eq_none, ← sameEntry]
    exact valid

/-- Before its first pass the loop over a table has freed nothing. -/
theorem Freeing.start (owned : Owned alloc roots free managed) :
    Freeing alloc alloc roots free managed height table (List.finRange 512) := by
  have nothing : { index : EntryIndex | index ∉ List.finRange 512 } = ∅ := by
    ext index
    simp
  refine ⟨List.nodup_finRange 512, ⟨[], ?_, ?_⟩, rfl, fun _ _ => rfl, fun _ _ _ => rfl⟩
  · rw [nothing, branches_empty, Set.union_empty]
    exact owned
  · simp

/-- After its last pass the loop has freed the subtrees, and the table itself follows. -/
theorem Freeing.finish {state : PageAllocator}
    (loop : Freeing alloc state roots free managed height table [])
    (tree : InFlight alloc managed (height + 1) table) :
    ∃ freed, TreeFreed alloc (addFreeFrame (ttbr1ToVa table) state) roots free managed
      (nodes (child alloc.mem) (height + 1) table) freed := by
  obtain ⟨freed, owned, exact⟩ := loop.freed
  have everything : { index : EntryIndex | index ∉ [] } = Set.univ := by
    ext index
    simp
  have kept := loop.kept
  have isTable := tree.frames table (root_mem_nodes table)
  rw [everything] at owned exact kept
  have stray : table ∉ managed ∪ branches (child alloc.mem) height table Set.univ := by
    rintro (member | below)
    · exact tree.stray table (root_mem_nodes table) member
    · exact tree.separate.root_not_branch _ below
  refine ⟨table :: freed, ?_, ?_, ?_, ?_⟩
  · rw [nodes_succ, Set.union_insert]
    exact owned.push isTable stray
  · intro pa
    rw [nodes_succ, List.mem_cons, exact, Set.mem_insert_iff]
  · rw [addFreeFrame_eq _ isTable]
    exact loop.total
  · intro address outside
    rw [nodes_succ] at outside
    have outsideTable := outside table (Set.mem_insert _ _)
    exact (addFreeFrame_outside _ isTable outsideTable).trans
      (kept address outsideTable fun pa below => outside pa (Set.mem_insert_of_mem _ below))

/-- Freeing a tree in flight frees exactly its frames. -/
theorem doFreeTableRecursive_spec (height : Nat) :
    ∀ alloc free managed table, Owned alloc roots free managed →
      InFlight alloc managed (height + 1) table →
      ∃ freed, TreeFreed alloc (doFreeTableRecursive (height + 1) table alloc) roots free managed
        (nodes (child alloc.mem) (height + 1) table) freed := by
  -- The induction is on the height; only a leaf table frees frames without recursion.
  induction height with
  | zero =>
    intro alloc free managed table owned tree
    have loop := Loop.foldl_rule
      (fun rest state => Freeing alloc state roots free managed 0 table rest)
      (fun index rest state loop => loop.leafEntry (doFreeTableRecursive 0) tree)
      (List.finRange 512) alloc (Freeing.start owned)
    exact loop.finish tree
  | succ height ih =>
    intro alloc free managed table owned tree
    have loop := Loop.foldl_rule
      (fun rest state => Freeing alloc state roots free managed (height + 1) table rest)
      (fun index rest state loop => loop.tableEntry ih tree)
      (List.finRange 512) alloc (Freeing.start owned)
    exact loop.finish tree

/-- What `free_page_table` leaves behind: the root is gone, and its frames are free. -/
structure RootFreed (alloc after : PageAllocator) (roots : Set Nat) (free : List Nat)
    (managed : Set Nat) (root : Nat) (freed : List Nat) : Prop where
  owned : Owned after (roots \ {root}) (freed ++ free) managed
  exact : ∀ pa, pa ∈ freed ↔ pa ∈ nodes (child alloc.mem) 3 root
  total : after.totalFrameCount = alloc.totalFrameCount
  kept : ∀ pa ∈ managed, pa ∉ nodes (child alloc.mem) 3 root →
    Set.EqOn after.mem alloc.mem (frame pa)
  walks : ∀ owner ∈ roots, owner ≠ root → ∀ path : List EntryIndex, path.length ≤ 3 →
    walk (child after.mem) owner path = walk (child alloc.mem) owner path

/-- `free_page_table` on a live root retires it and frees the frames of its tree. -/
theorem freePageTable_spec {root : Nat} (owned : Owned alloc roots free managed)
    (live : root ∈ roots) :
    ∃ freed, RootFreed alloc (freePageTable root alloc) roots free managed root freed := by
  -- A root that is retired leaves its tree in flight.
  have tree : InFlight alloc (managed \ nodes (child alloc.mem) 3 root) 3 root :=
    ⟨fun pa member => owned.node_frame live member, fun pa member outside => outside.2 member,
      owned.separate.mono (Set.singleton_subset_iff.mpr live)⟩
  obtain ⟨freed, step⟩ := doFreeTableRecursive_spec 2 alloc free _ root (owned.retire live) tree
  -- Freeing it gives back all its frames, and no others.
  have whole : managed \ nodes (child alloc.mem) 3 root ∪ nodes (child alloc.mem) 3 root =
      managed := Set.sdiff_union_of_subset fun pa member => owned.node_managed live member
  -- Frames outside the tree are not written.
  have kept : ∀ pa ∈ managed, pa ∉ nodes (child alloc.mem) 3 root →
      Set.EqOn (freePageTable root alloc).mem alloc.mem (frame pa) := by
    intro pa member outside address inside
    refine step.kept address fun node below => ?_
    have distinct : pa ≠ node := fun same => outside (same ▸ below)
    exact frame_disjoint (owned.frames pa member) (owned.node_frame live below) distinct inside
  refine ⟨freed, whole ▸ step.owned, step.exact, step.total, kept, ?_⟩
  intro owner liveOwner distinct path short
  -- The tables of another root are in the account and not in the freed tree.
  refine walk_keep (fun table member => ?_) short
  have inOwner := tables_subset_nodes owner member
  exact kept table (owned.node_managed liveOwner inOwner)
    (owned.separate.disjoint liveOwner live distinct inOwner)

end FreeTable

end AtOS
