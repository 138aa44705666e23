import AtOS.Paging.Pool

/-! Address spaces that an operation leaves as they were, with their tables and their pages. -/

namespace AtOS

open ByteMemory RadixForest

/-- The tables and the pages of some address spaces are as they were. -/
def Kept (before after : Mem) (roots : Set Nat) : Prop :=
  ∀ root ∈ roots, ∀ node ∈ nodes (child before) 3 root, Set.EqOn after before (frame node)

section Laws

variable {before middle after : Mem} {roots fewer : Set Nat} {root : Nat}

/-- A memory keeps what it has. -/
theorem Kept.refl (mem : Mem) (roots : Set Nat) : Kept mem mem roots :=
  fun _ _ _ _ => Set.eqOn_refl _ _

/-- Fewer address spaces are kept if more are. -/
theorem Kept.mono (kept : Kept before after roots) (subset : fewer ⊆ roots) :
    Kept before after fewer := fun root live => kept root (subset live)

/-- The tables of an address space that is kept are among its frames. -/
theorem Kept.tables (kept : Kept before after roots) (live : root ∈ roots) :
    ∀ table ∈ tables (child before) 3 root, Set.EqOn after before (frame table) :=
  fun table member => kept root live table (tables_subset_nodes root member)

/-- Every path still leads to the same frame. -/
theorem Kept.walk (kept : Kept before after roots) (live : root ∈ roots) {path : List EntryIndex}
    (short : path.length ≤ 3) :
    RadixForest.walk (child after) root path = RadixForest.walk (child before) root path :=
  walk_congr (fun table member => child_congr (kept.tables live table member)) path short

/-- An address space that is kept has the same frames. -/
theorem Kept.nodes (kept : Kept before after roots) (live : root ∈ roots) :
    RadixForest.nodes (child after) 3 root = RadixForest.nodes (child before) 3 root :=
  nodes_congr fun table member => child_congr (kept.tables live table member)

/-- An address space that is kept has the same attributes. -/
theorem Kept.attributes (kept : Kept before after roots) (live : root ∈ roots)
    {path : List EntryIndex} (short : path.length ≤ 3) :
    AtOS.attributes after root path = AtOS.attributes before root path :=
  attributes_congr (kept.tables live) short

/-- Every address still holds the same byte. -/
theorem Kept.byteAt (kept : Kept before after roots) (live : root ∈ roots) (va : Nat) :
    AtOS.byteAt after root va = AtOS.byteAt before root va := by
  have walks := kept.walk live (Nat.le_of_eq (pagePath_length va))
  rw [byteAt_eq, byteAt_eq, leafOf, leafOf, walks]
  cases reached : RadixForest.walk (child before) root (pagePath va) with
  | none => rfl
  | some leaf =>
    have inside : leaf + va % 4096 ∈ frame leaf := by
      simp only [frame, block, Set.mem_Ico]
      omega
    rw [Option.map_some, Option.map_some,
      kept root live leaf (node_of_walk (Nat.le_of_eq (pagePath_length va)) reached) inside]

/-- What is kept twice is kept. -/
theorem Kept.trans (kept : Kept before middle roots) (later : Kept middle after roots) :
    Kept before after roots := by
  intro root live node member
  have still : node ∈ RadixForest.nodes (child middle) 3 root := by
    rw [kept.nodes live]
    exact member
  exact (later root live node still).trans (kept root live node member)

end Laws

section Operations

variable {alloc after : PageAllocator} {roots : Set Nat} {free taken rest : List Nat}
  {managed : Set Nat} {root va pa : Nat}

/-- A list without repetition is as long as the set of its members. -/
theorem length_of_nodup {frames : List Nat} {set : Set Nat} (nodup : frames.Nodup)
    (same : ∀ pa, pa ∈ frames ↔ pa ∈ set) : frames.length = set.ncard := by
  have whole : (↑frames.toFinset : Set Nat) = set := by
    ext pa
    simpa using same pa
  rw [← whole, Set.ncard_coe_finset, List.toFinset_card_of_nodup nodup]

/-- A node of one address space is no node of another. -/
theorem Owned.node_apart (owned : Owned alloc roots free managed) (live : root ∈ roots)
    {owner node : Nat} (liveOwner : owner ∈ roots \ {root})
    (member : node ∈ nodes (child alloc.mem) 3 owner) :
    node ∈ managed ∧ node ∉ nodes (child alloc.mem) 3 root ∧ node ∉ free :=
  ⟨owned.node_managed liveOwner.1 member,
    owned.separate.disjoint liveOwner.1 live liveOwner.2 member,
    owned.apart owner liveOwner.1 node member⟩

/-- Mapping a page of one address space keeps the others. -/
theorem PageAdded.kept_others (added : PageAdded alloc after roots free managed va root pa taken rest)
    (owned : Owned alloc roots free managed) (live : root ∈ roots) :
    Kept alloc.mem after.mem (roots \ {root}) := by
  intro owner liveOwner node member
  obtain ⟨inside, notNode, notFree⟩ := owned.node_apart live liveOwner member
  refine added.frame_kept owned live inside (fun inTree => ?_) fun listed => ?_
  · exact notNode (tables_subset_nodes root inTree)
  · exact notFree (added.free_eq ▸ List.mem_append_left _ listed)

/-- Unmapping a page of one address space keeps the others. -/
theorem PageRemoved.kept_others (removed : PageRemoved alloc after roots free managed va root pa)
    (owned : Owned alloc roots free managed) (live : root ∈ roots)
    (mapped : leafOf alloc.mem root va = some pa) :
    Kept alloc.mem after.mem (roots \ {root}) := by
  intro owner liveOwner node member
  obtain ⟨inside, notNode, -⟩ := owned.node_apart live liveOwner member
  refine removed.kept node inside (fun inTree => notNode (tables_subset_nodes root inTree)) ?_
  rintro rfl
  exact notNode (node_of_walk (Nat.le_of_eq (pagePath_length va)) mapped)

/-- Writing into the pages of one address space keeps the others. -/
theorem PagesCopied.kept_others {src : List UInt8} {dst done : Nat} {result : Except String Unit}
    (copied : PagesCopied alloc after src dst root result done)
    (owned : Owned alloc roots free managed) (live : root ∈ roots) :
    Kept alloc.mem after.mem (roots \ {root}) := by
  intro owner liveOwner node member
  obtain ⟨inside, notNode, -⟩ := owned.node_apart live liveOwner member
  refine copied.kept owned live inside fun path full reached => ?_
  exact notNode (node_of_walk (Nat.le_of_eq full) reached)

/-- Freeing one address space keeps the others. -/
theorem RootFreed.kept_others {freed : List Nat}
    (gone : RootFreed alloc after roots free managed root freed)
    (owned : Owned alloc roots free managed) (live : root ∈ roots) :
    Kept alloc.mem after.mem (roots \ {root}) := by
  intro owner liveOwner node member
  obtain ⟨inside, notNode, -⟩ := owned.node_apart live liveOwner member
  exact gone.kept node inside notNode

/-- An address space gives back as many frames as it has. -/
theorem RootFreed.length {freed : List Nat}
    (gone : RootFreed alloc after roots free managed root freed) :
    freed.length = (nodes (child alloc.mem) 3 root).ncard :=
  length_of_nodup (List.nodup_append.mp gone.owned.nodup).1 gone.exact

/-- Copying an address space keeps all. -/
theorem SpaceDuplicated.kept_all {src dst : Nat} {used : List Nat}
    (copied : SpaceDuplicated alloc after roots free managed src dst used rest)
    (owned : Owned alloc roots free managed) : Kept alloc.mem after.mem roots := by
  intro owner live node member
  refine copied.kept node (owned.node_managed live member) fun listed => ?_
  refine owned.apart owner live node member ?_
  rw [copied.free_eq, ← List.cons_append]
  exact List.mem_append_left _ listed

/-- The new root is none of the old ones. -/
theorem SpaceDuplicated.fresh {src dst : Nat} {used : List Nat}
    (copied : SpaceDuplicated alloc after roots free managed src dst used rest)
    (owned : Owned alloc roots free managed) : dst ∉ roots := fun live =>
  owned.apart dst live dst (root_mem_nodes dst) (by rw [copied.free_eq]; exact List.mem_cons_self)

/-- The frames of a copy are those that were taken from the free list. -/
theorem SpaceDuplicated.nodes_iff {src dst : Nat} {used : List Nat}
    (copied : SpaceDuplicated alloc after roots free managed src dst used rest)
    (owned : Owned alloc roots free managed) (node : Nat) :
    node ∈ nodes (child after.mem) 3 dst ↔ node ∈ dst :: used := by
  have live : dst ∈ insert dst roots := Set.mem_insert _ _
  have free_eq : free = (dst :: used) ++ rest := copied.free_eq
  constructor
  · intro member
    -- It is managed; if it was not free, it was in a tree that is kept.
    rcases (owned.cover node).mp (copied.owned.node_managed live member) with listed |
      ⟨owner, liveOwner, inside⟩
    · rw [free_eq] at listed
      rcases List.mem_append.mp listed with taken | left
      · exact taken
      · exact absurd left (copied.owned.apart dst live node member)
    · have still : node ∈ nodes (child after.mem) 3 owner := by
        rw [(copied.kept_all owned).nodes liveOwner]
        exact inside
      refine absurd member (copied.owned.separate.disjoint (Set.mem_insert_of_mem _ liveOwner) live ?_
        still)
      rintro rfl
      exact copied.fresh owned liveOwner
  · -- What was taken is in some tree now, and no old tree has it.
    intro listed
    have wasFree : node ∈ free := by
      rw [free_eq]
      exact List.mem_append_left _ listed
    rcases (copied.owned.cover node).mp (owned.free_managed wasFree) with left |
      ⟨owner, rfl | liveOwner, inside⟩
    · have nodup := owned.nodup
      rw [free_eq] at nodup
      exact absurd rfl ((List.nodup_append.mp nodup).2.2 node listed node left)
    · exact inside
    · rw [(copied.kept_all owned).nodes liveOwner] at inside
      exact absurd wasFree (owned.apart owner liveOwner node inside)

/-- A copy has as many frames as its source. -/
theorem SpaceDuplicated.length {src dst : Nat} {used : List Nat}
    (copied : SpaceDuplicated alloc after roots free managed src dst used rest)
    (owned : Owned alloc roots free managed) (live : src ∈ roots) :
    (dst :: used).length = (nodes (child alloc.mem) 3 src).ncard := by
  -- The frames of the copy are those that were taken, and they are as many as its places.
  have nodup := owned.nodup
  rw [copied.free_eq, ← List.cons_append] at nodup
  rw [length_of_nodup (List.nodup_append.mp nodup).1
      fun node => (copied.nodes_iff owned node).symm,
    (copied.owned.separate.mono (Set.singleton_subset_iff.mpr (Set.mem_insert dst roots))).ncard_nodes,
    (owned.separate.mono (Set.singleton_subset_iff.mpr live)).ncard_nodes]
  -- Source and copy have the same places.
  congr 1
  ext path
  refine and_congr_right fun short => ?_
  by_cases empty : path = []
  · subst empty
    simp only [walk_nil, Option.isSome_some]
  · rw [← attributes_isSome empty, ← attributes_isSome empty, copied.attributes_eq path short]

/-- Memory that changes in one page only keeps the ownership, and all other frames. -/
theorem Owned.write_leaf (owned : Owned alloc roots free managed) (live : root ∈ roots)
    {path : List EntryIndex} (full : path.length = 3)
    (leaf : walk (child alloc.mem) root path = some pa) {next : Mem}
    (same : ∀ address ∉ frame pa, next address = alloc.mem address) :
    Owned { alloc with mem := next } roots free managed ∧
      ∀ other ∈ managed, other ≠ pa → Set.EqOn next alloc.mem (frame other) := by
  have member := node_of_walk (Nat.le_of_eq full) leaf
  -- Only the page is written, so any other managed frame keeps its content.
  have kept : ∀ other ∈ managed, other ≠ pa → Set.EqOn next alloc.mem (frame other) :=
    fun other inside distinct address within =>
      same address (frame_disjoint (owned.frames other inside) (owned.node_frame live member)
        distinct within)
  refine ⟨owned.keep (fun other listed => ?_) fun owner liveOwner table inTree => ?_, kept⟩
  · -- A page that is mapped is not in the free list,
    refine kept other (owned.free_managed listed) ?_
    rintro rfl
    exact owned.apart root live other member listed
  · -- nor is it a table of any address space.
    refine kept table (owned.node_managed liveOwner (tables_subset_nodes owner inTree)) ?_
    rintro rfl
    exact owned.separate.leaf_not_table live liveOwner full leaf inTree

end Operations

end AtOS
