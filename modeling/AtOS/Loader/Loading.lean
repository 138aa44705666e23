import AtOS.Loader.LoadElf
import AtOS.Paging.Refinement

/-! What a program being loaded finds in memory: its own new pages, and nothing of anybody else. -/

namespace AtOS

open ByteMemory RadixForest

/--
An address space in the middle of being built, since a start at which its root was empty.

The free list has given the frames that were taken. A zeroing that ran over the end of its frame
may have cleared bytes outside all managed frames; these are collected as the spill.
-/
structure Loading (start alloc : PageAllocator) (roots : Set Nat) (free : List Nat)
    (managed : Set Nat) (root : Nat) (pages spill : Set Nat) (taken rest : List Nat) : Prop where
  free_eq : free = taken ++ rest
  nodup : free.Nodup
  owned : Owned alloc (insert root roots) rest managed
  total : alloc.totalFrameCount = start.totalFrameCount
  /-- The pages mapped so far. -/
  mapped : ∀ va < 2 ^ 39, (leafOf alloc.mem root va).isSome ↔ va / 4096 ∈ pages
  /-- The tree is made of the root and of frames that were taken. -/
  tree : ∀ pa ∈ nodes (child alloc.mem) 3 root, pa ∈ root :: taken
  kept : ∀ pa ∈ managed, pa ∉ root :: taken → Set.EqOn alloc.mem start.mem (frame pa)
  spilt : ∀ address ∈ spill, (∀ pa ∈ managed, address ∉ frame pa) → alloc.mem address = 0
  outside : ∀ address ∉ spill, (∀ pa ∈ managed, address ∉ frame pa) →
    alloc.mem address = start.mem address

/-- A byte that was in one of the taken frames at the start. -/
def FreshByte (start : PageAllocator) (taken : List Nat) (offset : Nat) (byte : UInt8) : Prop :=
  ∃ pa ∈ taken, byte = start.mem (pa + offset)

section Bytes

variable {alloc : PageAllocator} {roots : Set Nat} {free : List Nat} {managed : Set Nat}
  {root va other : Nat}

/-- Below 2^39, leaves of different pages are different frames. -/
theorem Owned.leaf_inj (owned : Owned alloc roots free managed) (live : root ∈ roots)
    (low : va < 2 ^ 39) (lowOther : other < 2 ^ 39) {leaf : Nat}
    (mapped : leafOf alloc.mem root va = some leaf)
    (mappedOther : leafOf alloc.mem root other = some leaf) : va / 4096 = other / 4096 := by
  have same := owned.separate live live (Nat.le_of_eq (pagePath_length va))
    (Nat.le_of_eq (pagePath_length other)) mapped mappedOther
  exact (pagePath_inj low lowOther).mp same.2

/-- A leaf of a live root is a frame of the account. -/
theorem Owned.leaf_managed (owned : Owned alloc roots free managed) (live : root ∈ roots)
    {leaf : Nat} (mapped : leafOf alloc.mem root va = some leaf) : leaf ∈ managed ∧ IsFrame leaf :=
  have inside := node_of_walk (Nat.le_of_eq (pagePath_length va)) mapped
  ⟨owned.node_managed live inside, owned.node_frame live inside⟩

end Bytes

section Start

variable {start alloc : PageAllocator} {roots : Set Nat} {free : List Nat} {managed : Set Nat}
  {root : Nat}

/-- A root without children has loaded nothing yet. -/
theorem Loading.begin (owned : Owned alloc (insert root roots) free managed)
    (sameMem : alloc.mem = start.mem) (total : alloc.totalFrameCount = start.totalFrameCount)
    (childless : ∀ index, child alloc.mem root index = none) :
    Loading start alloc roots free managed root ∅ ∅ [] free := by
  refine ⟨rfl, owned.nodup, owned, total, fun va _ => ?_, ?_,
    fun _ _ _ => sameMem ▸ Set.eqOn_refl _ _, ?_, fun _ _ _ => by rw [sameMem]⟩
  · rw [leafOf, walk_childless childless (by simp [pagePath])]
    simp
  · rintro pa ⟨path, -, reached⟩
    by_cases empty : path = []
    · subst empty
      rw [Option.some.inj reached]
      exact List.mem_cons_self
    · rw [walk_childless childless empty] at reached
      cases reached
  · intro address nothing
    exact absurd nothing (Set.notMem_empty address)

end Start

section Steps

variable {start alloc : PageAllocator} {roots : Set Nat} {free : List Nat} {managed : Set Nat}
  {root : Nat} {pages spill : Set Nat} {taken rest : List Nat}

/-- The root is live while it is being loaded. -/
theorem Loading.live (_ : Loading start alloc roots free managed root pages spill taken rest) :
    root ∈ insert root roots := Set.mem_insert root roots

/-- Bytes of a free frame are those it had at the start. -/
theorem Loading.waiting (loading : Loading start alloc roots free managed root pages spill taken rest)
    {pa : Nat} (listed : pa ∈ rest) : Set.EqOn alloc.mem start.mem (frame pa) := by
  refine loading.kept pa (loading.owned.free_managed listed) fun used => ?_
  rcases List.mem_cons.mp used with rfl | inTaken
  · exact loading.owned.apart pa loading.live pa (root_mem_nodes pa) listed
  · have apart := List.nodup_append.mp (loading.free_eq ▸ loading.nodup)
    exact apart.2.2 pa inTaken pa listed rfl

/-- Mapping a page of the new address space takes its frame from the free list. -/
theorem Loading.allocPage_ok
    (loading : Loading start alloc roots free managed root pages spill taken rest) {va : Nat}
    (low : va < 2 ^ 39) {pa : Nat} {after : PageAllocator}
    (done : allocPage va root alloc = .ok (pa, after)) :
    ∃ used left, used.length ≤ 3 ∧
      Loading start after roots free managed root (insert (va / 4096) pages) spill (taken ++ used)
        left ∧
      pa ∈ used ∧
      ∀ other < 2 ^ 39, byteAt after.mem root other =
        if other / 4096 = va / 4096 then some (start.mem (pa + other % 4096))
        else byteAt alloc.mem root other := by
  -- The page takes frames from the head of the free list: for tables, and for itself.
  have outcome := allocPage_spec loading.owned loading.live va
  rw [done] at outcome
  obtain ⟨used, left, added⟩ := outcome
  have free_eq : rest = (used ++ [pa]) ++ left := by simp [added.free_eq]
  have listed : pa ∈ rest := by simp [added.free_eq]
  have unused : pa ∉ used := fun inUsed => by
    have nodup := added.free_eq ▸ loading.owned.nodup
    exact (List.nodup_append.mp nodup).2.2 pa inUsed pa (by simp) rfl
  -- Only the addresses of the new page lead elsewhere than before.
  have leaves : ∀ other < 2 ^ 39, leafOf after.mem root other =
      if other / 4096 = va / 4096 then some pa else leafOf alloc.mem root other := by
    intro other lowOther
    rw [leafOf, added.leaves root loading.live _ (pagePath_length other)]
    simp only [true_and, pagePath_inj lowOther low]
    rfl
  have count : (used ++ [pa]).length ≤ 3 := by
    have few := added.few
    simp only [List.length_append, List.length_singleton]
    omega
  refine ⟨used ++ [pa], left, count, ⟨?_, loading.nodup, added.owned,
    added.total.trans loading.total, ?_, ?_, ?_, ?_, ?_⟩, by simp, ?_⟩
  · -- All frames that are taken are accounted for.
    rw [loading.free_eq, free_eq]
    simp only [List.append_assoc]
  · intro other lowOther
    rw [leaves other lowOther, Set.mem_insert_iff]
    split
    · rename_i same
      simp [same]
    · rename_i distinct
      simp [distinct, loading.mapped other lowOther]
  · -- A node of the tree was a node before, or has just been taken.
    intro node inside
    have member := added.owned.node_managed loading.live inside
    rcases (loading.owned.cover node).mp member with waiting | ⟨owner, live, place⟩
    · rw [free_eq] at waiting
      rcases List.mem_append.mp waiting with inUsed | inLeft
      · simp only [List.mem_cons, List.mem_append]
        exact Or.inr (Or.inr (by simpa using inUsed))
      · exact absurd inLeft (added.owned.apart root loading.live node inside)
    · by_cases same : owner = root
      · subst same
        have before := loading.tree node place
        simp only [List.mem_cons, List.mem_append] at before ⊢
        tauto
      · obtain ⟨path, short, reached⟩ := place
        rw [← added.others owner live same path short] at reached
        exact absurd inside (added.owned.separate.disjoint live loading.live same
          (node_of_walk short reached))
  · -- A frame of another address space, or one that is still free, is not written.
    intro other member outside
    simp only [List.mem_cons, List.mem_append, not_or] at outside
    have notTree : other ∉ nodes (child alloc.mem) 3 root := fun inside => by
      have before := loading.tree other inside
      simp only [List.mem_cons] at before
      tauto
    have step := added.frame_kept loading.owned loading.live member
      (fun inside => notTree (tables_subset_nodes root inside)) outside.2.2.1
    exact step.trans (loading.kept other member (by simp [outside.1, outside.2.1]))
  · -- Neither do bytes outside of all frames change.
    intro address inSpill apart
    rw [added.kept address (fun table inside => apart table
        (loading.owned.node_managed loading.live (tables_subset_nodes root inside)))
      fun other inUsed => apart other (loading.owned.free_managed (by simp [free_eq, inUsed]))]
    exact loading.spilt address inSpill apart
  · intro address notSpill apart
    rw [added.kept address (fun table inside => apart table
        (loading.owned.node_managed loading.live (tables_subset_nodes root inside)))
      fun other inUsed => apart other (loading.owned.free_managed (by simp [free_eq, inUsed]))]
    exact loading.outside address notSpill apart
  · intro other lowOther
    rw [byteAt_eq, byteAt_eq, leaves other lowOther]
    split
    · -- The new leaf has the bytes the frame had on the free list.
      have notTree : pa ∉ nodes (child alloc.mem) 3 root := fun inside =>
        loading.owned.apart root loading.live pa inside listed
      have inside : pa + other % 4096 ∈ frame pa := by
        simp only [frame, block, Set.mem_Ico]
        omega
      rw [Option.map_some, added.frame_kept loading.owned loading.live
        (loading.owned.free_managed listed)
        (fun inTree => notTree (tables_subset_nodes root inTree)) unused inside,
        loading.waiting listed inside]
    · -- Any other page has kept its frame and its bytes.
      cases mapped : leafOf alloc.mem root other with
      | none => rfl
      | some leaf =>
        have inside : leaf + other % 4096 ∈ frame leaf := by
          simp only [frame, block, Set.mem_Ico]
          omega
        have notTable := loading.owned.separate.leaf_not_table loading.live loading.live
          (pagePath_length other) mapped
        have notUsed : leaf ∉ used := fun inUsed => loading.owned.apart root loading.live leaf
          (node_of_walk (by simp) mapped) (by simp [free_eq, inUsed])
        rw [Option.map_some, Option.map_some, added.frame_kept loading.owned loading.live
          (loading.owned.leaf_managed loading.live mapped).1 notTable notUsed inside]

/-- Mapping a page that is not mapped fails only when frames run out. -/
theorem Loading.allocPage_error
    (loading : Loading start alloc roots free managed root pages spill taken rest) {va : Nat}
    (low : va < 2 ^ 39) (unmapped : va / 4096 ∉ pages) {panic : Panic}
    (failed : allocPage va root alloc = .error panic) :
    (∃ message, panic = .outOfFrames message) ∧ rest.length < 3 := by
  have outcome := allocPage_spec loading.owned loading.live va
  rw [failed] at outcome
  rcases outcome with ⟨-, mapped⟩ | ⟨-, few, message⟩
  · exact absurd ((loading.mapped va low).mp mapped) unmapped
  · exact ⟨message, few⟩

end Steps

end AtOS
