import AtOS.Paging.KernelTables
import AtOS.Resources.FrameAccount
import AtOS.Resources.PoolRuns

/-! What the MMU makes of the tables in a run: the halves of the programs and of the kernel. -/

namespace AtOS

open ByteMemory RadixForest SlotTable
open Stage1 hiding walk

/-- The first frame that `_rust_main` gives to `init_frames`. -/
def KernelLayout.firstFrame (layout : KernelLayout) : Nat := layout.stackTop + 0x2000

/-- The limit that `_rust_main` gives to `init_frames`. -/
def lastFrameLimit : Nat := ttbr1ToVa 0x3EFFE000

/--
The kernel after `init_frames`, with the tables that `entry.S` has linked.

What runs in between may change all of the memory but the tables.
-/
structure Kernel.Linked (k : Kernel) (layout : KernelLayout) : Prop where
  kernelL1 : k.kernelL1 = toPhysical layout.l1
  alloc : ∃ image mem link, StaticTables layout image ∧
    (∀ table ∈ layout.tables, Set.EqOn mem (linkKernelTables layout image) (frame table)) ∧
    link.tag = 0 ∧ link.ptr % 4096 = 0 ∧ link.ptr < 2 ^ 64 ∧
    k.alloc = initFrames layout.firstFrame lastFrameLimit
      { mem, freeFrameList := link, freeFrameCount := 0, totalFrameCount := 0 }

section Linking

variable {k : Kernel} {layout : KernelLayout}

/-- The frames of the pool lie behind the tables, and below the end of the memory. -/
theorem KernelLayout.managed_above (layout : KernelLayout) {pa : Nat}
    (managed : pa ∈ managedFrames layout.firstFrame lastFrameLimit) :
    (∀ table ∈ layout.tables, table + 4096 ≤ pa) ∧ pa < 2 ^ 30 := by
  obtain ⟨va, listed, rfl⟩ := managed
  simp only [frameVas, List.mem_map, List.mem_range] at listed
  -- The address is that of a frame in the list.
  obtain ⟨step, below, rfl⟩ := listed
  have limit : lastFrameLimit = 0xFFFFFF803EFFE000 := by decide
  have aligned := layout.aligned
  have fits := layout.fits
  -- The tables end below the stack, after which the pool starts.
  have window : vmaOrigin ≤ layout.stackTop := by
    have placed := (layout.placed layout.l1 (by simp)).2
    omega
  simp only [KernelLayout.firstFrame, limit, vmaOrigin, vmaLength] at below fits window ⊢
  rw [ttbr1ToPa_eq]
  constructor
  · intro table listed
    obtain ⟨address, placed, rfl⟩ := List.mem_map.mp listed
    have under := (layout.placed address placed).2.2
    rw [(layout.placed_physical placed).1]
    omega
  · omega

/-- The pool that `init_frames` makes. -/
theorem Kernel.Linked.booted (linked : k.Linked layout) :
    Pool.Booted layout.firstFrame lastFrameLimit ⟨k.alloc, ∅⟩ := by
  obtain ⟨image, mem, link, -, -, tag, aligned, small, alloc⟩ := linked.alloc
  have top := layout.aligned
  have above := (layout.placed layout.l1 (by simp)).2
  simp only [vmaOrigin] at above
  refine ⟨?_, ?_, by decide, rfl, mem, link, tag, aligned, small, alloc⟩
  · simp only [KernelLayout.firstFrame]
    omega
  · simp only [KernelLayout.firstFrame]
    omega

/-- `init_frames` leaves the tables of the kernel as they are. -/
theorem Kernel.Linked.window (linked : k.Linked layout) :
    Window k.alloc.mem k.kernelL1 (toPhysical layout.l2First) (toPhysical layout.l2Second) ∧
      entry k.alloc.mem k.kernelL1 2 = 0 := by
  obtain ⟨image, mem, link, static, same, -, -, -, alloc⟩ := linked.alloc
  rw [linked.kernelL1, alloc]
  -- The links that `init_frames` writes are in the frames of the pool.
  refine static.linked fun table listed address inside => ?_
  obtain ⟨frames, -, isFrame, vas, exact⟩ := @frameVas_eq layout.firstFrame lastFrameLimit
    linked.booted.aligned linked.booted.window linked.booted.limit_le
  rw [← same table listed inside, initFrames, vas]
  refine pushedFrames_outside frames _ isFrame fun pa member => ?_
  have behind := (layout.managed_above ((exact pa).mp member)).1 table listed
  simp only [frame, block, Set.mem_Ico] at inside ⊢
  omega

/-- The nodes of the kernel's address space are its three tables. -/
theorem Kernel.Linked.places (linked : k.Linked layout) {path : List EntryIndex} {node : Nat}
    (reached : walk (child k.alloc.mem) k.kernelL1 path = some node) :
    path = [] ∧ node = toPhysical layout.l1 ∨ path = [0] ∧ node = toPhysical layout.l2First ∨
      path = [1] ∧ node = toPhysical layout.l2Second := by
  obtain ⟨window, vacant⟩ := linked.window
  rw [← linked.kernelL1]
  exact window.paths (fun table listed => (layout.window_frames table listed).1) vacant reached

/-- Whatever the kernel reaches is one of its tables. -/
theorem Kernel.Linked.node_table (linked : k.Linked layout) {path : List EntryIndex} {pa : Nat}
    (reached : walk (child k.alloc.mem) k.kernelL1 path = some pa) : pa ∈ layout.tables := by
  rcases linked.places reached with ⟨-, rfl⟩ | ⟨-, rfl⟩ | ⟨-, rfl⟩ <;> simp [KernelLayout.tables]

/-- This is what the results about the runs of the system start from. -/
theorem Kernel.Linked.prepared (linked : k.Linked layout) :
    k.Prepared layout.firstFrame lastFrameLimit := by
  -- The tables are different from each other.
  have nodup := layout.tables_nodup
  simp only [KernelLayout.tables, List.map_cons, List.map_nil, List.nodup_cons, List.mem_cons,
    List.not_mem_nil, or_false, not_or, not_false_eq_true, List.nodup_nil, and_true] at nodup
  obtain ⟨⟨first, second⟩, third⟩ := nodup
  refine ⟨linked.booted, ?_, ?_, ?_⟩
  · rintro root rfl other rfl path rest node - - here there
    refine ⟨rfl, ?_⟩
    -- The three tables are different, so each of them has one place.
    rcases linked.places here with ⟨rfl, one⟩ | ⟨rfl, one⟩ | ⟨rfl, one⟩ <;>
      rcases linked.places there with ⟨rfl, two⟩ | ⟨rfl, two⟩ | ⟨rfl, two⟩ <;>
        first
        | rfl
        | exact absurd (one.symm.trans two) (by assumption)
        | exact absurd (two.symm.trans one) (by assumption)
  · -- The frames start above the tables.
    rintro pa ⟨path, -, reached⟩
    have listed := linked.node_table reached
    refine ⟨(layout.tables_frame listed).1, fun managed => ?_⟩
    have behind := (layout.managed_above managed).1 pa listed
    omega
  · -- The third entry of the root is empty.
    have index : l1Index kernelStackRegionStart = 2 := by decide
    rw [index, child_eq_none, linked.window.2]
    decide

end Linking

section Stacks

variable {mem : Mem} {kernelL1 : Nat} {kernelStacks : Fin maxProcesses → StackState}

/-- The places of the kernel's address space: five tables, and the pages of the stacks in use. -/
def kernelPlaces (kernelStacks : Fin maxProcesses → StackState) : Finset (List EntryIndex) :=
  {[], [0], [1], [2], [2, 0]} ∪
    (usedStacks kernelStacks ×ˢ stackPageIndices.toFinset).image fun place =>
      [2, 0, stackEntry place.1 place.2]

/-- The stacks in use have six pages each. -/
theorem kernelPlaces_card (kernelStacks : Fin maxProcesses → StackState) :
    (kernelPlaces kernelStacks).card = 5 + 6 * (usedStacks kernelStacks).card := by
  -- No page of a stack is a table.
  have apart : Disjoint ({[], [0], [1], [2], [2, 0]} : Finset (List EntryIndex))
      ((usedStacks kernelStacks ×ˢ stackPageIndices.toFinset).image fun place =>
        [2, 0, stackEntry place.1 place.2]) := by
    rw [Finset.disjoint_right]
    intro path member table
    obtain ⟨place, -, rfl⟩ := Finset.mem_image.mp member
    simp at table
  -- Each page of each stack is at a place of its own.
  rw [kernelPlaces, Finset.card_union_of_disjoint apart, Finset.card_image_of_injOn,
    Finset.card_product]
  · have pages : stackPageIndices.toFinset.card = 6 := by decide
    have tables : ({[], [0], [1], [2], [2, 0]} : Finset (List EntryIndex)).card = 5 := by decide
    rw [pages, tables]
    omega
  · rintro ⟨slot, page⟩ member ⟨other, second⟩ memberOther same
    simp only [Finset.coe_product, Set.mem_prod, Finset.mem_coe, List.mem_toFinset]
      at member memberOther
    simp only [List.cons.injEq, and_true, true_and] at same
    obtain ⟨rfl, rfl⟩ :=
      stackEntry_inj (stackPage_lt member.2).2 (stackPage_lt memberOther.2).2 same
    rfl

/-- A place of the kernel that is a page belongs to a stack in use. -/
theorem mem_kernelPlaces {path : List EntryIndex} (full : path.length = 3) :
    path ∈ kernelPlaces kernelStacks ↔
      ∃ slot page, kernelStacks slot ≠ .free ∧ page ∈ stackPageIndices ∧
        path = [2, 0, stackEntry slot page] := by
  simp only [kernelPlaces, Finset.mem_union, Finset.mem_insert, Finset.mem_singleton,
    Finset.mem_image, Finset.mem_product, List.mem_toFinset, mem_usedStacks, Prod.exists]
  constructor
  · rintro ((rfl | rfl | rfl | rfl | rfl) | ⟨slot, page, ⟨used, listed⟩, rfl⟩)
    · cases full
    · cases full
    · cases full
    · cases full
    · cases full
    · exact ⟨slot, page, used, listed, rfl⟩
  · rintro ⟨slot, page, used, listed, rfl⟩
    exact Or.inr ⟨slot, page, ⟨used, listed⟩, rfl⟩

/-- When the account of the frames says that there are no more, these are all places. -/
theorem kernelPlaces_eq (separate : Separate (child mem) 3 {kernelL1})
    {l2First l2Second : Nat} (first : child mem kernelL1 0 = some l2First)
    (second : child mem kernelL1 1 = some l2Second) {table : Nat}
    (stackTable : StackTable mem kernelL1 table (stackEntries kernelStacks))
    (count : (nodes (child mem) 3 kernelL1).ncard = 5 + 6 * (usedStacks kernelStacks).card) :
    places (child mem) 3 kernelL1 = ↑(kernelPlaces kernelStacks) := by
  -- It is enough that the places are among those of the tree, and as many.
  -- The tables lead to the pages of the stacks.
  have reached := stackTable.reached
  have indices : l1Index kernelStackRegionStart = 2 ∧ l2Index kernelStackRegionStart = 0 := by decide
  rw [indices.1, indices.2] at reached
  rw [separate.ncard_nodes] at count
  symm
  refine Set.eq_of_subset_of_ncard_le ?_ ?_ (places_finite kernelL1)
  · intro path member
    rw [Finset.mem_coe, kernelPlaces, Finset.mem_union] at member
    rcases member with upper | page
    · -- The five tables are there,
      have steps := reached
      rw [walk_cons] at steps
      obtain ⟨middle, stack, -⟩ := Option.bind_eq_some_iff.mp steps
      simp only [Finset.mem_insert, Finset.mem_singleton] at upper
      rcases upper with rfl | rfl | rfl | rfl | rfl
      · exact ⟨by simp, by simp⟩
      · exact ⟨by simp, by simp [first]⟩
      · exact ⟨by simp, by simp [second]⟩
      · exact ⟨by simp, by simp [stack]⟩
      · exact ⟨by simp, by rw [reached]; rfl⟩
    · -- and so are the pages.
      obtain ⟨place, inside, rfl⟩ := Finset.mem_image.mp page
      rw [Finset.mem_product, mem_usedStacks, List.mem_toFinset] at inside
      refine ⟨by simp, ?_⟩
      have mapped := (stackTable.mapped _).mpr ⟨place.1, inside.1, place.2, inside.2, rfl⟩
      change (walk (child mem) kernelL1 ([2, 0] ++ [_])).isSome = true
      rw [walk_snoc, reached]
      exact mapped
  · -- There are as many places as counted.
    rw [count, Set.ncard_coe_finset, kernelPlaces_card]

end Stacks

/-- What the MMU meets: frames, entries as they should be, the window, and the kernel stacks. -/
structure Kernel.Mapped (k : Kernel) (layout : KernelLayout) (roots : Set Nat) (free : List Nat)
    (managed : Set Nat) : Prop where
  owned : Owned k.alloc (insert k.kernelL1 roots) free managed
  formed : Formed (mayChange k.kernelL1) (insert k.kernelL1 roots) k.alloc.mem
  small : ∀ pa ∈ managed, pa < 2 ^ 36
  window : Window k.alloc.mem k.kernelL1 (toPhysical layout.l2First) (toPhysical layout.l2Second)
  stackPlaces : places (child k.alloc.mem) 3 k.kernelL1 = ↑(kernelPlaces k.kernelStacks)

section Runs

variable {files : String → Option (List UInt8)} {start : Kernel} {boot m : Machine}
  {layout : KernelLayout}

/-- At boot, what the kernel may change of its tables is empty. -/
theorem Kernel.Linked.formed (linked : start.Linked layout) :
    Formed (mayChange start.kernelL1) {start.kernelL1} start.alloc.mem := by
  rintro root rfl path - table reached index allowed
  have first : path.headD index = 2 := allowed rfl
  rcases linked.places reached with ⟨rfl, -⟩ | ⟨rfl, -⟩ | ⟨rfl, -⟩
  · obtain rfl : index = 2 := first
    cases reached
    rw [linked.window.2]
    exact .vacant rfl
  · exact absurd (show (0 : EntryIndex) = 2 from first) (by decide)
  · exact absurd (show (1 : EntryIndex) = 2 from first) (by decide)

/-- The pool and the tables of the kernel lie in the first gigabyte. -/
theorem Kernel.Linked.small (linked : start.Linked layout) {pa : Nat}
    (known : pa ∈ start.knownFrames layout.firstFrame lastFrameLimit) : pa < 2 ^ 36 := by
  rcases known with managed | ⟨path, -, reached⟩
  · have low := (layout.managed_above managed).2
    omega
  · have low := (layout.tables_frame (linked.node_table reached)).2
    omega

/-- At boot the kernel has three tables. -/
theorem Kernel.Linked.tables_card (linked : start.Linked layout) :
    (nodes (child start.alloc.mem) 3 start.kernelL1).ncard = 3 := by
  obtain ⟨window, -⟩ := linked.window
  -- The nodes are the tables of the linked image.
  have nodes_eq : nodes (child start.alloc.mem) 3 start.kernelL1 = ↑layout.tables.toFinset := by
    ext pa
    rw [List.coe_toFinset]
    constructor
    · rintro ⟨path, -, reached⟩
      exact linked.node_table reached
    · intro listed
      -- The first two entries of the root lead to the other two tables.
      have first := child_linked (layout.window_frames _ (by simp)).1 window.linkedFirst
      have second := child_linked (layout.window_frames _ (by simp)).1 window.linkedSecond
      change pa ∈ layout.tables at listed
      simp only [KernelLayout.tables, List.map_cons, List.map_nil, List.mem_cons,
        List.not_mem_nil, or_false] at listed
      rcases listed with rfl | rfl | rfl
      · exact linked.kernelL1 ▸ root_mem_nodes _
      · exact ⟨[0], by simp, by simp [first]⟩
      · exact ⟨[1], by simp, by simp [second]⟩
  rw [nodes_eq, Set.ncard_coe_finset, List.toFinset_card_of_nodup layout.tables_nodup]
  rfl

/-- In a run, the kernel keeps its window, and adds no more than the kernel stacks to it. -/
theorem Machine.Runs.mapped (run : Machine.Runs files (Machine.ExecsWell files) boot m)
    (booted : Machine.Booted files start boot) (linked : start.Linked layout)
    (staysInside : ∀ path bytes, files path = some bytes → ElfStaysInside bytes) :
    m.Valid ∧ ∃ roots free managed, m.Owns roots free managed ∧
      m.kernel.Mapped layout roots free managed := by
  have prepared := linked.prepared
  obtain ⟨valid, ⟨roots, free, owns⟩, moves, kernelL1⟩ := run.moves booted prepared staysInside
  obtain ⟨-, -, -, -, tallied⟩ := run.tallied booted prepared
    fun path bytes file => (staysInside path bytes file).loadsFresh
  obtain ⟨freeStart, ownedStart, -⟩ := prepared.owned
  rw [Resources.pool_eq owns.sound.assigned.spaces_eq] at moves
  -- Every entry that may change is as the allocator leaves it,
  have formed : Formed (mayChange start.kernelL1) (insert m.kernel.kernelL1 roots)
      m.kernel.alloc.mem := Pool.Moves.formed moves ownedStart linked.formed
  rw [← kernelL1] at formed
  -- and every other entry is as it was at boot.
  have never : ¬ mayChange start.kernelL1 start.kernelL1 0 := by
    intro allowed
    exact absurd (allowed rfl) (by decide)
  obtain ⟨-, frozen⟩ := Pool.Moves.frozen moves ownedStart never rfl
  have frames : ∀ table ∈ [toPhysical layout.l2First, toPhysical layout.l2Second], IsFrame table :=
    fun table listed => (layout.window_frames table listed).1
  have window : Window m.kernel.alloc.mem start.kernelL1 (toPhysical layout.l2First)
      (toPhysical layout.l2Second) :=
    linked.window.1.kept frames fun path short table reached index apart =>
      (frozen path short table reached index fun allowed => apart (allowed rfl)).2
  rw [← kernelL1] at window
  -- The places of the kernel follow from their number.
  have accounted := owns.sound.accounted
  obtain ⟨table, stackTable⟩ := accounted.table
  have separate : Separate (child m.kernel.alloc.mem) 3 {m.kernel.kernelL1} :=
    accounted.owned.separate.mono (Set.singleton_subset_iff.mpr (Set.mem_insert _ _))
  have count : (nodes (child m.kernel.alloc.mem) 3 m.kernel.kernelL1).ncard =
      5 + 6 * (usedStacks m.kernel.kernelStacks).card := by
    have tally : (nodes (child m.kernel.alloc.mem) 3 m.kernel.kernelL1).ncard = _ := tallied.kernel
    rw [tally, linked.tables_card]
    rfl
  exact ⟨valid, roots, free, _, owns, accounted.owned, formed, fun pa known => linked.small known,
    window, kernelPlaces_eq separate (child_linked (frames _ (by simp)) window.linkedFirst)
      (child_linked (frames _ (by simp)) window.linkedSecond) stackTable count⟩

end Runs

section Halves

variable {k : Kernel} {layout : KernelLayout} {roots : Set Nat} {free : List Nat}
  {managed : Set Nat} {va ttbr0 : Nat}

/-- The root of the kernel is a frame. -/
theorem Kernel.Mapped.kernelL1_frame (mapped : k.Mapped layout roots free managed) :
    IsFrame k.kernelL1 :=
  mapped.owned.frames _ (mapped.owned.root_managed (Set.mem_insert _ _))

/-- An address of the lower half, with the table of a program. -/
theorem Kernel.Mapped.translates_low (mapped : k.Mapped layout roots free managed)
    (live : ttbr0 ∈ roots) (notKernel : ttbr0 ≠ k.kernelL1) (low : va < 2 ^ 39) :
    match ttbr0ToPa k.alloc.mem va ttbr0 with
    | some pa => Translates k.alloc.mem ttbr0 k.kernelL1 va pa 0xFF PageAllows
    | none => Faults k.alloc.mem ttbr0 k.kernelL1 va := by
  have member : ttbr0 ∈ insert k.kernelL1 roots := Set.mem_insert_of_mem _ live
  have isFrame := mapped.owned.frames _ (mapped.owned.root_managed member)
  exact mapped.owned.translates_program mapped.formed member (mayChange_other notKernel _)
    mapped.small (lookup_low isFrame low)

/-- An address in a kernel stack in use, above the guard page. -/
def Kernel.OnStack (k : Kernel) (va : Nat) : Prop :=
  ∃ slot, k.kernelStacks slot ≠ .free ∧ kernelStackStart slot + 4096 ≤ va ∧
    va < kernelStackTop slot

/-- The path of an address leads through the table of the stacks if it is on one of them. -/
theorem Kernel.onStack_iff (high : 0xFFFFFF8000000000 ≤ va) (fits : va < 2 ^ 64) :
    k.OnStack va ↔ pagePath va ∈ kernelPlaces k.kernelStacks := by
  -- The three indices are digits of the address.
  have first : (l1Index va).val = va / 2 ^ 30 % 512 := tableIndex_val va 30
  have second : (l2Index va).val = va / 2 ^ 21 % 512 := tableIndex_val va 21
  have third : (l3Index va).val = va / 2 ^ 12 % 512 := tableIndex_val va 12
  rw [mem_kernelPlaces (pagePath_length va)]
  constructor
  · rintro ⟨slot, used, above, below⟩
    -- The page is the one that the distance from the start of the stack says.
    have bound := slot.isLt
    have page : (va - kernelStackStart slot) / 4096 < 7 ∧ 1 ≤ (va - kernelStackStart slot) / 4096 := by
      simp only [kernelStackTop, kernelStackSize] at below
      omega
    refine ⟨slot, (va - kernelStackStart slot) / 4096, used, ?_, ?_⟩
    · simp only [stackPageIndices, List.mem_cons, List.not_mem_nil, or_false]
      omega
    · -- The indices are those of the page, since slots are seven pages apart.
      have entry := stackEntry_val slot page.1
      simp only [kernelStackTop, kernelStackStart, kernelStackRegionStart, kernelStackSize,
        maxProcesses] at above below bound entry
      rw [pagePath, List.cons.injEq, List.cons.injEq, List.cons.injEq]
      refine ⟨Fin.ext ?_, Fin.ext ?_, Fin.ext ?_, rfl⟩
      · rw [first]
        show _ = 2
        omega
      · rw [second]
        show _ = 0
        omega
      · rw [third, kernelStackStart, kernelStackRegionStart, kernelStackSize, entry]
        omega
  · rintro ⟨slot, page, used, listed, path⟩
    -- The path leads to a page of the slot, and the address is on that page.
    obtain ⟨one, small⟩ := stackPage_lt listed
    rw [pagePath, List.cons.injEq, List.cons.injEq, List.cons.injEq] at path
    obtain ⟨atFirst, atSecond, atThird, -⟩ := path
    have entry := stackEntry_val slot small
    rw [← atThird, third] at entry
    rw [atFirst] at first
    rw [atSecond] at second
    have two : ((2 : EntryIndex) : Nat) = 2 := rfl
    have zero : ((0 : EntryIndex) : Nat) = 0 := rfl
    refine ⟨slot, used, ?_, ?_⟩
    · simp only [kernelStackStart, kernelStackRegionStart, kernelStackSize]
      omega
    · simp only [kernelStackTop, kernelStackStart, kernelStackRegionStart, kernelStackSize]
      omega

/-- An address of the upper half, whatever the table of the lower one is. -/
theorem Kernel.Mapped.translates_high (mapped : k.Mapped layout roots free managed)
    (high : 0xFFFFFF8000000000 ≤ va) (fits : va < 2 ^ 64) (ttbr0 : Nat) :
    (ttbr1ToPa va < 2 ^ 31 → Translates k.alloc.mem ttbr0 k.kernelL1 va (ttbr1ToPa va)
      (windowMemory (ttbr1ToPa va)) (WindowAllows (ttbr1ToPa va))) ∧
    (2 ^ 31 ≤ ttbr1ToPa va → k.OnStack va → ∃ pa, ttbr0ToPa k.alloc.mem va k.kernelL1 = some pa ∧
      Translates k.alloc.mem ttbr0 k.kernelL1 va pa 0xFF PageAllows) ∧
    (2 ^ 31 ≤ ttbr1ToPa va → ¬ k.OnStack va → ttbr0ToPa k.alloc.mem va k.kernelL1 = none ∧
      Faults k.alloc.mem ttbr0 k.kernelL1 va) := by
  have looked := @lookup_high k.alloc.mem ttbr0 k.kernelL1 va mapped.kernelL1_frame high
  have index : (l1Index va).val = va / 2 ^ 30 % 512 := tableIndex_val va 30
  rw [ttbr1ToPa_eq]
  -- Pages of the kernel are those of the stacks.
  have pages : (ttbr0ToPa k.alloc.mem va k.kernelL1).isSome ↔ k.OnStack va := by
    rw [ttbr0ToPa_isSome, leafOf, Kernel.onStack_iff high fits, ← Finset.mem_coe,
      ← mapped.stackPlaces]
    exact ⟨fun reached => ⟨by simp, reached⟩, fun place => place.2⟩
  refine ⟨fun inside => ?_, fun beyond onStack => ?_, fun beyond offStack => ?_⟩
  · -- Below two gigabytes it is the window that decides.
    exact mapped.window.translates layout.window_frames inside looked
  · obtain ⟨pa, found⟩ := Option.isSome_iff_exists.mp (pages.mpr onStack)
    -- The pages of stacks are below the third entry.
    have first : l1Index va = 2 := by
      have place := (Kernel.onStack_iff high fits).mp onStack
      obtain ⟨slot, page, -, -, path⟩ := (mem_kernelPlaces (pagePath_length va)).mp place
      exact (List.cons.inj path).1
    have allowed : mayChange k.kernelL1 k.kernelL1 (l1Index va) := fun _ => first
    have translates := mapped.owned.translates_program mapped.formed (Set.mem_insert _ _) allowed
      mapped.small looked
    rw [found] at translates
    exact ⟨pa, found, translates⟩
  · have unmapped : ttbr0ToPa k.alloc.mem va k.kernelL1 = none := by
      rw [← Option.not_isSome_iff_eq_none, pages]
      exact offStack
    refine ⟨unmapped, ?_⟩
    rcases Nat.lt_or_ge (va % 2 ^ 39) (3 * 2 ^ 30) with inside | behind
    · -- In the gigabyte of the stacks, the walk of the MMU is that of the kernel.
      have first : l1Index va = 2 := Fin.ext (by
        rw [index]
        show _ = 2
        omega)
      have allowed : mayChange k.kernelL1 k.kernelL1 (l1Index va) := fun _ => first
      have faults := mapped.owned.translates_program mapped.formed (Set.mem_insert _ _) allowed
        mapped.small looked
      rw [unmapped] at faults
      exact faults
    · -- Behind the stacks nothing is linked.
      obtain ⟨fault, stopped⟩ := mapped.window.walk_behind behind
      exact faults_of_lookup (looked.trans stopped)

/-- The frame of a page has one place in the pool: the path of the page. -/
theorem Owned.holds_alone {alloc : PageAllocator} {roots : Set Nat} {free : List Nat}
    {managed : Set Nat} {root va pa : Nat} (owned : Owned alloc roots free managed)
    (live : root ∈ roots) (found : ttbr0ToPa alloc.mem va root = some pa) (place : Place) :
    Pool.Holds ⟨alloc, roots⟩ free place (pa / 4096 * 4096) ↔
      place = .node root (pagePath va) := by
  rw [ttbr0ToPa_eq] at found
  obtain ⟨leaf, reached, same⟩ := Option.map_eq_some_iff.mp found
  have node : leaf ∈ nodes (child alloc.mem) 3 root := node_of_walk (by simp) reached
  have aligned := (owned.node_frame live node).1
  have isLeaf : pa / 4096 * 4096 = leaf := by omega
  rw [isLeaf]
  constructor
  · intro holds
    cases place with
    | free position =>
      -- A frame in a tree is not free,
      exact absurd (List.mem_of_getElem? holds) (owned.apart root live leaf node)
    | node other path =>
      -- and it is in one tree only, at one path.
      obtain ⟨liveOther, short, reachedOther⟩ := holds
      obtain ⟨rfl, rfl⟩ := owned.separate liveOther live short (by simp) reachedOther reached
      rfl
  · rintro rfl
    exact ⟨live, by simp, reached⟩

end Halves

section Small

/-- `init_frames` gets so many frames. -/
theorem managedFrames_ncard {first limit : Nat} (aligned : first % 4096 = 0)
    (window : 0xffffff8000000000 ≤ first) (bound : limit ≤ 2 ^ 64) :
    (managedFrames first limit).ncard = (limit - first + 4095) / 4096 := by
  obtain ⟨frames, nodup, -, vas, exact⟩ := frameVas_eq aligned window bound
  have count := congrArg List.length vas
  rw [frameVas, List.length_map, List.length_range, List.length_map] at count
  have same : managedFrames first limit = ↑frames.toFinset := by
    ext pa
    rw [List.coe_toFinset]
    exact (exact pa).symm
  rw [same, Set.ncard_coe_finset, List.toFinset_card_of_nodup nodup, count]

/-- The statics of the small kernel before `init`. -/
def smallStart : Kernel :=
  { wordsStart with
    kernelL1 := toPhysical smallLayout.l1
    alloc := initFrames smallLayout.firstFrame lastFrameLimit
      { mem := linkKernelTables smallLayout smallImage
        freeFrameList := ⟨0, 0⟩
        freeFrameCount := 0
        totalFrameCount := 0 } }

/-- The kernel with the small layout is a linked one. -/
theorem smallStart_linked : smallStart.Linked smallLayout :=
  ⟨rfl, smallImage, _, ⟨0, 0⟩, smallImage_static, fun _ _ _ _ => rfl, rfl, rfl, by decide, rfl⟩

/-- The small kernel boots, with the program of one page as `init`. -/
theorem smallStart_boots : ∃ boot, Machine.Booted wordsFiles smallStart boot := by
  have prepared := smallStart_linked.prepared
  have fresh : smallStart.Fresh :=
    ⟨fun _ => rfl, rfl, rfl, rfl, rfl, fun _ => rfl, fun _ => rfl, rfl⟩
  -- There are frames enough for the image of the program.
  obtain ⟨free, owned, length⟩ := prepared.owned
  have count : smallStart.alloc.freeFrameCount =
      (lastFrameLimit - smallLayout.firstFrame + 4095) / 4096 := by
    rw [owned.count, length]
    exact managedFrames_ncard smallStart_linked.booted.aligned smallStart_linked.booted.window
      smallStart_linked.booted.limit_le
  refine prepared.boots fresh rfl wordsElf_wellFormed wordsElf_contained
    (by rw [wordsElf_segments]; simp) ?_
  rw [wordsElf_framesNeeded, count]
  decide

end Small

section Main

variable {files : String → Option (List UInt8)} {start : Kernel} {boot m : Machine}
  {layout : KernelLayout} {roots : Set Nat} {free : List Nat} {managed : Set Nat}
  {slot : Fin maxProcesses} {process : Process} {frame : ExceptionContext} {va : Nat}

/-- The table of a process that is alive is one of the address spaces, and not the kernel's. -/
theorem Machine.Owns.process_live (owns : m.Owns roots free managed) (valid : m.Valid)
    (there : m.kernel.processTable slot = some process) (alive : process.state ≠ .terminated) :
    process.pctx.ttbr0.toNat ∈ roots ∧ process.pctx.ttbr0.toNat ≠ m.kernel.kernelL1 := by
  have holds := Kernel.holding_slot valid.distinct there alive
  have live : process.pctx.ttbr0.toNat ∈ roots := owns.sound.assigned.live holds
  exact ⟨live, (owns.sound.accounted.ne_kernel live).symm⟩

/-- A program runs with the table of its process. -/
theorem Machine.Owns.running_live (owns : m.Owns roots free managed) (valid : m.Valid)
    (running : m.control = .user frame) :
    frame.ttbr0.toNat ∈ roots ∧ frame.ttbr0.toNat ≠ m.kernel.kernelL1 := by
  -- The process that the CPU works for goes on with the registers of the CPU.
  obtain ⟨self, runs⟩ := valid.user running
  have here : m.running = some self.pid := by
    unfold Machine.running
    rw [running]
    exact runs.currentPid
  obtain ⟨held, holds, same⟩ := (owns.based (Machine.base_running here)).table
  have table : held.ttbr0.toNat = frame.ttbr0.toNat := by
    rw [same, running]
    rfl
  have live := owns.sound.assigned.live holds
  rw [table] at live
  exact ⟨live, (owns.sound.accounted.ne_kernel live).symm⟩

/-- In the small kernel, the program comes to run, as a process with a kernel stack. -/
theorem smallStart_runs : ∃ (boot m : Machine) (frame : ExceptionContext)
    (slot : Fin maxProcesses) (process : Process) (stack : Fin maxProcesses),
    Machine.Booted wordsFiles smallStart boot ∧
      Machine.Runs wordsFiles
        (fun m action => m.ExecsWell wordsFiles action ∧ m.SparesStacks action) boot m ∧
      m.control = .user frame ∧ m.kernel.processTable slot = some process ∧
      process.state ≠ .terminated ∧ m.kernel.OnStack (kernelStackStart stack + 4096) := by
  obtain ⟨boot, booted⟩ := smallStart_boots
  -- The first pass over the table loads `init`.
  obtain ⟨init, context, frame, step, running, -⟩ := booted.schedules
  generalize boot.loaded ⟨0, by decide⟩ init context = m at step running
  have noExec : boot.ExecsWell wordsFiles (.schedule false) := fun same => nomatch same
  have noStore : boot.SparesStacks (.schedule false) := fun _ _ _ same => nomatch same
  have run : Machine.Runs wordsFiles
      (fun m action => m.ExecsWell wordsFiles action ∧ m.SparesStacks action) boot m :=
    .single ⟨_, ⟨noExec, noStore⟩, step⟩
  obtain ⟨valid, roots, free, managed, owns, -⟩ :=
    (run.weaken fun _ _ => And.left).mapped booted smallStart_linked wordsFiles_staysInside
  -- The process that runs has a slot and a stack.
  obtain ⟨self, runs⟩ := valid.user running
  obtain ⟨slot, process, there, -, alive, -⟩ := Kernel.slot_of_holding runs.holding
  obtain ⟨stack, allocated⟩ := owns.sound.assigned.backed
    (Option.isSome_iff_exists.mpr ⟨_, runs.holding⟩)
  have used : m.kernel.kernelStacks stack = .allocated self.pid := allocated
  refine ⟨boot, m, frame, slot, process, stack, booted, run, running, there, alive, stack, ?_,
    le_refl _, ?_⟩
  · rw [used]
    exact StackState.noConfusion
  · -- The second page of a slot is the first page of the stack.
    simp only [kernelStackTop, kernelStackSize]
    omega

/--
In every run in which no `exec` fails, the MMU agrees with the kernel about the lower half.

With the table of any process that is alive, an access gets to the address that `ttbr0_to_pa`
computes, in normal memory, unless the kernel fetches an instruction there; and where
`ttbr0_to_pa` finds nothing, every access faults.
-/
theorem Machine.Booted.translatesPrograms (booted : Machine.Booted files start boot)
    (linked : start.Linked layout)
    (staysInside : ∀ path bytes, files path = some bytes → ElfStaysInside bytes)
    (run : Machine.Runs files (Machine.ExecsWell files) boot m)
    (there : m.kernel.processTable slot = some process) (alive : process.state ≠ .terminated)
    (low : va < 2 ^ 39) :
    match ttbr0ToPa m.kernel.alloc.mem va process.pctx.ttbr0.toNat with
    | some pa => Translates m.kernel.alloc.mem process.pctx.ttbr0.toNat m.kernel.kernelL1 va pa 0xFF
        PageAllows
    | none => Faults m.kernel.alloc.mem process.pctx.ttbr0.toNat m.kernel.kernelL1 va := by
  obtain ⟨valid, roots, free, managed, owns, mapped⟩ := run.mapped booted linked staysInside
  obtain ⟨live, notKernel⟩ := owns.process_live valid there alive
  exact mapped.translates_low live notKernel low

/-- The MMU and the small kernel agree about the address at which the program is loaded. -/
theorem translatesPrograms_small : ∃ (m : Machine) (slot : Fin maxProcesses) (process : Process),
    m.kernel.processTable slot = some process ∧ process.state ≠ .terminated ∧
    match ttbr0ToPa m.kernel.alloc.mem 0x100 process.pctx.ttbr0.toNat with
    | some pa => Translates m.kernel.alloc.mem process.pctx.ttbr0.toNat m.kernel.kernelL1 0x100 pa
        0xFF PageAllows
    | none => Faults m.kernel.alloc.mem process.pctx.ttbr0.toNat m.kernel.kernelL1 0x100 := by
  obtain ⟨boot, m, -, slot, process, -, booted, run, -, there, alive, -⟩ := smallStart_runs
  exact ⟨m, slot, process, there, alive, booted.translatesPrograms smallStart_linked
    wordsFiles_staysInside (run.weaken fun _ _ => And.left) there alive (by decide)⟩

/--
In every run in which no `exec` fails, the upper half is the window and the kernel stacks in use.

The first 2 GB are physical memory as it is, for the kernel only, and executable below the devices;
behind them the pages of the kernel stacks in use are open to programs as well, and nothing else
is mapped.
-/
theorem Machine.Booted.translatesKernel (booted : Machine.Booted files start boot)
    (linked : start.Linked layout)
    (staysInside : ∀ path bytes, files path = some bytes → ElfStaysInside bytes)
    (run : Machine.Runs files (Machine.ExecsWell files) boot m)
    (high : 0xFFFFFF8000000000 ≤ va) (fits : va < 2 ^ 64) (ttbr0 : Nat) :
    (ttbr1ToPa va < 2 ^ 31 → Translates m.kernel.alloc.mem ttbr0 m.kernel.kernelL1 va (ttbr1ToPa va)
      (windowMemory (ttbr1ToPa va)) (WindowAllows (ttbr1ToPa va))) ∧
    (2 ^ 31 ≤ ttbr1ToPa va → m.kernel.OnStack va →
      ∃ pa, ttbr0ToPa m.kernel.alloc.mem va m.kernel.kernelL1 = some pa ∧
        Translates m.kernel.alloc.mem ttbr0 m.kernel.kernelL1 va pa 0xFF PageAllows) ∧
    (2 ^ 31 ≤ ttbr1ToPa va → ¬ m.kernel.OnStack va →
      Faults m.kernel.alloc.mem ttbr0 m.kernel.kernelL1 va) := by
  obtain ⟨-, roots, free, managed, -, mapped⟩ := run.mapped booted linked staysInside
  obtain ⟨window, onStack, offStack⟩ := mapped.translates_high high fits ttbr0
  exact ⟨window, onStack, fun beyond off => (offStack beyond off).2⟩

/-- The lowest page of a kernel stack lies in the gigabyte behind the window. -/
theorem stackPage_beyond (stack : Fin maxProcesses) :
    0xFFFFFF8000000000 ≤ kernelStackStart stack + 4096 ∧ kernelStackStart stack + 4096 < 2 ^ 64 ∧
      2 ^ 31 ≤ ttbr1ToPa (kernelStackStart stack + 4096) := by
  have bound := stack.isLt
  rw [ttbr1ToPa_eq]
  simp only [kernelStackStart, kernelStackRegionStart, kernelStackSize, maxProcesses] at bound ⊢
  have half : (0xFFFFFF8080000000 + stack.val * 0x7000 + 4096) / 2 ^ 39 = 2 ^ 25 - 1 :=
    Nat.div_eq_of_lt_le (by omega) (by omega)
  omega

/-- In the small kernel, programs may read and write the kernel stack of the program. -/
theorem translatesKernel_small : ∃ (m : Machine) (stack : Fin maxProcesses) (pa : Nat),
    m.kernel.OnStack (kernelStackStart stack + 4096) ∧
    Translates m.kernel.alloc.mem 0 m.kernel.kernelL1 (kernelStackStart stack + 4096) pa 0xFF
      PageAllows := by
  obtain ⟨boot, m, -, -, -, stack, booted, run, -, -, -, onStack⟩ := smallStart_runs
  obtain ⟨high, fits, beyond⟩ := stackPage_beyond stack
  obtain ⟨-, pages, -⟩ := booted.translatesKernel smallStart_linked wordsFiles_staysInside
    (run.weaken fun _ _ => And.left) high fits 0
  obtain ⟨pa, -, translates⟩ := pages beyond onStack
  exact ⟨m, stack, pa, onStack, translates⟩

/--
In every run in which no `exec` fails, a program gets to its own pages and to kernel stacks only.

Whatever it accesses and in whichever way, it is a page of its own address space, or one of a
kernel stack in use. The frame has this one place in the pool: it is not free, holds no table, and
is no page of another process. This lasts as long as no program writes to a kernel stack, where the
frames lie that the kernel returns with.
-/
theorem Machine.Booted.confinesPrograms (booted : Machine.Booted files start boot)
    (linked : start.Linked layout)
    (staysInside : ∀ path bytes, files path = some bytes → ElfStaysInside bytes)
    (run : Machine.Runs files
      (fun m action => m.ExecsWell files action ∧ m.SparesStacks action) boot m)
    (running : m.control = .user frame) (fits : va < 2 ^ 64) {access : Access}
    {leaf : Stage1.Leaf}
    (reached : translate m.kernel.alloc.mem frame.ttbr0.toNat m.kernel.kernelL1 va .el0 access =
      .ok leaf) :
    ∃ free root, FreeChain m.kernel.alloc.mem m.kernel.alloc.freeFrameList free ∧
      (va < 2 ^ 39 ∧ root = frame.ttbr0.toNat ∨ m.kernel.OnStack va ∧ root = m.kernel.kernelL1) ∧
      ∀ place, Pool.Holds ⟨m.kernel.alloc, m.kernel.topTables⟩ free place
        (leaf.address / 4096 * 4096) ↔ place = .node root (pagePath va) := by
  have wellExeced := run.weaken fun _ _ => And.left
  obtain ⟨valid, roots, free, managed, owns, mapped⟩ := wellExeced.mapped booted linked staysInside
  obtain ⟨live, notKernel⟩ := owns.running_live valid running
  -- The tables in use are the roots that the frames are accounted for.
  have topTables : m.kernel.topTables = insert m.kernel.kernelL1 roots := by
    have pool := Kernel.resources_pool valid.distinct
    rw [Resources.pool_eq owns.sound.assigned.spaces_eq] at pool
    exact (congrArg Pool.live pool).symm
  rw [topTables]
  have chain := mapped.owned.chain
  rcases Nat.lt_or_ge va (2 ^ 39) with low | above
  · -- Below the gap, it is the program's own table that decides,
    have translates := mapped.translates_low live notKernel low
    cases found : ttbr0ToPa m.kernel.alloc.mem va frame.ttbr0.toNat with
    | none =>
      rw [found] at translates
      exact absurd reached translates.reached
    | some pa =>
      rw [found] at translates
      obtain ⟨-, rfl⟩ := translates.reached reached
      exact ⟨free, _, chain, Or.inl ⟨low, rfl⟩,
        mapped.owned.holds_alone (Set.mem_insert_of_mem _ live) found⟩
  · -- and above it the kernel's.
    rcases Nat.lt_or_ge va 0xFFFFFF8000000000 with below | high
    · exact absurd reached (faults_between above below).reached
    · obtain ⟨window, onStack, offStack⟩ := mapped.translates_high high fits frame.ttbr0.toNat
      rcases Nat.lt_or_ge (ttbr1ToPa va) (2 ^ 31) with inside | beyond
      · -- The window is closed to programs.
        exact absurd ((window inside).reached reached).1.1 (by decide)
      · by_cases there : m.kernel.OnStack va
        · obtain ⟨pa, found, translates⟩ := onStack beyond there
          obtain ⟨-, rfl⟩ := translates.reached reached
          exact ⟨free, _, chain, Or.inr ⟨there, rfl⟩,
            mapped.owned.holds_alone (Set.mem_insert _ _) found⟩
        · exact absurd reached (offStack beyond there).2.reached

/-- In the small kernel, the program gets to its kernel stack, and to one frame there. -/
theorem confinesPrograms_small : ∃ (m : Machine) (frame : ExceptionContext) (va : Nat)
    (leaf : Stage1.Leaf), m.control = .user frame ∧
    translate m.kernel.alloc.mem frame.ttbr0.toNat m.kernel.kernelL1 va .el0 .write = .ok leaf ∧
    ∃ free root, FreeChain m.kernel.alloc.mem m.kernel.alloc.freeFrameList free ∧
      (va < 2 ^ 39 ∧ root = frame.ttbr0.toNat ∨ m.kernel.OnStack va ∧ root = m.kernel.kernelL1) ∧
      ∀ place, Pool.Holds ⟨m.kernel.alloc, m.kernel.topTables⟩ free place
        (leaf.address / 4096 * 4096) ↔ place = .node root (pagePath va) := by
  obtain ⟨boot, m, frame, -, -, stack, booted, run, running, -, -, onStack⟩ := smallStart_runs
  obtain ⟨-, roots, free, managed, -, mapped⟩ :=
    (run.weaken fun _ _ => And.left).mapped booted smallStart_linked wordsFiles_staysInside
  obtain ⟨high, fits, beyond⟩ := stackPage_beyond stack
  obtain ⟨pa, -, leaf, -, -, decides⟩ :=
    (mapped.translates_high high fits frame.ttbr0.toNat).2.1 beyond onStack
  have reached := (decides .el0 .write).1 (fun both => Privilege.noConfusion both.1)
  exact ⟨m, frame, _, leaf, running, reached, booted.confinesPrograms smallStart_linked
    wordsFiles_staysInside run running fits reached⟩

end Main

end AtOS
