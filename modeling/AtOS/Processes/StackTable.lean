import AtOS.Library.Loop
import AtOS.Paging.Kept
import AtOS.Processes.KernelStack

/-! The pages of the kernel stacks: one table of the kernel's own address space maps all of them. -/

namespace AtOS

open ByteMemory RadixForest

/-- The entry of a page of a kernel stack, in the last table. -/
def stackEntry (slot : Fin maxProcesses) (page : Nat) : EntryIndex :=
  l3Index (kernelStackStart slot + page * 4096)

/-- The entries that belong to some pages of a slot. -/
def slotEntries (slot : Fin maxProcesses) (pages : List Nat) : Set EntryIndex :=
  { index | ∃ page ∈ pages, index = stackEntry slot page }

/-- The entries that are in use: those of all pages of the slots that are not free, but the guards. -/
def stackEntries (kernelStacks : Fin maxProcesses → StackState) : Set EntryIndex :=
  { index | ∃ slot, kernelStacks slot ≠ .free ∧ index ∈ slotEntries slot stackPageIndices }

/-- The table that maps the pages of the kernel stacks, and which of its entries are mapped. -/
structure StackTable (mem : Mem) (kernelL1 table : Nat) (entries : Set EntryIndex) : Prop where
  reached : walk (child mem) kernelL1
    [l1Index kernelStackRegionStart, l2Index kernelStackRegionStart] = some table
  mapped : ∀ index, (child mem table index).isSome ↔ index ∈ entries

section Addresses

variable {slot other : Fin maxProcesses} {page second : Nat}

/-- The pages of a slot, with the guard. -/
theorem stackPage_lt (listed : page ∈ stackPageIndices) : 1 ≤ page ∧ page < 7 := by
  simp only [stackPageIndices, List.mem_cons, List.not_mem_nil, or_false] at listed
  omega

/-- Each slot has seven entries of the table. -/
theorem stackEntry_val (slot : Fin maxProcesses) (small : page < 7) :
    (stackEntry slot page).val = slot.val * 7 + page := by
  have bound := slot.isLt
  rw [stackEntry, l3Index, tableIndex_val]
  simp only [kernelStackStart, kernelStackRegionStart, kernelStackSize, maxProcesses] at bound ⊢
  omega

/-- Different pages have different entries. -/
theorem stackEntry_inj (small : page < 7) (smallSecond : second < 7)
    (same : stackEntry slot page = stackEntry other second) : slot = other ∧ page = second := by
  have values := congrArg Fin.val same
  rw [stackEntry_val slot small, stackEntry_val other smallSecond] at values
  exact ⟨Fin.ext (by omega), by omega⟩

/-- All kernel stacks lie below one entry of the two upper tables. -/
theorem stackPage_upper (slot : Fin maxProcesses) (offset : Nat) (inside : offset ≤ kernelStackSize) :
    l1Index (kernelStackStart slot + offset) = l1Index kernelStackRegionStart ∧
      l2Index (kernelStackStart slot + offset) = l2Index kernelStackRegionStart := by
  have bound := slot.isLt
  simp only [kernelStackSize, maxProcesses] at inside bound
  -- The region is aligned to 2 MB, and all stacks together are smaller.
  have first : (kernelStackStart slot + offset) / 2 ^ 30 = kernelStackRegionStart / 2 ^ 30 := by
    simp only [kernelStackStart, kernelStackRegionStart, kernelStackSize, Nat.reducePow,
      Nat.reduceDiv]
    omega
  have next : (kernelStackStart slot + offset) / 2 ^ 21 = kernelStackRegionStart / 2 ^ 21 := by
    simp only [kernelStackStart, kernelStackRegionStart, kernelStackSize, Nat.reducePow,
      Nat.reduceDiv]
    omega
  constructor
  · rw [l1Index, l1Index, Fin.ext_iff, tableIndex_val, tableIndex_val, first]
  · rw [l2Index, l2Index, Fin.ext_iff, tableIndex_val, tableIndex_val, next]

/-- The path to a page of a slot. -/
theorem stackPage_path (slot : Fin maxProcesses) (small : page < 7) :
    pagePath (kernelStackStart slot + page * 4096) =
      [l1Index kernelStackRegionStart, l2Index kernelStackRegionStart, stackEntry slot page] := by
  have inside : page * 4096 ≤ kernelStackSize := by
    simp only [kernelStackSize]
    omega
  obtain ⟨first, next⟩ := stackPage_upper slot _ inside
  rw [pagePath, first, next, stackEntry]

/-- The word that tests a new stack lies in its last page. -/
theorem stackProbe_path (slot : Fin maxProcesses) :
    pagePath (kernelStackTop slot - 0x10) = pagePath (kernelStackStart slot + 6 * 4096) := by
  refine pagePath_of_page ?_
  simp only [kernelStackTop, kernelStackStart, kernelStackRegionStart, kernelStackSize]
  omega

end Addresses

section Table

variable {alloc : PageAllocator} {roots : Set Nat} {free rest : List Nat} {managed : Set Nat}
  {kernelL1 table : Nat} {entries : Set EntryIndex} {slot : Fin maxProcesses}

/-- A page of a slot is mapped if its entry is in use. -/
theorem StackTable.leafOf_eq {mem : Mem} (there : StackTable mem kernelL1 table entries)
    (slot : Fin maxProcesses) {page : Nat} (small : page < 7) :
    leafOf mem kernelL1 (kernelStackStart slot + page * 4096) =
      child mem table (stackEntry slot page) := by
  rw [leafOf, stackPage_path slot small]
  show walk (child mem) kernelL1 ([l1Index kernelStackRegionStart, l2Index kernelStackRegionStart] ++
    [stackEntry slot page]) = _
  rw [walk_snoc, there.reached]
  rfl

/-- The table is a frame of the kernel's own address space. -/
theorem StackTable.node {mem : Mem} (there : StackTable mem kernelL1 table entries) :
    table ∈ nodes (child mem) 3 kernelL1 := node_of_walk (by simp) there.reached

/-- Memory that keeps the kernel's tables keeps the table of the stacks. -/
theorem StackTable.congr {mem next : Mem} (there : StackTable mem kernelL1 table entries)
    (same : ∀ node ∈ tables (child mem) 3 kernelL1, Set.EqOn next mem (frame node)) :
    StackTable next kernelL1 table entries := by
  constructor
  · rw [walk_congr (fun node member => child_congr (same node member)) _ (by simp)]
    exact there.reached
  · intro index
    rw [child_congr (same table ⟨_, by simp, there.reached⟩)]
    exact there.mapped index

/-- What a change of the pages of stacks leaves behind: all other address spaces are kept. -/
structure StackRemapped (alloc after : PageAllocator) (roots : Set Nat) (rest : List Nat)
    (managed : Set Nat) (kernelL1 table : Nat) (entries : Set EntryIndex) : Prop where
  owned : Owned after roots rest managed
  total : after.totalFrameCount = alloc.totalFrameCount
  there : StackTable after.mem kernelL1 table entries
  kept : Kept alloc.mem after.mem (roots \ {kernelL1})

/-- One change follows another. -/
theorem StackRemapped.trans {middle after : PageAllocator} {roots : Set Nat} {rest left : List Nat}
    {managed : Set Nat} {kernelL1 table : Nat} {entries final : Set EntryIndex}
    {alloc : PageAllocator}
    (first : StackRemapped alloc middle roots rest managed kernelL1 table entries)
    (second : StackRemapped middle after roots left managed kernelL1 table final) :
    StackRemapped alloc after roots left managed kernelL1 table final :=
  ⟨second.owned, second.total.trans first.total, second.there, first.kept.trans second.kept⟩

/-- Mapping one page of a slot. -/
theorem StackTable.allocPage (there : StackTable alloc.mem kernelL1 table entries)
    {pa : Nat} (owned : Owned alloc roots (pa :: rest) managed) (live : kernelL1 ∈ roots) {page : Nat}
    (small : page < 7) (unused : stackEntry slot page ∉ entries) :
    ∃ after, AtOS.allocPage (kernelStackStart slot + page * 4096) kernelL1 alloc = .ok (pa, after) ∧
      StackRemapped alloc after roots rest managed kernelL1 table
        (insert (stackEntry slot page) entries) := by
  -- The page hangs in the one table that all stacks share.
  obtain ⟨first, next⟩ := stackPage_upper slot (page * 4096) (by
    simp only [kernelStackSize]
    omega)
  have vacant : child alloc.mem table (stackEntry slot page) = none := by
    rw [← Option.not_isSome_iff_eq_none, there.mapped]
    exact unused
  obtain ⟨after, done, hung⟩ := allocPage_inTable owned live
    (first.symm ▸ next.symm ▸ there.reached) vacant
  refine ⟨after, done, hung.owned, hung.total, ⟨?_, fun index => ?_⟩, ?_⟩
  · rw [hung.upper kernelL1 live _ (by simp)]
    exact there.reached
  · -- The entry is the page's own, and all others are as they were.
    by_cases same : index = stackEntry slot page
    · have found := hung.found
      rw [same, stackEntry, found]
      simp
    · rw [hung.others index same, there.mapped, Set.mem_insert_iff, or_iff_right same]
  · intro owner liveOwner node member
    obtain ⟨inside, notNode, -⟩ := owned.node_apart live liveOwner member
    exact hung.kept node inside fun same => notNode (same ▸ there.node)

/-- Mapping a page of a slot fails only without a free frame. -/
theorem StackTable.allocPage_exhausted (there : StackTable alloc.mem kernelL1 table entries)
    (owned : Owned alloc roots [] managed) {page : Nat} (small : page < 7)
    (unused : stackEntry slot page ∉ entries) :
    ∃ message, AtOS.allocPage (kernelStackStart slot + page * 4096) kernelL1 alloc =
      .error (.outOfFrames message) := by
  obtain ⟨first, next⟩ := stackPage_upper slot (page * 4096) (by
    simp only [kernelStackSize]
    omega)
  refine AtOS.allocPage_exhausted owned (first.symm ▸ next.symm ▸ there.reached) ?_
  rw [← Option.not_isSome_iff_eq_none]
  exact fun some => unused ((there.mapped _).mp some)

/-- Unmapping one page of a slot. -/
theorem StackTable.freePage (there : StackTable alloc.mem kernelL1 table entries)
    (owned : Owned alloc roots free managed) (live : kernelL1 ∈ roots) {page : Nat}
    (small : page < 7) (used : stackEntry slot page ∈ entries) :
    ∃ pa, StackRemapped alloc (AtOS.freePage (kernelStackStart slot + page * 4096) kernelL1 alloc)
      roots (pa :: free) managed kernelL1 table (entries \ {stackEntry slot page}) := by
  -- The entry leads to a frame, which is the one that comes back.
  obtain ⟨pa, found⟩ := Option.isSome_iff_exists.mp ((there.mapped _).mpr used)
  have mapped := (there.leafOf_eq slot small).trans found
  have removed := freePage_spec owned live mapped
  have path := stackPage_path slot small
  have reached : walk (child (AtOS.freePage (kernelStackStart slot + page * 4096) kernelL1 alloc).mem)
      kernelL1 [l1Index kernelStackRegionStart, l2Index kernelStackRegionStart] = some table := by
    rw [removed.walks kernelL1 live _ (by simp), if_neg (by simp [path])]
    exact there.reached
  -- The table is still reached, and its other entries lead where they led.
  refine ⟨pa, removed.owned, removed.total, ⟨reached, fun index => ?_⟩,
    removed.kept_others owned live mapped⟩
  have below := removed.walks kernelL1 live
    ([l1Index kernelStackRegionStart, l2Index kernelStackRegionStart] ++ [index]) (by simp)
  rw [walk_snoc, walk_snoc, reached, there.reached, Option.bind_some, Option.bind_some] at below
  rw [below, Set.mem_sdiff, Set.mem_singleton_iff, ← there.mapped index]
  by_cases same : index = stackEntry slot page
  · simp [path, same]
  · simp [path, same]

end Table

section Loops

variable {alloc : PageAllocator} {roots : Set Nat} {free : List Nat} {managed : Set Nat}
  {kernelL1 table : Nat} {entries : Set EntryIndex}

/-- The entries of a list of pages, one page after the other. -/
theorem slotEntries_cons (slot : Fin maxProcesses) (page : Nat) (rest : List Nat) :
    slotEntries slot (page :: rest) = insert (stackEntry slot page) (slotEntries slot rest) := by
  ext index
  simp [slotEntries]

/-- The loop of `alloc_stack` takes a frame for each page, or runs out of them. -/
theorem StackTable.allocStackFrames (slot : Fin maxProcesses) (live : kernelL1 ∈ roots) :
    ∀ (pages : List Nat) {alloc : PageAllocator} {free : List Nat} {entries : Set EntryIndex},
      pages.Nodup → (∀ page ∈ pages, page < 7) → StackTable alloc.mem kernelL1 table entries →
      Owned alloc roots free managed → (∀ page ∈ pages, stackEntry slot page ∉ entries) →
      Loop.Yields
        (fun after => ∃ taken rest, free = taken ++ rest ∧ taken.length = pages.length ∧
          StackRemapped alloc after roots rest managed kernelL1 table
            (entries ∪ slotEntries slot pages))
        (fun panic => free.length < pages.length ∧ ∃ message, panic = .outOfFrames message)
        (AtOS.allocStackFrames (kernelStackStart slot) kernelL1 pages alloc) := by
  intro pages
  -- The induction is on the pages; each takes the frame at the head of the free list.
  induction pages with
  | nil =>
    intro alloc free entries _ _ there owned _
    have none : slotEntries slot [] = ∅ := by
      ext index
      simp [slotEntries]
    refine .done ⟨[], free, rfl, rfl, owned, rfl, ?_, Kept.refl _ _⟩
    rw [none, Set.union_empty]
    exact there
  | cons page rest ih =>
    intro alloc free entries nodup small there owned unused
    obtain ⟨fresh, nodupRest⟩ := List.nodup_cons.mp nodup
    have here := small page (by simp)
    rw [AtOS.allocStackFrames]
    cases free with
    -- Without a frame the first page that is missing stops the loop.
    | nil =>
      obtain ⟨message, failed⟩ := there.allocPage_exhausted owned here (unused page (by simp))
      rw [failed]
      exact .stopped ⟨by simp, message, rfl⟩
    | cons pa left =>
      -- The page gets the frame at the head, and its entry was not used.
      obtain ⟨middle, done, step⟩ := there.allocPage owned live here (unused page (by simp))
      rw [done]
      have later := ih nodupRest (fun other listed => small other (by simp [listed])) step.there
        step.owned (by
          rintro other listed (same | inside)
          · obtain ⟨-, rfl⟩ := stackEntry_inj (small other (by simp [listed])) here same
            exact fresh listed
          · exact unused other (by simp [listed]) inside)
      refine later.imp ?_ ?_
      · rintro after ⟨taken, rest, rfl, count, more⟩
        refine ⟨pa :: taken, rest, rfl, by simp [count], ?_⟩
        rw [slotEntries_cons, Set.union_insert, ← Set.insert_union]
        exact step.trans more
      · rintro panic ⟨few, message⟩
        exact ⟨by simpa using few, message⟩

/-- The loop of `free_stack` gives a frame back for each page. -/
theorem StackTable.freeStackFrames (slot : Fin maxProcesses) (live : kernelL1 ∈ roots) :
    ∀ (pages : List Nat) {alloc : PageAllocator} {free : List Nat} {entries : Set EntryIndex},
      pages.Nodup → (∀ page ∈ pages, page < 7) → StackTable alloc.mem kernelL1 table entries →
      Owned alloc roots free managed → (∀ page ∈ pages, stackEntry slot page ∈ entries) →
      ∃ freed, freed.length = pages.length ∧
        StackRemapped alloc
          (pages.foldl
            (fun alloc page => AtOS.freePage (kernelStackStart slot + page * 4096) kernelL1 alloc)
            alloc)
          roots (freed ++ free) managed kernelL1 table (entries \ slotEntries slot pages) := by
  -- The induction is on the pages, and each of them puts its frame in front of the free list.
  intro pages
  induction pages with
  | nil =>
    intro alloc free entries _ _ there owned _
    have none : slotEntries slot [] = ∅ := by
      ext index
      simp [slotEntries]
    refine ⟨[], rfl, owned, rfl, ?_, Kept.refl _ _⟩
    rw [none, Set.sdiff_empty]
    exact there
  | cons page rest ih =>
    intro alloc free entries nodup small there owned used
    obtain ⟨fresh, nodupRest⟩ := List.nodup_cons.mp nodup
    have here := small page (by simp)
    -- The page is mapped, so its frame comes back.
    obtain ⟨pa, step⟩ := there.freePage owned live here (used page (by simp))
    obtain ⟨freed, count, more⟩ := ih nodupRest (fun other listed => small other (by simp [listed]))
      step.there step.owned (by
        intro other listed
        refine ⟨used other (by simp [listed]), fun same => ?_⟩
        obtain ⟨-, rfl⟩ := stackEntry_inj (small other (by simp [listed])) here same
        exact fresh listed)
    refine ⟨freed ++ [pa], by simp [count], ?_⟩
    rw [slotEntries_cons, List.append_assoc, List.foldl_cons]
    have whole : (entries \ {stackEntry slot page}) \ slotEntries slot rest =
        entries \ insert (stackEntry slot page) (slotEntries slot rest) := by
      rw [Set.sdiff_sdiff, Set.insert_eq]
    rw [← whole]
    exact step.trans more

/-- The word that tests the new stack is written to its last page. -/
theorem StackTable.probe {stack : Fin maxProcesses} {all : Set Nat} {rest : List Nat}
    (there : StackTable alloc.mem kernelL1 table entries) (owned : Owned alloc all rest managed)
    (live : kernelL1 ∈ all) (used : stackEntry stack 6 ∈ entries) :
    ∃ pa, ttbr0ToPa alloc.mem (kernelStackTop stack - 0x10) kernelL1 = some pa ∧
      ∀ value, StackRemapped alloc { alloc with mem := writeLE alloc.mem pa 8 value } all rest managed
        kernelL1 table entries := by
  -- The last page of the stack is mapped, so the lookup reaches its frame.
  obtain ⟨leaf, found⟩ := Option.isSome_iff_exists.mp ((there.mapped _).mpr used)
  have mapped := (there.leafOf_eq stack (by decide : 6 < 7)).trans found
  have sameLeaf : leafOf alloc.mem kernelL1 (kernelStackTop stack - 0x10) = some leaf := by
    rw [leafOf, stackProbe_path]
    exact mapped
  refine ⟨_, ttbr0ToPa_eq_some.mpr ⟨leaf, sameLeaf, rfl⟩, fun value => ?_⟩
  -- The probe is written 16 bytes below the end of that frame.
  have position : (kernelStackTop stack - 0x10) % 4096 = 0xff0 := by
    simp only [kernelStackTop, kernelStackStart, kernelStackRegionStart, kernelStackSize]
    omega
  rw [position]
  -- What is written lies in the page, so no table changes.
  have same : ∀ address ∉ frame leaf,
      writeLE alloc.mem (leaf + 0xff0) 8 value address = alloc.mem address := by
    intro address outside
    refine writeLE_outside _ _ _ _ fun inside => outside ?_
    simp only [frame, block, Set.mem_Ico] at inside ⊢
    omega
  obtain ⟨written, kept⟩ := owned.write_leaf live (pagePath_length _) mapped same
  refine ⟨written, rfl, there.congr fun node inTree => ?_, fun owner liveOwner node member => ?_⟩
  · refine kept node (owned.node_managed live (tables_subset_nodes _ inTree)) ?_
    rintro rfl
    exact owned.separate.leaf_not_table live live (pagePath_length _) mapped inTree
  · obtain ⟨inside, notNode, -⟩ := owned.node_apart live liveOwner member
    refine kept node inside ?_
    rintro rfl
    exact notNode (node_of_walk (Nat.le_of_eq (pagePath_length _)) mapped)

end Loops

end AtOS
