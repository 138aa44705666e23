import AtOS.Paging.RootEntries
import AtOS.Resources.Start

/-! Over every run of calls, the slots of the kernel stacks and the kernel's page table agree. -/

namespace AtOS

open ByteMemory RadixForest SlotTable

/-- A call of one of the functions on kernel stacks that returns. -/
inductive Kernel.StackCall (k : Kernel) : Kernel → Prop
  | allocStack {pid : UInt64} {result : Except String UInt64} {next : Kernel}
      (done : k.allocStack pid = .ok (result, next)) : StackCall k next
  | queueStackToFree {pid : UInt64} {next : Kernel} (done : k.queueStackToFree pid = .ok next) :
      StackCall k next
  | freeStack {slot : Fin maxProcesses} {next : Kernel} (done : k.freeStack slot = .ok next) :
      StackCall k next
  | freeQueuedStacks {next : Kernel} (done : k.freeQueuedStacks = .ok next) : StackCall k next
  | duplicateStack {srcPid destPid srcSpEl1 : UInt64} {result : Except String UInt64}
      {next : Kernel}
      (done : k.duplicateStack srcPid destPid srcSpEl1 = .ok (result, next)) : StackCall k next
  /-- `queue_stack_to_free` and `free_stack` change nothing when they return an error. -/
  | refused : StackCall k k

/-- The kernel before its first stack: no slot is in use, and no table maps the region. -/
structure Kernel.Stackless (start : Kernel) (roots : Set Nat) (free : List Nat)
    (managed : Set Nat) : Prop where
  vacant : ∀ slot, start.kernelStacks slot = .free
  owned : Owned start.alloc (insert start.kernelL1 roots) free managed
  apart : start.kernelL1 ∉ roots
  unmapped : child start.alloc.mem start.kernelL1 (l1Index kernelStackRegionStart) = none

/-- What every call keeps: the account of the frames, and the table of the stacks, if there. -/
structure Kernel.InStep (start k : Kernel) (roots : Set Nat) (free : List Nat)
    (managed : Set Nat) : Prop where
  kernelL1 : k.kernelL1 = start.kernelL1
  owned : Owned k.alloc (insert k.kernelL1 roots) free managed
  apart : k.kernelL1 ∉ roots
  table : (child k.alloc.mem k.kernelL1 (l1Index kernelStackRegionStart) = none ∧
      ∀ slot, k.kernelStacks slot = .free) ∨
    ∃ table, StackTable k.alloc.mem k.kernelL1 table (stackEntries k.kernelStacks)
  once : ∀ {pid slot other}, k.kernelStacks slot = .allocated pid →
    k.kernelStacks other = .allocated pid → slot = other
  upper : EntriesKept start.alloc.mem k.alloc.mem k.kernelL1 (l1Index kernelStackRegionStart)

/-- How the slots and the kernel's page table agree. -/
structure Kernel.Mirrored (start k : Kernel) : Prop where
  mapped : ∀ slot, ∀ page ∈ stackPageIndices,
    (leafOf k.alloc.mem k.kernelL1 (kernelStackStart slot + page * 4096)).isSome ↔
      k.kernelStacks slot ≠ .free
  guard : ∀ slot, leafOf k.alloc.mem k.kernelL1 (kernelStackStart slot) = none
  frames : ∀ {slot other page second pa}, page ∈ stackPageIndices → second ∈ stackPageIndices →
    leafOf k.alloc.mem k.kernelL1 (kernelStackStart slot + page * 4096) = some pa →
    leafOf k.alloc.mem k.kernelL1 (kernelStackStart other + second * 4096) = some pa →
    slot = other ∧ page = second
  pages : ∀ {slot other}, slot ≠ other →
    Disjoint (Set.Ico (kernelStackStart slot) (kernelStackTop slot))
      (Set.Ico (kernelStackStart other) (kernelStackTop other))
  /-- The entries for the window onto the memory are as they were set at boot. -/
  window : ∀ index : EntryIndex, index.val < 2 →
    entry k.alloc.mem k.kernelL1 index = entry start.alloc.mem start.kernelL1 index
  /-- `alloc_stack` has the root from `ttbr1_to_pa!`, and `free_stack` its address in the window. -/
  root : ttbr1ToVa (ttbr1ToPa (ttbr1ToVa k.kernelL1)) = ttbr1ToVa (ttbr1ToVa k.kernelL1) ∧
    ttbr1ToPa (ttbr1ToVa k.kernelL1) = k.kernelL1
  once : ∀ {pid slot other}, k.kernelStacks slot = .allocated pid →
    k.kernelStacks other = .allocated pid → slot = other

section Frames

variable {alloc after : PageAllocator} {roots : Set Nat} {free : List Nat} {managed : Set Nat}
  {kernelL1 : Nat} {slot : Fin maxProcesses}

/-- All pages of the stacks are mapped by the same entry of the kernel's table. -/
theorem stackPage_l1Index (slot : Fin maxProcesses) {page : Nat} (small : page < 7) :
    l1Index (kernelStackStart slot + page * 4096) = l1Index kernelStackRegionStart :=
  (stackPage_upper slot _ (by
    simp only [kernelStackSize]
    omega)).1

/-- What mapping some pages of a slot leaves behind. -/
structure SlotMapped (alloc after : PageAllocator) (roots managed : Set Nat) (kernelL1 : Nat)
    (slot : Fin maxProcesses) (pages : List Nat) : Prop where
  owned : ∃ rest, Owned after roots rest managed
  upper : EntriesKept alloc.mem after.mem kernelL1 (l1Index kernelStackRegionStart)
  still : ∀ va, (leafOf alloc.mem kernelL1 va).isSome → (leafOf after.mem kernelL1 va).isSome
  mapped : ∀ page ∈ pages, (leafOf after.mem kernelL1 (kernelStackStart slot + page * 4096)).isSome

/-- Mapping unmapped pages of a slot runs out of frames, or writes one entry of the root. -/
theorem allocStackFrames_yields (slot : Fin maxProcesses) (live : kernelL1 ∈ roots) :
    ∀ (pages : List Nat) {alloc : PageAllocator} {free : List Nat}, pages.Nodup →
      (∀ page ∈ pages, page < 7) → Owned alloc roots free managed →
      (∀ page ∈ pages, leafOf alloc.mem kernelL1 (kernelStackStart slot + page * 4096) = none) →
      Loop.Yields (SlotMapped alloc · roots managed kernelL1 slot pages)
        (fun panic => ∃ message, panic = .outOfFrames message)
        (AtOS.allocStackFrames (kernelStackStart slot) kernelL1 pages alloc) := by
  intro pages
  -- The induction is on the pages; a page that is mapped leaves the others unmapped.
  induction pages with
  | nil =>
    intro alloc free _ _ owned _
    exact .done ⟨⟨free, owned⟩, .refl _ _ _, fun _ mapped => mapped, by simp⟩
  | cons page pages ih =>
    intro alloc free nodup small owned vacant
    obtain ⟨fresh, nodup⟩ := List.nodup_cons.mp nodup
    have here := small page (by simp)
    have outcome := allocPage_spec owned live (kernelStackStart slot + page * 4096)
    rw [AtOS.allocStackFrames]
    cases first : allocPage (kernelStackStart slot + page * 4096) kernelL1 alloc with
    | error panic =>
      rw [first] at outcome
      -- The page was not mapped, so only the frames can be missing.
      rcases outcome with ⟨-, mapped⟩ | ⟨-, -, few⟩
      · rw [vacant page (by simp)] at mapped
        cases mapped
      · exact .stopped few
    | ok mapped =>
      obtain ⟨pa, middle⟩ := mapped
      have kept := allocPage_rootEntries owned live first
      rw [stackPage_l1Index slot here] at kept
      rw [first] at outcome
      obtain ⟨taken, rest, added⟩ := outcome
      -- The other pages are still unmapped, since each has an entry of its own.
      have later := ih nodup (fun other listed => small other (by simp [listed])) added.owned
        fun other listed => by
          have inside := small other (by simp [listed])
          rw [leafOf, added.leaves kernelL1 live _ (pagePath_length _), if_neg]
          · exact vacant other (by simp [listed])
          · rintro ⟨-, same⟩
            rw [stackPage_path slot inside, stackPage_path slot here] at same
            simp only [List.cons.injEq, and_true, true_and] at same
            exact fresh ((stackEntry_inj inside here same).2 ▸ listed)
      -- What is mapped stays mapped.
      have still : ∀ va, (leafOf alloc.mem kernelL1 va).isSome ∨
          pagePath va = pagePath (kernelStackStart slot + page * 4096) →
          (leafOf middle.mem kernelL1 va).isSome := by
        intro va either
        rw [leafOf, added.leaves kernelL1 live _ (pagePath_length _)]
        split
        · rfl
        · rename_i other
          exact either.resolve_right fun same => other ⟨rfl, same⟩
      refine later.imp ?_ fun panic message => message
      rintro last ⟨owned, more, stillLast, mapped⟩
      refine ⟨owned, kept.trans more, fun va there => stillLast va (still va (Or.inl there)), ?_⟩
      intro other listed
      rcases List.mem_cons.mp listed with rfl | later
      · exact stillLast _ (still _ (Or.inr rfl))
      · exact mapped other later

/-- Unmapping the pages of a slot writes no entry of the kernel's table itself. -/
theorem freeStackFrames_rootEntries (live : kernelL1 ∈ roots) (start : Nat) (pages : List Nat) :
    ∀ {alloc : PageAllocator} {free : List Nat}, Owned alloc roots free managed →
      Set.EqOn
        (pages.foldl (fun alloc page => freePage (start + page * 4096) kernelL1 alloc) alloc).mem
        alloc.mem (frame kernelL1) := by
  induction pages with
  | nil => exact fun _ => Set.eqOn_refl _ _
  | cons page pages ih =>
    intro alloc free owned
    have first := @freePage_rootEntries alloc roots free managed kernelL1 (start + page * 4096)
      owned live
    rw [List.foldl_cons]
    cases mapped : leafOf alloc.mem kernelL1 (start + page * 4096) with
    | none =>
      rw [freePage_unmapped mapped]
      exact ih owned
    | some pa => exact (ih (freePage_spec owned live mapped).owned).trans first

end Frames

section Steps

variable {start k next : Kernel} {roots : Set Nat} {free : List Nat} {managed : Set Nat}
  {pid : UInt64} {stack : Fin maxProcesses}

/-- The table of the kernel is one of the roots. -/
theorem Kernel.InStep.live (_ : start.InStep k roots free managed) :
    k.kernelL1 ∈ insert k.kernelL1 roots := Set.mem_insert _ _

/-- A slot that is in use has been mapped, so the table is there. -/
theorem Kernel.InStep.accounted (inStep : start.InStep k roots free managed)
    (inUse : k.kernelStacks stack ≠ .free) : k.resources.Accounted roots free managed := by
  refine ⟨inStep.owned, inStep.apart, ?_⟩
  rcases inStep.table with ⟨-, vacant⟩ | there
  · exact absurd (vacant stack) inUse
  · exact there

/-- The pages of a slot are mapped exactly if the slot is in use. -/
theorem Kernel.InStep.mapped (inStep : start.InStep k roots free managed) (slot : Fin maxProcesses)
    {page : Nat} (small : page < 7) :
    (leafOf k.alloc.mem k.kernelL1 (kernelStackStart slot + page * 4096)).isSome ↔
      k.kernelStacks slot ≠ .free ∧ page ∈ stackPageIndices := by
  rcases inStep.table with ⟨unmapped, vacant⟩ | ⟨table, there⟩
  · rw [leafOf, stackPage_path slot small, walk_cons, unmapped, vacant]
    simp
  · rw [there.leafOf_eq slot small, there.mapped]
    constructor
    · rintro ⟨other, inUse, second, listed, same⟩
      obtain ⟨rfl, rfl⟩ := stackEntry_inj small (stackPage_lt listed).2 same
      exact ⟨inUse, listed⟩
    · rintro ⟨inUse, listed⟩
      exact ⟨slot, inUse, page, listed, rfl⟩

/-- Mapping the pages of a free slot runs out of frames, or writes one entry of the root. -/
theorem Kernel.InStep.allocStackFrames (inStep : start.InStep k roots free managed)
    (vacant : k.kernelStacks stack = .free) :
    Loop.Yields
      (SlotMapped k.alloc · (insert k.kernelL1 roots) managed k.kernelL1 stack stackPageIndices)
      (fun panic => ∃ message, panic = .outOfFrames message)
      (AtOS.allocStackFrames (kernelStackStart stack) k.kernelL1 stackPageIndices k.alloc) := by
  refine allocStackFrames_yields stack inStep.live stackPageIndices (by decide) (by decide)
    inStep.owned fun page listed => ?_
  rw [← Option.not_isSome_iff_eq_none, inStep.mapped stack (stackPage_lt listed).2]
  exact fun inUse => inUse.1 vacant

/-- A stack that is given out goes to a pid without one. -/
theorem Kernel.InStep.once_allocated (inStep : start.InStep k roots free managed)
    (inactive : k.getActiveStackIndex pid = none) {owner : UInt64} {slot other : Fin maxProcesses}
    (first : Function.update k.kernelStacks stack (.allocated pid) slot = .allocated owner)
    (second : Function.update k.kernelStacks stack (.allocated pid) other = .allocated owner) :
    slot = other := by
  have nobody := Kernel.getActiveStackIndex_none.mp inactive
  rw [Function.update_apply] at first second
  split at first <;> split at second
  · rename_i one two
    rw [one, two]
  · cases first
    exact absurd second (nobody other)
  · cases second
    exact absurd first (nobody slot)
  · exact inStep.once first second

/-- `alloc_stack` keeps slots and table in step. -/
theorem Kernel.InStep.allocated (inStep : start.InStep k roots free managed) {top : UInt64}
    (allocated : k.StackAllocated pid top stack next) :
    ∃ rest, start.InStep next roots rest managed := by
  -- The first stack brings the table; later ones find it.
  obtain ⟨rest, accounted⟩ : ∃ rest, next.resources.Accounted roots rest managed := by
    rcases inStep.table with ⟨unmapped, vacant⟩ | there
    · obtain ⟨taken, rest, -, -, accounted⟩ :=
        allocated.takesFirst inStep.owned inStep.apart unmapped vacant
      exact ⟨rest, accounted⟩
    · obtain ⟨taken, rest, took⟩ := allocated.taken ⟨inStep.owned, inStep.apart, there⟩
      exact ⟨rest, took.accounted⟩
  have slots := allocated.kernelStacks
  obtain ⟨alloc, pa, mapped, translated, same⟩ := allocated.next_eq
  have kernelL1 : next.kernelL1 = k.kernelL1 := by
    rw [same]
    rfl
  have yields := inStep.allocStackFrames allocated.free
  rw [mapped] at yields
  refine ⟨rest, kernelL1.trans inStep.kernelL1, accounted.owned, accounted.apart,
    Or.inr accounted.table, ?_, ?_⟩
  · rw [slots]
    exact inStep.once_allocated allocated.inactive
  · -- The call writes below the root and the probe, and neither of them is the root.
    cases yields with
    | done holds =>
      obtain ⟨⟨left, owned⟩, kept, -, -⟩ := holds
      rw [kernelL1]
      refine inStep.upper.trans (kept.trans (.ofFrame ?_ _))
      obtain ⟨leaf, found, rfl⟩ := ttbr0ToPa_eq_some.mp translated
      have isLeaf := owned.node_frame inStep.live
        (node_of_walk (Nat.le_of_eq (pagePath_length _)) found)
      have isRoot := owned.node_frame inStep.live (root_mem_nodes _)
      have apart := owned.below_ne_root inStep.live (Nat.le_of_eq (pagePath_length _))
        (by simp [pagePath]) found
      -- The probe is in the last page.
      have position : (kernelStackTop stack - 0x10) % 4096 = 0xff0 := by
        simp only [kernelStackTop, kernelStackStart, kernelStackRegionStart, kernelStackSize]
        omega
      intro address inside
      rw [same, position]
      refine writeLE_outside _ _ _ _ fun written => frame_disjoint isRoot isLeaf apart.symm inside ?_
      simp only [frame, block, Set.mem_Ico] at written ⊢
      omega

/-- `queue_stack_to_free` keeps slots and table in step: the pages stay mapped. -/
theorem Kernel.InStep.queued (inStep : start.InStep k roots free managed)
    (active : k.kernelStacks stack = .allocated pid) :
    start.InStep (k.setStack stack (.queuedToFree pid)) roots free managed := by
  have inUse : k.kernelStacks stack ≠ .free := by simp [active]
  have accounted := inStep.accounted inUse
  refine ⟨inStep.kernelL1, inStep.owned, inStep.apart, Or.inr ?_, ?_, inStep.upper⟩
  · obtain ⟨table, there⟩ := accounted.table
    refine ⟨table, ?_⟩
    rw [Kernel.setStack, stackEntries_used inUse (by simp)]
    exact there
  · intro owner slot other first second
    simp only [Kernel.setStack, Function.update_apply] at first second
    split at first
    · cases first
    split at second
    · cases second
    exact inStep.once first second

/-- `free_stack` keeps slots and table in step. -/
theorem Kernel.InStep.freeStack (inStep : start.InStep k roots free managed)
    (done : k.freeStack stack = .ok next) : ∃ rest, start.InStep next roots rest managed := by
  -- Only a stack that is queued is freed.
  cases state : k.kernelStacks stack with
  | allocated pid =>
    simp only [Kernel.freeStack, state] at done
    cases done
  | free =>
    simp only [Kernel.freeStack, state] at done
    cases done
  | queuedToFree pid =>
    have inUse : k.kernelStacks stack ≠ .free := by simp [state]
    have accounted := inStep.accounted inUse
    obtain ⟨alloc, freed, result, -, -, after, -⟩ := Kernel.freeStack_accounted accounted state
    -- `free_stack` goes from the physical address to the virtual one and back.
    have isFrame := inStep.owned.node_frame inStep.live (root_mem_nodes _)
    have root : ttbr1ToPa (ttbr1ToVa k.kernelL1) = k.kernelL1 := ttbr1ToPa_ttbr1ToVa isFrame.2
    have kept := freeStackFrames_rootEntries inStep.live (kernelStackStart stack) stackPageIndices
      inStep.owned
    rw [result, Except.ok.injEq] at done
    simp only [Kernel.freeStack, state, root, Except.ok.injEq] at result
    have memory : alloc = _ := (congrArg Kernel.alloc result).symm
    subst done
    refine ⟨freed ++ free, inStep.kernelL1, after.owned, after.apart, Or.inr after.table, ?_,
      inStep.upper.trans (.ofFrame ?_ _)⟩
    · -- No process gets a stack in this, so none has two of them.
      intro owner slot other first second
      simp only [Kernel.setStack, Function.update_apply] at first second
      split at first
      · cases first
      split at second
      · cases second
      exact inStep.once first second
    · show Set.EqOn alloc.mem k.alloc.mem (frame k.kernelL1)
      rw [memory]
      exact kept

/-- `free_queued_stacks` keeps slots and table in step. -/
theorem Kernel.InStep.freeQueuedStacks (slots : List (Fin maxProcesses)) :
    ∀ {k : Kernel} {free : List Nat}, start.InStep k roots free managed →
      slots.foldlM Kernel.freeQueuedStack k = .ok next →
      ∃ rest, start.InStep next roots rest managed := by
  -- The induction is on the slots, and each of them is freed or left as it is.
  induction slots with
  | nil =>
    intro k free inStep done
    cases done
    exact ⟨free, inStep⟩
  | cons slot slots ih =>
    intro k free inStep done
    rw [List.foldlM_cons] at done
    simp only [bind, Loop.bind_eq_ok] at done
    obtain ⟨mid, first, later⟩ := done
    obtain ⟨rest, middle⟩ : ∃ rest, start.InStep mid roots rest managed := by
      unfold Kernel.freeQueuedStack at first
      split at first
      · split at first
        · cases first
        split at first
        · cases first
          exact ⟨free, inStep⟩
        split at first
        · rename_i freed
          cases first
          exact inStep.freeStack freed
        · cases first
          exact ⟨free, inStep⟩
      · cases first
        exact ⟨free, inStep⟩
    exact ih middle later

/-- Writing through the kernel's own table keeps slots and table in step. -/
theorem Kernel.InStep.copied (inStep : start.InStep k roots free managed) (data : List UInt8)
    (dst : Nat) :
    start.InStep { k with alloc := (copyToPages data dst k.kernelL1 k.alloc).2 } roots free
      managed := by
  obtain ⟨done, copied⟩ := copyToPages_spec inStep.owned inStep.live data dst
  have upper := copyToPages_rootEntries inStep.owned inStep.live data dst
  -- A table is no page, so no table is written.
  have tablesKept : ∀ node ∈ tables (child k.alloc.mem) 3 k.kernelL1,
      Set.EqOn (copyToPages data dst k.kernelL1 k.alloc).2.mem k.alloc.mem (frame node) := by
    intro node inTree
    have member := inStep.owned.node_managed inStep.live (tables_subset_nodes _ inTree)
    refine copied.kept inStep.owned inStep.live member fun path full reached => ?_
    exact inStep.owned.separate.leaf_not_table inStep.live inStep.live full reached inTree
  refine ⟨inStep.kernelL1, copied.owned inStep.owned inStep.live, inStep.apart, ?_, inStep.once,
    inStep.upper.trans (.ofFrame upper _)⟩
  -- Either there is still no stack, or the table is as it was.
  rcases inStep.table with ⟨unmapped, vacant⟩ | ⟨table, there⟩
  · refine Or.inl ⟨?_, vacant⟩
    rw [child_congr upper]
    exact unmapped
  · exact Or.inr ⟨table, there.congr tablesKept⟩

/-- Copying a stack writes into pages of stacks only. -/
theorem Kernel.InStep.copyActiveStack (inStep : start.InStep k roots free managed)
    {srcPid srcSpEl1 top : UInt64} {result : Except String UInt64}
    (done : k.copyActiveStack srcPid srcSpEl1 top = .ok (result, next)) :
    start.InStep next roots free managed := by
  -- Unless the bytes are copied, the kernel is as it was.
  unfold Kernel.copyActiveStack at done
  split at done
  · cases done
    exact inStep
  rename_i activeSize used
  split at done
  · cases done
  rename_i alloc copied
  cases done
  unfold copyStack at copied
  split at copied
  · cases copied
  rename_i bytes read
  split at copied
  · rename_i result written
    cases copied
    have after := inStep.copied bytes (top - UInt64.ofNat activeSize).toNat
    rw [written] at after
    exact after
  · cases copied

/-- `duplicate_stack` keeps slots and table in step. -/
theorem Kernel.InStep.duplicateStack (inStep : start.InStep k roots free managed)
    {srcPid destPid srcSpEl1 : UInt64} {result : Except String UInt64}
    (done : k.duplicateStack srcPid destPid srcSpEl1 = .ok (result, next)) :
    ∃ rest, start.InStep next roots rest managed := by
  -- The stack is there, or it is allocated before the copy.
  rw [Kernel.duplicateStack_eq] at done
  cases stack : k.getStackTop destPid with
  | ok top =>
    rw [stack] at done
    exact ⟨free, inStep.copyActiveStack done⟩
  | error error =>
    rw [stack] at done
    dsimp only at done
    split at done
    · cases done
    · rename_i refused
      cases done
      obtain ⟨rfl, -⟩ := Kernel.allocStack_error refused
      exact ⟨free, inStep⟩
    · rename_i allocated
      obtain ⟨slot, allocated⟩ := Kernel.allocStack_ok allocated
      obtain ⟨rest, after⟩ := inStep.allocated allocated
      exact ⟨rest, after.copyActiveStack done⟩

/-- Every call keeps slots and table in step. -/
theorem Kernel.StackCall.inStep (call : k.StackCall next)
    (inStep : start.InStep k roots free managed) : ∃ rest, start.InStep next roots rest managed := by
  -- Of the five calls each keeps the invariant.
  cases call with
  | @allocStack pid result next done =>
    cases result with
    | error error =>
      obtain ⟨rfl, -⟩ := Kernel.allocStack_error done
      exact ⟨free, inStep⟩
    | ok top =>
      obtain ⟨stack, allocated⟩ := Kernel.allocStack_ok done
      exact inStep.allocated allocated
  | queueStackToFree done =>
    unfold Kernel.queueStackToFree at done
    split at done
    · rename_i active
      cases done
      exact ⟨free, inStep.queued (Kernel.getActiveStackIndex_some active)⟩
    · cases done
  | freeStack done => exact inStep.freeStack done
  | freeQueuedStacks done => exact Kernel.InStep.freeQueuedStacks _ inStep done
  | duplicateStack done => exact inStep.duplicateStack done
  | refused => exact ⟨free, inStep⟩

end Steps

section Runs

variable {start k : Kernel} {roots : Set Nat} {free : List Nat} {managed : Set Nat}

/-- Before the first stack, slots and table are in step. -/
theorem Kernel.Stackless.inStep (stackless : start.Stackless roots free managed) :
    start.InStep start roots free managed := by
  refine ⟨rfl, stackless.owned, stackless.apart, Or.inl ⟨stackless.unmapped, stackless.vacant⟩, ?_,
    .refl _ _ _⟩
  intro pid slot other here
  rw [stackless.vacant] at here
  cases here

/-- Slots and table stay in step along every run of calls. -/
theorem Kernel.Stackless.run (stackless : start.Stackless roots free managed)
    (run : Relation.ReflTransGen Kernel.StackCall start k) :
    ∃ rest, start.InStep k roots rest managed := by
  induction run with
  | refl => exact ⟨free, stackless.inStep⟩
  | tail _ call ih =>
    obtain ⟨rest, inStep⟩ := ih
    exact call.inStep inStep

/-- The memory of the stacks of two slots does not overlap. -/
theorem kernelStack_disjoint {slot other : Fin maxProcesses} (distinct : slot ≠ other) :
    Disjoint (Set.Ico (kernelStackStart slot) (kernelStackTop slot))
      (Set.Ico (kernelStackStart other) (kernelStackTop other)) := by
  have apart : slot.val ≠ other.val := fun same => distinct (Fin.ext same)
  rw [Set.disjoint_left]
  intro address inside insideOther
  simp only [Set.mem_Ico, kernelStackTop, kernelStackStart, kernelStackSize] at inside insideOther
  omega

/-- Slots and table that are in step agree. -/
theorem Kernel.InStep.mirrored (inStep : start.InStep k roots free managed) : start.Mirrored k := by
  have isFrame := inStep.owned.node_frame inStep.live (root_mem_nodes _)
  have back : ttbr1ToPa (ttbr1ToVa k.kernelL1) = k.kernelL1 := ttbr1ToPa_ttbr1ToVa isFrame.2
  -- Each part follows from one of the invariant.
  constructor
  case mapped =>
    intro slot page listed
    rw [inStep.mapped slot (stackPage_lt listed).2, and_iff_left listed]
  case guard =>
    -- The first page of a slot is never mapped.
    intro slot
    have first := (inStep.mapped slot (by decide : 0 < 7)).not.mpr
      fun inUse => absurd inUse.2 (by decide)
    simpa using first
  case frames =>
    intro slot other page second pa listed listedSecond here there
    -- One frame is at most at one place, so the two places are the same.
    have same := (inStep.owned.separate inStep.live inStep.live (Nat.le_of_eq (pagePath_length _))
      (Nat.le_of_eq (pagePath_length _)) here there).2
    rw [stackPage_path slot (stackPage_lt listed).2,
      stackPage_path other (stackPage_lt listedSecond).2] at same
    simp only [List.cons.injEq, and_true, true_and] at same
    exact stackEntry_inj (stackPage_lt listed).2 (stackPage_lt listedSecond).2 same
  case pages => exact kernelStack_disjoint
  case window =>
    -- Below the window of the stacks nothing has been written.
    intro index low
    rw [inStep.upper index, inStep.kernelL1]
    rintro rfl
    revert low
    decide
  case root =>
    refine ⟨?_, back⟩
    rw [back]
    simp only [ttbr1ToVa, Nat.or_assoc, Nat.or_self]
  case once => exact inStep.once

/-- In step, `alloc_stack` stops only for want of frames; no page is found mapped already. -/
theorem Kernel.InStep.allocStack_stop (inStep : start.InStep k roots free managed) {pid : UInt64}
    {stop : Stop} (stopped : k.allocStack pid = .error stop) :
    free.length < 8 ∧ ∃ message, stop = .panic (.outOfFrames message) := by
  obtain ⟨stack, vacant, stops⟩ := Kernel.allocStack_stop stopped
  have yields := inStep.allocStackFrames vacant
  -- With eight frames both the table and the pages can be had.
  have few : free.length < 8 := by
    by_contra enough
    rcases inStep.table with ⟨unmapped, vacant⟩ | there
    · obtain ⟨top, slot, next, done, -⟩ := Kernel.allocStack_first inStep.owned inStep.live unmapped
        vacant (Nat.le_of_not_lt enough) pid
      rw [stopped] at done
      cases done
    · have accounted : k.resources.Accounted roots free managed :=
        ⟨inStep.owned, inStep.apart, there⟩
      have total := @Kernel.allocStack_accounted k roots free managed pid stack accounted vacant
      generalize AtOS.allocStackFrames (kernelStackStart stack) k.kernelL1 stackPageIndices k.alloc =
        frames at total stops
      cases total with
      | stopped fails => omega
      | done holds =>
        obtain ⟨pa, translated, -⟩ := holds
        dsimp only at stops
        rw [translated] at stops
        cases stops
  refine ⟨few, ?_⟩
  generalize AtOS.allocStackFrames (kernelStackStart stack) k.kernelL1 stackPageIndices k.alloc =
    frames at yields stops
  cases yields with
  | stopped fails =>
    obtain ⟨message, rfl⟩ := fails
    exact ⟨message, stops⟩
  | done holds =>
    -- The last page is mapped, so the probe word can be written.
    have last := holds.mapped 6 (by decide)
    rw [leafOf, ← stackProbe_path, ← leafOf, ← ttbr0ToPa_isSome] at last
    dsimp only at stops
    rw [stops] at last
    cases last

/-- Copying a stack stops only where an address is not mapped. -/
theorem Kernel.copyActiveStack_halted {srcPid srcSpEl1 top : UInt64} {stop : Stop}
    (stopped : k.copyActiveStack srcPid srcSpEl1 top = .error stop) : stop = .halted := by
  unfold Kernel.copyActiveStack copyStack at stopped
  split at stopped
  · cases stopped
  split at stopped
  · rename_i failed
    cases stopped
    split at failed
    · exact (Except.error.inj failed).symm
    split at failed
    · cases failed
    · exact (Except.error.inj failed).symm
  · cases stopped

/-- In step, `duplicate_stack` stops for want of frames, or where an address is not mapped. -/
theorem Kernel.InStep.duplicateStack_stop (inStep : start.InStep k roots free managed)
    {srcPid destPid srcSpEl1 : UInt64} {stop : Stop}
    (stopped : k.duplicateStack srcPid destPid srcSpEl1 = .error stop) :
    stop = .halted ∨ ∃ message, stop = .panic (.outOfFrames message) := by
  -- The allocation runs out of frames, or the copy halts.
  rw [Kernel.duplicateStack_eq] at stopped
  cases stack : k.getStackTop destPid with
  | ok top =>
    rw [stack] at stopped
    exact Or.inl (Kernel.copyActiveStack_halted stopped)
  | error error =>
    rw [stack] at stopped
    dsimp only at stopped
    split at stopped
    · rename_i failed
      cases stopped
      exact Or.inr (inStep.allocStack_stop failed).2
    · cases stopped
    · exact Or.inl (Kernel.copyActiveStack_halted stopped)

/--
Slots and page table agree after every run of calls on kernel stacks, with any pids.

So no later call finds a page mapped already, and with eight free frames a stack can be given out.
-/
theorem kernelStacks_mirrored (stackless : start.Stackless roots free managed)
    (run : Relation.ReflTransGen Kernel.StackCall start k) :
    start.Mirrored k ∧
      (∀ pid va, k.allocStack pid ≠ .error (.panic (.pageAlreadyAllocated va))) ∧
      (∀ srcPid destPid srcSpEl1 va,
        k.duplicateStack srcPid destPid srcSpEl1 ≠ .error (.panic (.pageAlreadyAllocated va))) ∧
      (8 ≤ k.alloc.freeFrameCount → ∀ pid, ∃ result, k.allocStack pid = .ok result) := by
  obtain ⟨rest, inStep⟩ := stackless.run run
  refine ⟨inStep.mirrored, fun pid va stopped => ?_, fun srcPid destPid srcSpEl1 va stopped => ?_,
    fun enough pid => ?_⟩
  · -- Where a call stops, frames have run out or the copy halts.
    obtain ⟨-, message, same⟩ := inStep.allocStack_stop stopped
    cases same
  · rcases inStep.duplicateStack_stop stopped with same | ⟨message, same⟩
    · cases same
    · cases same
  · -- Eight frames are enough for the table and the pages.
    rw [inStep.owned.count] at enough
    cases result : k.allocStack pid with
    | ok value => exact ⟨value, rfl⟩
    | error stop =>
      obtain ⟨few, -⟩ := inStep.allocStack_stop result
      omega

/-- The kernel of the example boot has no stack yet. -/
theorem wordsStart_stackless : ∃ free,
    wordsStart.Stackless ∅ free (wordsStart.knownFrames 0xffffff8000100000 0xffffff8002100000) := by
  obtain ⟨free, owned, -⟩ := wordsStart_prepared.owned
  refine ⟨free, wordsStart_fresh.kernelStacks, ?_, Set.notMem_empty _, wordsStart_prepared.unmapped⟩
  rw [insert_empty_eq]
  exact owned

/-- The first stack of the example boot is given out, and its six pages are mapped. -/
theorem kernelStacks_mirrored_first :
    ∃ top stack next, wordsStart.allocStack 1 = .ok (.ok top, next) ∧
      next.kernelStacks stack = .allocated 1 ∧
      (∀ page ∈ stackPageIndices,
        (leafOf next.alloc.mem next.kernelL1 (kernelStackStart stack + page * 4096)).isSome) ∧
      wordsStart.Mirrored next := by
  obtain ⟨free, stackless⟩ := wordsStart_stackless
  -- The frames are there, so the stack can be given out.
  have enough : 8 ≤ free.length := by
    rw [← stackless.owned.count, wordsStart_count]
    decide
  obtain ⟨top, stack, next, done, allocated⟩ := Kernel.allocStack_first stackless.owned
    (Set.mem_insert _ _) stackless.unmapped stackless.vacant enough 1
  -- That call is a run of one call.
  have mirrored := (kernelStacks_mirrored stackless (.single (.allocStack done))).1
  have given : next.kernelStacks stack = .allocated 1 := by
    rw [allocated.kernelStacks, Function.update_self]
  refine ⟨top, stack, next, done, given, fun page listed => ?_, mirrored⟩
  refine (mirrored.mapped stack page listed).mpr ?_
  rw [given]
  exact StackState.noConfusion

end Runs

end AtOS
