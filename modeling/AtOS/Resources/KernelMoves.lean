import AtOS.Loader.LoadMoves
import AtOS.Resources.Bystanders
import AtOS.Resources.StackCount

/-! What the kernel does with its frames, as a run of operations on the pool of frames. -/

namespace AtOS

open ByteMemory RadixForest SlotTable

/-- Of its own table, the kernel changes the part with the kernel stacks; of others, everything. -/
def mayChange (kernelL1 root : Nat) (index : EntryIndex) : Prop :=
  root = kernelL1 → index = l1Index kernelStackRegionStart

/-- The roots of the address spaces that processes hold. -/
def Resources.spaces (r : Resources) : Set Nat :=
  { root | ∃ pid held, r.holding pid = some held ∧ held.ttbr0.toNat = root }

/-- The allocator with the address space of the kernel, and those of the processes. -/
def Resources.pool (r : Resources) : Pool := ⟨r.alloc, insert r.kernelL1 r.spaces⟩

section Spaces

variable {r after : Resources} {roots : Set Nat} {free : List Nat} {managed : Set Nat}
  {pid : UInt64}

/-- Any entry of another root may change. -/
theorem mayChange_other {kernelL1 root : Nat} (distinct : root ≠ kernelL1) (index : EntryIndex) :
    mayChange kernelL1 root index := fun same => absurd same distinct

/-- Address spaces are accounted for exactly if a process holds them. -/
theorem Resources.Assigned.spaces_eq (assigned : r.Assigned roots) : r.spaces = roots := by
  ext root
  constructor
  · rintro ⟨pid, held, holds, rfl⟩
    exact assigned.live holds
  · exact assigned.held root

/-- When one process comes to hold something else, only its own address space is exchanged. -/
theorem Resources.Assigned.mem_spaces (assigned : r.Assigned roots) {value : Option Holding}
    (holding : after.holding = Function.update r.holding pid value) (root : Nat) :
    root ∈ after.spaces ↔ (∃ held, value = some held ∧ held.ttbr0.toNat = root) ∨
      root ∈ roots ∧ ∀ held, r.holding pid = some held → held.ttbr0.toNat ≠ root := by
  -- A space belongs to the process that has changed, or to one that has not.
  constructor
  · rintro ⟨other, held, holds, isRoot⟩
    rw [holding, Function.update_apply] at holds
    split at holds
    · exact Or.inl ⟨held, holds, isRoot⟩
    · rename_i distinct
      refine Or.inr ⟨isRoot ▸ assigned.live holds, fun mine here same => distinct ?_⟩
      exact assigned.alone holds here (UInt64.toNat_inj.mp (isRoot.trans same.symm))
  · rintro (⟨held, rfl, isRoot⟩ | ⟨live, others⟩)
    · exact ⟨pid, held, by rw [holding, Function.update_self], isRoot⟩
    · obtain ⟨other, held, holds, isRoot⟩ := assigned.held root live
      refine ⟨other, held, ?_, isRoot⟩
      rw [holding, Function.update_of_ne]
      · exact holds
      · rintro rfl
        exact others held holds isRoot

/-- A process that held nothing adds its address space, -/
theorem Resources.Assigned.spaces_added (assigned : r.Assigned roots) {held : Holding}
    (vacant : r.holding pid = none)
    (holding : after.holding = Function.update r.holding pid (some held)) :
    after.spaces = insert held.ttbr0.toNat roots := by
  ext root
  rw [assigned.mem_spaces holding root, vacant, Set.mem_insert_iff]
  constructor
  · rintro (⟨other, same, rfl⟩ | ⟨live, -⟩)
    · exact Or.inl (congrArg (·.ttbr0.toNat) (Option.some.inj same).symm)
    · exact Or.inr live
  · rintro (rfl | live)
    · exact Or.inl ⟨held, rfl, rfl⟩
    · exact Or.inr ⟨live, fun other impossible => by cases impossible⟩

/-- one that holds nothing any more takes its own away, -/
theorem Resources.Assigned.spaces_dropped (assigned : r.Assigned roots) {old : Holding}
    (holds : r.holding pid = some old)
    (holding : after.holding = Function.update r.holding pid none) :
    after.spaces = roots \ {old.ttbr0.toNat} := by
  ext root
  rw [assigned.mem_spaces holding root, holds]
  constructor
  · rintro (⟨other, impossible, -⟩ | ⟨live, others⟩)
    · cases impossible
    · exact ⟨live, fun same => others old rfl same.symm⟩
  · rintro ⟨live, apart⟩
    refine Or.inr ⟨live, fun other same isRoot => apart ?_⟩
    exact ((congrArg (·.ttbr0.toNat) (Option.some.inj same)).trans isRoot).symm

/-- and one that holds something else exchanges it. -/
theorem Resources.Assigned.spaces_exchanged (assigned : r.Assigned roots) {old held : Holding}
    (holds : r.holding pid = some old)
    (holding : after.holding = Function.update r.holding pid (some held)) :
    after.spaces = insert held.ttbr0.toNat (roots \ {old.ttbr0.toNat}) := by
  ext root
  rw [assigned.mem_spaces holding root, holds, Set.mem_insert_iff]
  constructor
  · rintro (⟨other, same, rfl⟩ | ⟨live, others⟩)
    · exact Or.inl (congrArg (·.ttbr0.toNat) (Option.some.inj same).symm)
    · exact Or.inr ⟨live, fun same => others old rfl same.symm⟩
  · rintro (rfl | ⟨live, apart⟩)
    · exact Or.inl ⟨held, rfl, rfl⟩
    · refine Or.inr ⟨live, fun other same isRoot => apart ?_⟩
      exact ((congrArg (·.ttbr0.toNat) (Option.some.inj same)).trans isRoot).symm

end Spaces

section Bytes

variable (mem : Mem) (start : Nat)

/-- A word is written byte by byte. -/
theorem writeLE_eq_store (count value : Nat) : writeLE mem start count value =
    store mem start ((List.range count).map fun i => UInt8.ofNat (value / 256 ^ i)) := by
  funext address
  unfold writeLE store
  by_cases above : start ≤ address
  · rw [if_pos above]
    by_cases inside : address < start + count
    · rw [if_pos ⟨above, inside⟩, List.getD_eq_getElem _ _ (by
        rw [List.length_map, List.length_range]
        omega), List.getElem_map, List.getElem_range]
    · rw [if_neg fun both => inside both.2, List.getD_eq_default _ _ (by
        rw [List.length_map, List.length_range]
        omega)]
  · rw [if_neg fun both => above both.1, if_neg above]

/-- One byte is a string of length one. -/
theorem update_eq_store (byte : UInt8) : Function.update mem start byte = store mem start [byte] := by
  funext address
  unfold store
  rw [Function.update_apply]
  by_cases here : address = start
  · subst here
    simp
  · rw [if_neg here]
    split
    · rw [List.getD_eq_default _ _ (by rw [List.length_singleton]; omega)]
    · rfl

end Bytes

section Stacks

variable {k next : Kernel} {roots : Set Nat} {kernelL1 : Nat} {alloc after : PageAllocator}
  {slot : Fin maxProcesses}

/-- Where the pages of a slot are, only the part of the table that may change is concerned. -/
theorem mayChange_stack (kernelL1 : Nat) (slot : Fin maxProcesses) {page : Nat} (small : page < 7) :
    mayChange kernelL1 kernelL1 (l1Index (kernelStackStart slot + page * 4096)) := by
  intro _
  refine (stackPage_upper slot _ ?_).1
  simp only [kernelStackSize]
  omega

/-- The pages of a stack are mapped one after the other, -/
theorem allocStackFrames_moves (live : kernelL1 ∈ roots) (pages : List Nat)
    (small : ∀ page ∈ pages, page < 7)
    (done : allocStackFrames (kernelStackStart slot) kernelL1 pages alloc = .ok after) :
    Pool.Moves (mayChange kernelL1) ⟨alloc, roots⟩ ⟨after, roots⟩ := by
  induction pages generalizing alloc with
  | nil =>
    cases done
    exact .refl
  | cons page rest ih =>
    rw [allocStackFrames] at done
    split at done
    · rename_i mapped
      exact .head (.allocPage live (mayChange_stack kernelL1 slot (small page List.mem_cons_self))
        mapped) (ih (fun page member => small page (List.mem_cons_of_mem _ member)) done)
    · cases done

/-- and a word is written into the last one. -/
theorem Kernel.StackAllocated.moves {pid top : UInt64} (allocated : k.StackAllocated pid top slot next)
    (live : k.kernelL1 ∈ roots) :
    Pool.Moves (mayChange k.kernelL1) ⟨k.alloc, roots⟩ ⟨next.alloc, roots⟩ ∧
      next.kernelL1 = k.kernelL1 := by
  obtain ⟨alloc, pa, mapped, probed, rfl⟩ := allocated.next_eq
  obtain ⟨leaf, found, rfl⟩ := ttbr0ToPa_eq_some.mp probed
  refine ⟨(allocStackFrames_moves live _ (fun page listed => (stackPage_lt listed).2) mapped).trans
    (.single ?_), rfl⟩
  show Pool.Move (mayChange k.kernelL1) ⟨alloc, roots⟩
    ⟨{ alloc with mem := writeLE alloc.mem _ 8 stackProbe }, roots⟩
  rw [writeLE_eq_store]
  refine .write live found (fun _ => rfl) ?_
  have position : (kernelStackTop slot - 0x10) % 4096 = 0xff0 := by
    simp only [kernelStackTop, kernelStackStart, kernelStackRegionStart, kernelStackSize]
    omega
  rw [position, List.length_map, List.length_range]
  decide

/-- A stack is copied by one copy. -/
theorem copyStack_moves {src dst length : Nat} (live : kernelL1 ∈ roots)
    (done : copyStack src dst length kernelL1 alloc = .ok after) :
    Pool.Moves (mayChange kernelL1) ⟨alloc, roots⟩ ⟨after, roots⟩ := by
  unfold copyStack at done
  split at done
  · cases done
  · rename_i bytes _
    split at done
    · rename_i copied
      cases done
      have move : Pool.Move (mayChange kernelL1) ⟨alloc, roots⟩
          ⟨(copyToPages bytes dst kernelL1 alloc).2, roots⟩ := .copyToPages live bytes
      rw [copied] at move
      exact .single move
    · cases done

/-- The pages of a slot are unmapped one after the other. -/
theorem freeStackFrames_moves (live : kernelL1 ∈ roots) (pages : List Nat)
    (small : ∀ page ∈ pages, page < 7) (alloc : PageAllocator) :
    Pool.Moves (mayChange kernelL1) ⟨alloc, roots⟩
      ⟨pages.foldl (fun alloc page =>
        freePage (kernelStackStart slot + page * 4096) kernelL1 alloc) alloc, roots⟩ := by
  induction pages generalizing alloc with
  | nil => exact .refl
  | cons page rest ih =>
    exact .head (.freePage live (mayChange_stack kernelL1 slot (small page List.mem_cons_self)))
      (ih (fun page member => small page (List.mem_cons_of_mem _ member)) _)

/-- What `free_queued_stacks` does for one slot. -/
theorem Kernel.freeQueuedStack_moves (small : k.kernelL1 < 2 ^ 39) (live : k.kernelL1 ∈ roots)
    (done : k.freeQueuedStack slot = .ok next) :
    Pool.Moves (mayChange k.kernelL1) ⟨k.alloc, roots⟩ ⟨next.alloc, roots⟩ ∧
      next.kernelL1 = k.kernelL1 := by
  -- The table is named by its kernel address, which leads back to the frame.
  have back : ttbr1ToPa (ttbr1ToVa k.kernelL1) = k.kernelL1 := ttbr1ToPa_ttbr1ToVa small
  -- Only a stack that another process has queued is freed.
  unfold Kernel.freeQueuedStack at done
  split at done
  · rename_i pid queued
    split at done
    · cases done
    · split at done
      · cases done
        exact ⟨.refl, rfl⟩
      · simp only [Kernel.freeStack, queued, back, Except.ok.injEq] at done
        subst done
        exact ⟨freeStackFrames_moves live _ (fun page listed => (stackPage_lt listed).2) k.alloc,
          rfl⟩
  · cases done
    exact ⟨.refl, rfl⟩

/-- `free_queued_stacks` unmaps the pages of the slots that are queued. -/
theorem Kernel.freeQueuedStacks_moves (small : k.kernelL1 < 2 ^ 39) (live : k.kernelL1 ∈ roots)
    (done : k.freeQueuedStacks = .ok next) :
    Pool.Moves (mayChange k.kernelL1) ⟨k.alloc, roots⟩ ⟨next.alloc, roots⟩ ∧
      next.kernelL1 = k.kernelL1 := by
  unfold Kernel.freeQueuedStacks at done
  generalize List.finRange maxProcesses = slots at done
  -- Slot after slot, the kernel's own table stays the same.
  induction slots generalizing k with
  | nil =>
    cases done
    exact ⟨.refl, rfl⟩
  | cons slot rest ih =>
    rw [List.foldlM_cons] at done
    cases one : k.freeQueuedStack slot with
    | error stop =>
      rw [one] at done
      cases done
    | ok middle =>
      rw [one] at done
      obtain ⟨first, same⟩ := Kernel.freeQueuedStack_moves small live one
      obtain ⟨others, sameLast⟩ := ih (same ▸ small) (same ▸ live) done
      rw [same] at others
      exact ⟨first.trans others, sameLast.trans same⟩

end Stacks

section Programs

variable {k next : Kernel} {self : Process} {roots : Set Nat} {free : List Nat}
  {managed : Set Nat} {alloc after last : PageAllocator}

/-- Arguments are pushed by one copy, which may fail, and the root stays the same. -/
theorem initializeArgs_moves {may : Nat → EntryIndex → Prop} {args : List String}
    {pctx changed : ProcessContext} {result : Except String Unit}
    (live : pctx.ttbr0.toNat ∈ roots)
    (done : initializeArgs args pctx alloc = (result, changed, last)) :
    Pool.Moves may ⟨alloc, roots⟩ ⟨last, roots⟩ ∧ changed.ttbr0 = pctx.ttbr0 := by
  -- Nothing is copied unless the strings have been laid out.
  unfold initializeArgs pushArgsToStack at done
  cases made : argsImage args with
  | error error =>
    rw [made] at done
    cases done
    exact ⟨.refl, rfl⟩
  | ok image =>
    obtain ⟨image, sp⟩ := image
    rw [made] at done
    dsimp only at done
    -- Whether the copy gets to its end or not, it is one move.
    have move : Pool.Move may ⟨alloc, roots⟩ ⟨(copyToPages
        ((List.range (stackBufSize - sp)).map fun position => image (sp + position))
        (pctx.spEl0 - UInt64.ofNat (stackBufSize - sp)).toNat pctx.ttbr0.toNat alloc).2, roots⟩ :=
      .copyToPages live _
    generalize copyToPages _ _ _ alloc = written at done move
    obtain ⟨written, next⟩ := written
    cases written with
    | error error =>
      cases done
      exact ⟨.single move, rfl⟩
    | ok _ =>
      cases done
      exact ⟨.single move, rfl⟩

/-- A byte is stored into one page, if that is mapped. -/
theorem Kernel.storeByte_moves {may : Nat → EntryIndex → Prop} {root : Nat} (live : root ∈ roots)
    (va : Nat) (byte : UInt8) :
    Pool.Moves may ⟨k.alloc, roots⟩ ⟨(k.storeByte root va byte).alloc, roots⟩ := by
  unfold Kernel.storeByte
  split
  · rename_i pa found
    obtain ⟨leaf, mapped, rfl⟩ := ttbr0ToPa_eq_some.mp found
    rw [update_eq_store]
    refine .single (.write live mapped (fun _ => rfl) ?_)
    have below : va % 4096 < 4096 := Nat.mod_lt _ (by decide)
    simpa using below
  · exact .refl

/-- `fork` copies the address space of its caller, and then the kernel stack. -/
theorem Kernel.forkProcess_moves {child : Process} {root : Nat} {copy : PageAllocator}
    (takes : k.ForkTakes self child root copy next) (live : self.pctx.ttbr0.toNat ∈ roots)
    (apart : k.kernelL1 ∉ roots) (fresh : root ∉ insert k.kernelL1 roots)
    (inactive : ∀ stack, k.kernelStacks stack ≠ .allocated child.pid) :
    Pool.Moves (mayChange k.kernelL1) ⟨k.alloc, insert k.kernelL1 roots⟩
        ⟨next.alloc, insert k.kernelL1 (insert root roots)⟩ ∧ next.kernelL1 = k.kernelL1 := by
  have notSource : self.pctx.ttbr0.toNat ≠ k.kernelL1 := fun same => apart (same ▸ live)
  have notTarget : root ≠ k.kernelL1 := fun same => fresh (same ▸ Set.mem_insert _ _)
  -- The child has no stack yet, so one is allocated for it.
  have none : Kernel.getActiveStackIndex { k with alloc := copy, nextPid := k.nextPid + 1 }
      child.pid = none := Kernel.getActiveStackIndex_none.mpr inactive
  obtain ⟨mid, top, stack, size, alloc, allocated, -, -, copies, rfl⟩ :=
    Kernel.duplicateStack_ok none takes.stack
  have liveKernel : k.kernelL1 ∈ insert k.kernelL1 (insert root roots) := Set.mem_insert _ _
  -- The copy is one move on the child's new root.
  have duplicated : Pool.Move (mayChange k.kernelL1) ⟨k.alloc, insert k.kernelL1 roots⟩
      ⟨copy, insert root (insert k.kernelL1 roots)⟩ :=
    .duplicated (Set.mem_insert_of_mem _ live) (mayChange_other notSource)
      (mayChange_other notTarget) takes.space
  rw [Set.insert_comm] at duplicated
  obtain ⟨given, same⟩ := allocated.moves liveKernel
  have same : mid.kernelL1 = k.kernelL1 := same
  rw [same] at copies
  -- The stack is allocated and filled in the kernel's own tables.
  exact ⟨(Relation.ReflTransGen.head duplicated given).trans (copyStack_moves liveKernel copies), same⟩

/-- `exec` loads the new program, gives up the old one, and then takes a stack for the new one. -/
theorem Kernel.exec_moves {bytes : List UInt8} {args : List String} {slot : Fin maxProcesses}
    (accounted : k.resources.Accounted roots free managed) (live : self.pctx.ttbr0.toNat ∈ roots)
    (loadsFresh : LoadsFresh bytes)
    (inside : ∀ header, Elf64Hdr.mkfrombytes bytes = some header →
      ∀ ph ∈ header.loaded bytes, ph.StaysInside)
    (done : k.exec slot self bytes args = .ok (.ok (), next)) :
    ∃ root pctx, next.processTable = put k.processTable slot (some { self with pctx }) ∧
      pctx.ttbr0.toNat = root ∧ next.kernelL1 = k.kernelL1 ∧
      Pool.Moves (mayChange k.kernelL1) ⟨k.alloc, insert k.kernelL1 roots⟩
        ⟨next.alloc, insert k.kernelL1 (insert root (roots \ {self.pctx.ttbr0.toNat}))⟩ := by
  have liveKernel : k.kernelL1 ∈ insert k.kernelL1 roots := Set.mem_insert _ _
  have notKernel : self.pctx.ttbr0.toNat ≠ k.kernelL1 := (accounted.ne_kernel live).symm
  cases Kernel.exec_ends done with
  | @withStack entry sp root alloc last old stack top mid _ pctx loads active allocated pushes =>
    -- The new root is neither the kernel's nor that of the caller.
    obtain ⟨fresh, -, left, loaded⟩ := accounted.loaded loadsFresh loads
    have ownedLoaded : Owned alloc (insert k.kernelL1 (insert root roots)) left managed := loaded.owned
    have fits : (UInt64.ofNat root).toNat = root :=
      ownedLoaded.root_fits (Set.mem_insert_of_mem _ (Set.mem_insert _ _))
    have notRoot : root ≠ k.kernelL1 := fun same => fresh (same ▸ liveKernel)
    have distinct : self.pctx.ttbr0.toNat ≠ root := fun same =>
      fresh (same ▸ Set.mem_insert_of_mem _ live)
    -- What is left after the old root is retired.
    have remaining : insert root (insert k.kernelL1 roots) \ {self.pctx.ttbr0.toNat} =
        insert k.kernelL1 (insert root (roots \ {self.pctx.ttbr0.toNat})) := by
      rw [Set.insert_sdiff_of_notMem _ (by simpa using distinct.symm),
        Set.insert_sdiff_of_notMem _ (by simpa using notKernel.symm), Set.insert_comm]
    -- First the new program is loaded beside the old one, which is then freed;
    have loading : Pool.Moves (mayChange k.kernelL1) ⟨k.alloc, insert k.kernelL1 roots⟩
        ⟨alloc, insert root (insert k.kernelL1 roots)⟩ :=
      loadElf_moves inside (mayChange_other notRoot) loads
    have retiring : Pool.Move (mayChange k.kernelL1)
        ⟨alloc, insert root (insert k.kernelL1 roots)⟩
        ⟨freePageTable self.pctx.ttbr0.toNat alloc,
          insert root (insert k.kernelL1 roots) \ {self.pctx.ttbr0.toNat}⟩ :=
      .freePageTable (Set.mem_insert_of_mem _ (Set.mem_insert_of_mem _ live))
        (mayChange_other notKernel)
    rw [remaining] at retiring
    -- the kernel stack and the arguments come after that.
    have liveStill : k.kernelL1 ∈ insert k.kernelL1 (insert root (roots \ {self.pctx.ttbr0.toNat})) :=
      Set.mem_insert _ _
    obtain ⟨given, same⟩ := allocated.moves liveStill
    have liveNew : (ProcessContext.new (UInt64.ofNat entry) (UInt64.ofNat sp) top
        (UInt64.ofNat root)).ttbr0.toNat ∈
          insert k.kernelL1 (insert root (roots \ {self.pctx.ttbr0.toNat})) := by
      show (UInt64.ofNat root).toNat ∈ _
      rw [fits]
      exact Set.mem_insert_of_mem _ (Set.mem_insert _ _)
    obtain ⟨pushing, ttbr0⟩ := initializeArgs_moves liveNew pushes
    refine ⟨root, pctx, ?_, ?_, same, ?_⟩
    · obtain ⟨_, _, _, _, equal⟩ := allocated.next_eq
      rw [equal]
      rfl
    · rw [ttbr0]
      exact fits
    · -- The four stages are moves of the pool, one after another.
      exact ((loading.tail retiring).trans given).trans pushing

end Programs

end AtOS
