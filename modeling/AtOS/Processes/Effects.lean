import AtOS.Processes.ProcessTree

/-! What the operations on page tables and kernel stacks leave alone: the processes. -/

namespace AtOS

open SlotTable

variable {k next : Kernel}

/-- Only frames and kernel stacks may differ. -/
def Kernel.SameProcesses (k next : Kernel) : Prop :=
  ∃ alloc kernelStacks, next = { k with alloc, kernelStacks }

/-- A kernel has its own processes. -/
theorem Kernel.SameProcesses.refl (k : Kernel) : k.SameProcesses k := ⟨k.alloc, k.kernelStacks, rfl⟩

/-- Two steps that leave the processes alone do so together. -/
theorem Kernel.SameProcesses.trans {last : Kernel} (first : k.SameProcesses next)
    (second : next.SameProcesses last) : k.SameProcesses last := by
  obtain ⟨_, _, rfl⟩ := first
  obtain ⟨alloc, states, rfl⟩ := second
  exact ⟨alloc, states, rfl⟩

/-- What leaves the processes alone records nothing. -/
theorem Kernel.SameProcesses.log (same : k.SameProcesses next) : next.log = k.log := by
  obtain ⟨_, _, rfl⟩ := same
  rfl

/-- Changing the frames alone. -/
theorem Kernel.SameProcesses.ofAlloc (k : Kernel) (alloc : PageAllocator) :
    k.SameProcesses { k with alloc } := ⟨alloc, k.kernelStacks, rfl⟩

/-- A stop that the memory is the reason for: a panic of the page allocator or an access fault. -/
def Stop.FromMemory (stop : Stop) : Prop := (∃ panic, stop = .panic panic) ∨ stop = .halted

/-- `alloc_stack` leaves the processes alone. -/
theorem Kernel.allocStack_same {pid : UInt64} {result : Except String UInt64}
    (done : k.allocStack pid = .ok (result, next)) : k.SameProcesses next := by
  unfold Kernel.allocStack at done
  split at done
  · cases done
    exact .refl k
  split at done
  · cases done
    exact .refl k
  dsimp only at done
  split at done
  · cases done
  split at done
  · cases done
  · cases done
    exact ⟨_, _, rfl⟩

/-- `alloc_stack` stops only for lack of frames, or because its test write faults. -/
theorem Kernel.allocStack_stops {pid : UInt64} {stop : Stop}
    (failed : k.allocStack pid = .error stop) : stop.FromMemory := by
  unfold Kernel.allocStack at failed
  split at failed
  · cases failed
  split at failed
  · cases failed
  dsimp only at failed
  split at failed
  · cases failed
    exact Or.inl ⟨_, rfl⟩
  split at failed
  · cases failed
    exact Or.inr rfl
  · cases failed

/-- `queue_stack_to_free` leaves the processes alone. -/
theorem Kernel.queueStackToFree_same {pid : UInt64}
    (done : k.queueStackToFree pid = .ok next) : k.SameProcesses next := by
  unfold Kernel.queueStackToFree at done
  split at done
  · cases done
    exact ⟨_, _, rfl⟩
  · cases done

/-- Copying a kernel stack can only stop the kernel for want of memory. -/
theorem copyStack_stops {src dst length kernelL1 : Nat} {alloc : PageAllocator} {stop : Stop}
    (failed : copyStack src dst length kernelL1 alloc = .error stop) : stop.FromMemory := by
  unfold copyStack at failed
  split at failed
  · cases failed
    exact Or.inr rfl
  split at failed
  · cases failed
  · cases failed
    exact Or.inr rfl

/-- The second part of `duplicate_stack`, once the copy has a stack. -/
def Kernel.copyActiveStack (k : Kernel) (srcPid srcSpEl1 dstStackTop : UInt64) :
    Except Stop (Except String UInt64 × Kernel) :=
  match k.getStackUsage srcPid srcSpEl1.toNat with
  | .error error => .ok (.error error, k)
  | .ok activeSize =>
    match copyStack srcSpEl1.toNat (dstStackTop - UInt64.ofNat activeSize).toNat activeSize
      k.kernelL1 k.alloc with
    | .error stop => .error stop
    | .ok alloc => .ok (.ok (dstStackTop - UInt64.ofNat activeSize), { k with alloc })

/-- `duplicate_stack` finds the child's stack or makes it, and then copies the parent's into it. -/
theorem Kernel.duplicateStack_eq (k : Kernel) (srcPid destPid srcSpEl1 : UInt64) :
    k.duplicateStack srcPid destPid srcSpEl1 =
      match (match k.getStackTop destPid with
        | .ok top => .ok (.ok (UInt64.ofNat top), k)
        | .error _ => k.allocStack destPid : Except Stop (Except String UInt64 × Kernel)) with
      | .error stop => .error stop
      | .ok (.error error, k) => .ok (.error error, k)
      | .ok (.ok dstStackTop, k) => k.copyActiveStack srcPid srcSpEl1 dstStackTop := rfl

/-- Copying the active stack leaves the processes alone. -/
theorem Kernel.copyActiveStack_same {srcPid srcSpEl1 top : UInt64} {result : Except String UInt64}
    (done : k.copyActiveStack srcPid srcSpEl1 top = .ok (result, next)) : k.SameProcesses next := by
  unfold Kernel.copyActiveStack at done
  split at done
  · cases done
    exact .refl k
  split at done
  · cases done
  · cases done
    exact .ofAlloc k _

/-- Copying the active stack stops the kernel for want of memory only. -/
theorem Kernel.copyActiveStack_stops {srcPid srcSpEl1 top : UInt64} {stop : Stop}
    (failed : k.copyActiveStack srcPid srcSpEl1 top = .error stop) : stop.FromMemory := by
  unfold Kernel.copyActiveStack at failed
  split at failed
  · cases failed
  split at failed
  · rename_i stopped
    cases failed
    exact copyStack_stops stopped
  · cases failed

/-- `duplicate_stack` leaves the processes alone. -/
theorem Kernel.duplicateStack_same {srcPid destPid srcSpEl1 : UInt64}
    {result : Except String UInt64}
    (done : k.duplicateStack srcPid destPid srcSpEl1 = .ok (result, next)) :
    k.SameProcesses next := by
  -- The child's stack is there already, or it is allocated first.
  rw [Kernel.duplicateStack_eq] at done
  cases stack : k.getStackTop destPid with
  | ok top =>
    rw [stack] at done
    exact Kernel.copyActiveStack_same done
  | error error =>
    rw [stack] at done
    dsimp only at done
    split at done
    · cases done
    · rename_i allocated
      cases done
      exact Kernel.allocStack_same allocated
    · rename_i allocated
      exact (Kernel.allocStack_same allocated).trans (Kernel.copyActiveStack_same done)

/-- `duplicate_stack` stops only because of the memory. -/
theorem Kernel.duplicateStack_stops {srcPid destPid srcSpEl1 : UInt64} {stop : Stop}
    (failed : k.duplicateStack srcPid destPid srcSpEl1 = .error stop) : stop.FromMemory := by
  rw [Kernel.duplicateStack_eq] at failed
  cases stack : k.getStackTop destPid with
  | ok top =>
    rw [stack] at failed
    exact Kernel.copyActiveStack_stops failed
  | error error =>
    rw [stack] at failed
    dsimp only at failed
    split at failed
    · rename_i stopped
      cases failed
      exact Kernel.allocStack_stops stopped
    · cases failed
    · exact Kernel.copyActiveStack_stops failed

section FreeQueued

/-- What `free_queued_stacks` makes of a stack: those of other processes than the current are free. -/
def StackState.afterFreeing (current : UInt64) : StackState → StackState
  | .queuedToFree pid => if pid = current then .queuedToFree pid else .free
  | state => state

/-- Freeing one queued stack, while there is a current process. -/
theorem Kernel.freeQueuedStack_eq {self : Process}
    (current : k.processTable k.currentProcess = some self) (slot : Fin maxProcesses) :
    ∃ alloc, k.freeQueuedStack slot = .ok { k with
      alloc
      kernelStacks := Function.update k.kernelStacks slot
        ((k.kernelStacks slot).afterFreeing self.pid) } := by
  -- A slot that is not freed keeps its state.
  have unchanged : ∀ state, k.kernelStacks slot = state →
      { k with kernelStacks := Function.update k.kernelStacks slot state } = k := by
    rintro _ rfl
    rw [Function.update_eq_self]
  unfold Kernel.freeQueuedStack Kernel.getCurrentProcess
  rw [current]
  cases state : k.kernelStacks slot with
  | allocated pid => exact ⟨k.alloc, congrArg _ (unchanged _ state).symm⟩
  | free => exact ⟨k.alloc, congrArg _ (unchanged _ state).symm⟩
  -- Only a stack that is queued by another process is freed.
  | queuedToFree pid =>
    dsimp only [StackState.afterFreeing]
    split
    · exact ⟨k.alloc, congrArg _ (unchanged _ state).symm⟩
    · simp only [Kernel.freeStack, state, Kernel.setStack]
      exact ⟨_, rfl⟩

/-- Freeing the queued stacks of a list of slots, while there is a current process. -/
theorem Kernel.freeQueued_foldlM {self : Process} (slots : List (Fin maxProcesses)) :
    ∀ {k : Kernel}, k.processTable k.currentProcess = some self → ∃ alloc states,
      slots.foldlM Kernel.freeQueuedStack k =
        (.ok { k with alloc, kernelStacks := states } : Except Stop Kernel) ∧
      ∀ slot, states slot = if slot ∈ slots then (k.kernelStacks slot).afterFreeing self.pid
        else k.kernelStacks slot := by
  -- The induction is on the slots still to look at.
  induction slots with
  | nil =>
    intro k current
    exact ⟨k.alloc, k.kernelStacks, rfl, fun slot => by simp⟩
  | cons slot rest ih =>
    intro k current
    obtain ⟨alloc, one⟩ := Kernel.freeQueuedStack_eq current slot
    obtain ⟨after, states, others, freed⟩ := @ih { k with
      alloc
      kernelStacks := Function.update k.kernelStacks slot
        ((k.kernelStacks slot).afterFreeing self.pid) } current
    refine ⟨after, states, ?_, fun other => ?_⟩
    · rw [List.foldlM_cons, one]
      exact others
    · rw [freed other]
      -- A slot that comes up twice is freed once and then left alone.
      have twice : ∀ state : StackState,
          (state.afterFreeing self.pid).afterFreeing self.pid = state.afterFreeing self.pid := by
        intro state
        cases state with
        | allocated pid => rfl
        | free => rfl
        | queuedToFree pid =>
          by_cases same : pid = self.pid <;> simp [StackState.afterFreeing, same]
      by_cases same : other = slot
      · subst same
        simp only [Function.update_self, List.mem_cons, true_or, if_true, twice, ite_self]
      · simp only [Function.update_of_ne same, List.mem_cons, same, false_or]

/-- `free_queued_stacks` frees what the current process has not queued itself. -/
theorem Kernel.freeQueuedStacks_eq {self : Process}
    (current : k.processTable k.currentProcess = some self) : ∃ alloc,
      k.freeQueuedStacks = .ok { k with
        alloc
        kernelStacks := fun slot => (k.kernelStacks slot).afterFreeing self.pid } := by
  obtain ⟨alloc, states, done, freed⟩ := Kernel.freeQueued_foldlM (List.finRange maxProcesses) current
  refine ⟨alloc, done.trans ?_⟩
  have all : states = fun slot => (k.kernelStacks slot).afterFreeing self.pid := by
    funext slot
    rw [freed slot, if_pos (List.mem_finRange slot)]
  rw [all]

end FreeQueued

section Lifecycle

variable {self : Process}

/-- `NEXT_PID` is incremented unless it would overflow. -/
theorem Kernel.takePid_ok {pid : UInt64} (done : k.takePid = .ok (pid, next)) :
    k.nextPid.toNat + 1 < 2 ^ 64 ∧ pid = k.nextPid ∧ next = { k with nextPid := k.nextPid + 1 } := by
  unfold Kernel.takePid at done
  split at done
  · rename_i room
    cases done
    exact ⟨room, rfl, rfl⟩
  · cases done

/-- A pid is refused only when the counter overflows. -/
theorem Kernel.takePid_stops {stop : Stop} (failed : k.takePid = .error stop) :
    stop = .failed .addOverflow := by
  unfold Kernel.takePid at failed
  split at failed <;> cases failed
  rfl

/-- What `fork` makes of the kernel and the process that forks. -/
structure Kernel.Forked (k : Kernel) (process child : Process) (next : Kernel) : Prop where
  room : k.nextPid.toNat + 1 < 2 ^ 64
  pid : child.pid = k.nextPid
  parent : child.parentPid = process.pid
  ready : child.state = .ready
  awake : child.chan = 0
  context : ∃ ttbr0 spEl1, child.pctx = { process.pctx with ttbr0, spEl1 }
  same : { k with nextPid := k.nextPid + 1 }.SameProcesses next

/-- `fork` takes a pid and makes a child, if it succeeds. -/
theorem Kernel.forkProcess_ok {child : Process}
    (done : k.forkProcess self = .ok (.ok child, next)) : k.Forked self child next := by
  unfold Kernel.forkProcess at done
  split at done
  · cases done
  split at done
  · cases done
  rename_i taken
  obtain ⟨room, pid, rfl⟩ := Kernel.takePid_ok taken
  split at done
  · cases done
  · cases done
  rename_i duplicated
  have same := Kernel.duplicateStack_same duplicated
  cases done
  subst pid
  exact ⟨room, rfl, rfl, rfl, rfl, ⟨_, _, rfl⟩, (Kernel.SameProcesses.ofAlloc _ _).trans same⟩

/-- `fork` stops only because of the memory, or because the pids run out. -/
theorem Kernel.forkProcess_stops {stop : Stop} (failed : k.forkProcess self = .error stop) :
    stop.FromMemory ∨ stop = .failed .addOverflow := by
  unfold Kernel.forkProcess at failed
  split at failed
  · cases failed
  split at failed
  · rename_i stopped
    cases failed
    exact Or.inr (Kernel.takePid_stops stopped)
  split at failed
  · rename_i stopped
    cases failed
    exact Or.inl (Kernel.duplicateStack_stops stopped)
  · cases failed
  · cases failed

/-- A step on the allocator alone. -/
theorem Kernel.withAlloc_ok {Value : Type} {result : Except Panic (Except String Value × PageAllocator)}
    {value : Except String Value} (done : k.withAlloc result = .ok (value, next)) :
    k.SameProcesses next := by
  unfold Kernel.withAlloc at done
  split at done
  · cases done
    exact .ofAlloc k _
  · cases done

/-- An allocator operation can only stop the kernel for want of memory. -/
theorem Kernel.withAlloc_stops {Value : Type}
    {result : Except Panic (Except String Value × PageAllocator)} {stop : Stop}
    (failed : k.withAlloc result = .error stop) : stop.FromMemory := by
  unfold Kernel.withAlloc at failed
  split at failed
  · cases failed
  · cases failed
    exact Or.inl ⟨_, rfl⟩

/-- `exec` changes the registers of its process at most, and always does when it succeeds. -/
theorem Kernel.exec_ok {slot : Fin maxProcesses} {bytes : List UInt8} {args : List String}
    {result : Except String Unit} (done : k.exec slot self bytes args = .ok (result, next)) :
    (∃ mid pctx, k.SameProcesses mid ∧ next = mid.setEntry slot (some { self with pctx })) ∨
      (k.SameProcesses next ∧ ∃ error, result = .error error) := by
  unfold Kernel.exec at done
  -- A file that fails to load ends the call, and the entry is as it was.
  split at done
  · cases done
  · rename_i loaded
    cases done
    exact Or.inr ⟨Kernel.withAlloc_ok loaded, _, rfl⟩
  rename_i loaded
  have first := Kernel.withAlloc_ok loaded
  dsimp only at done
  -- The old stack is queued and a new one is taken. Either of them may fail.
  split at done
  · cases done
    exact Or.inr ⟨first.trans (.ofAlloc _ _), _, rfl⟩
  rename_i queued
  have second := first.trans ((Kernel.SameProcesses.ofAlloc _ _).trans
    (Kernel.queueStackToFree_same queued))
  split at done
  · cases done
  · rename_i allocated
    cases done
    exact Or.inr ⟨second.trans (Kernel.allocStack_same allocated), _, rfl⟩
  rename_i allocated
  have third := second.trans (Kernel.allocStack_same allocated)
  -- The process gets its context, whether or not its arguments can be set up.
  split at done
  · cases done
    exact Or.inl ⟨_, _, third.trans (.ofAlloc _ _), rfl⟩
  · cases done
    exact Or.inl ⟨_, _, third.trans (.ofAlloc _ _), rfl⟩

/-- `exec` stops only because of the memory. -/
theorem Kernel.exec_stops {slot : Fin maxProcesses} {bytes : List UInt8} {args : List String}
    {stop : Stop} (failed : k.exec slot self bytes args = .error stop) : stop.FromMemory := by
  unfold Kernel.exec at failed
  -- Only the two allocating calls can panic.
  split at failed
  · rename_i stopped
    cases failed
    exact Kernel.withAlloc_stops stopped
  · cases failed
  dsimp only at failed
  split at failed
  · cases failed
  split at failed
  · rename_i stopped
    cases failed
    exact Kernel.allocStack_stops stopped
  · cases failed
  split at failed
  · cases failed
  · cases failed

/-- `terminate` marks its process and gives its children to pid 1. -/
theorem Kernel.terminate_ok {slot : Fin maxProcesses} {exitCode : Int64}
    (done : k.terminate slot self exitCode = .ok next) :
    { k with
      processTable := modifyAll (Process.reparent self.pid 1)
        (put k.processTable slot (some { self with exitCode, state := .terminated }))
    }.SameProcesses next := by
  unfold Kernel.terminate at done
  split at done
  · cases done
  · rename_i queued
    obtain ⟨alloc, states, rfl⟩ := Kernel.queueStackToFree_same queued
    cases done
    exact ⟨_, _, rfl⟩

/-- `terminate` fails only for a process without a kernel stack. -/
theorem Kernel.terminate_stops {slot : Fin maxProcesses} {exitCode : Int64} {stop : Stop}
    (failed : k.terminate slot self exitCode = .error stop) :
    k.getActiveStackIndex self.pid = none ∧ ∃ error, stop = .failed (.terminateUnwrap error) := by
  unfold Kernel.terminate Kernel.queueStackToFree at failed
  cases found : k.getActiveStackIndex self.pid with
  | none =>
    rw [found] at failed
    cases failed
    exact ⟨rfl, _, rfl⟩
  | some slot =>
    rw [found] at failed
    cases failed

end Lifecycle

end AtOS
