import AtOS.Resources.Taking
import Mathlib.Data.Finset.Card

/-! Kernel stacks over whole runs: whose they are, and whether those that are given up come back. -/

namespace AtOS

open SlotTable

variable {files : String → Option (List UInt8)} {k next : Kernel} {r after : Resources}
  {self : Process}

/-- Each kernel stack that is allocated belongs to a process that is alive and has no other. -/
structure Resources.SlotsOwned (r : Resources) : Prop where
  alone : ∀ {first second pid}, r.kernelStacks first = .allocated pid →
    r.kernelStacks second = .allocated pid → first = second
  alive : ∀ {stack pid}, r.kernelStacks stack = .allocated pid → (r.holding pid).isSome

/-- No process that is alive has given up two kernel stacks that are still queued. -/
def Resources.QueuedOnce (r : Resources) : Prop :=
  ∀ pid, (r.holding pid).isSome → ∀ first second, r.kernelStacks first = .queuedToFree pid →
    r.kernelStacks second = .queuedToFree pid → first = second

section Slots

/-- What is held may change as long as the same processes hold something. -/
theorem Resources.SlotsOwned.congr (owned : r.SlotsOwned)
    (slots : after.kernelStacks = r.kernelStacks)
    (holding : ∀ pid, (r.holding pid).isSome → (after.holding pid).isSome) : after.SlotsOwned :=
  ⟨fun here there => owned.alone (slots ▸ here) (slots ▸ there),
    fun here => holding _ (owned.alive (slots ▸ here))⟩

/-- What is queued once stays so when no more processes are alive. -/
theorem Resources.QueuedOnce.congr (once : r.QueuedOnce)
    (slots : after.kernelStacks = r.kernelStacks)
    (holding : ∀ pid, (after.holding pid).isSome → (r.holding pid).isSome) : after.QueuedOnce :=
  fun pid alive first second here there =>
    once pid (holding pid alive) first second (slots ▸ here) (slots ▸ there)

/-- A pid that held something still does when it gets something to hold. -/
theorem isSome_update {holding : UInt64 → Option Holding} {pid other : UInt64} {held : Holding}
    (alive : (holding pid).isSome) :
    (Function.update holding pid (some held) other).isSome = (holding other).isSome := by
  rw [Function.update_apply]
  split
  · rename_i same
    rw [same, alive]
    rfl
  · rfl

/-- A stack that is allocated after queued stacks were freed was so before. -/
theorem StackState.allocated_afterFreeing {state : StackState} {current pid : UInt64} :
    state.afterFreeing current = .allocated pid ↔ state = .allocated pid := by
  cases state with
  | allocated other => rfl
  | free => rfl
  | queuedToFree other =>
    by_cases same : other = current <;> simp [StackState.afterFreeing, same]

/-- Only stacks of the current process are still queued after freeing. -/
theorem StackState.queued_afterFreeing {state : StackState} {current pid : UInt64} :
    state.afterFreeing current = .queuedToFree pid ↔ state = .queuedToFree pid ∧ pid = current := by
  cases state with
  | allocated other => simp [StackState.afterFreeing]
  | free => simp [StackState.afterFreeing]
  | queuedToFree other =>
    by_cases same : other = current
    · simp only [StackState.afterFreeing, if_pos same, StackState.queuedToFree.injEq]
      exact ⟨fun equal => ⟨equal, equal ▸ same⟩, fun equal => equal.1⟩
    · simp only [StackState.afterFreeing, if_neg same, StackState.queuedToFree.injEq]
      exact ⟨fun impossible => (by cases impossible),
        fun equal => absurd (equal.1.trans equal.2) same⟩

/-- What others have not queued stays as it is. -/
theorem StackState.afterFreeing_mine {state : StackState} {current : UInt64}
    (mine : ∀ pid, state = .queuedToFree pid → pid = current) : state.afterFreeing current = state := by
  cases state with
  | queuedToFree pid => exact if_pos (mine pid rfl)
  | allocated pid => rfl
  | free => rfl

/-- Freeing queued stacks takes no stack from a process that is alive. -/
theorem Resources.SlotsOwned.freed (owned : r.SlotsOwned) {current : UInt64}
    (slots : after.kernelStacks = fun stack => (r.kernelStacks stack).afterFreeing current)
    (holding : ∀ pid, (after.holding pid).isSome = (r.holding pid).isSome) : after.SlotsOwned := by
  constructor
  case alone =>
    intro first second pid here there
    rw [slots] at here there
    exact owned.alone (StackState.allocated_afterFreeing.mp here)
      (StackState.allocated_afterFreeing.mp there)
  case alive =>
    intro stack pid here
    rw [slots] at here
    rw [holding]
    exact owned.alive (StackState.allocated_afterFreeing.mp here)

/-- Freeing stacks leaves the others queued once. -/
theorem Resources.QueuedOnce.freed (once : r.QueuedOnce) {current : UInt64}
    (slots : after.kernelStacks = fun stack => (r.kernelStacks stack).afterFreeing current)
    (holding : ∀ pid, (after.holding pid).isSome = (r.holding pid).isSome) : after.QueuedOnce := by
  intro pid alive first second here there
  rw [slots] at here there
  rw [holding] at alive
  exact once pid alive first second (StackState.queued_afterFreeing.mp here).1
    (StackState.queued_afterFreeing.mp there).1

/-- A process queues its only stack. -/
theorem Resources.SlotsOwned.queued (owned : r.SlotsOwned) {pid : UInt64} {stack : Fin maxProcesses}
    (active : r.kernelStacks stack = .allocated pid)
    (slots : after.kernelStacks = Function.update r.kernelStacks stack (.queuedToFree pid))
    (holding : ∀ owner, owner ≠ pid → (r.holding owner).isSome → (after.holding owner).isSome) :
    after.SlotsOwned := by
  -- A stack that is allocated now was so before, and is another one.
  have before : ∀ {other owner}, after.kernelStacks other = .allocated owner →
      other ≠ stack ∧ r.kernelStacks other = .allocated owner := by
    intro other owner here
    rw [slots, Function.update_apply] at here
    split at here
    · cases here
    · rename_i distinct
      exact ⟨distinct, here⟩
  constructor
  -- Of the stacks that stay allocated, nobody has two.
  case alone =>
    intro first second owner here there
    exact owned.alone (before here).2 (before there).2
  -- Who loses the stack may be gone, and the others are alive.
  case alive =>
    intro other owner here
    obtain ⟨distinct, was⟩ := before here
    refine holding owner ?_ (owned.alive was)
    rintro rfl
    exact distinct (owned.alone was active)

/-- Nothing else is queued for a process that queues a stack and stays alive. -/
theorem Resources.QueuedOnce.queued (once : r.QueuedOnce) {pid : UInt64} {stack : Fin maxProcesses}
    (slots : after.kernelStacks = Function.update r.kernelStacks stack (.queuedToFree pid))
    (holding : ∀ owner, owner ≠ pid → (after.holding owner).isSome → (r.holding owner).isSome)
    (none : (after.holding pid).isSome → ∀ other, r.kernelStacks other ≠ .queuedToFree pid) :
    after.QueuedOnce := by
  intro owner alive first second here there
  -- Only the process itself has a new stack in the queue.
  rw [slots, Function.update_apply] at here there
  by_cases same : owner = pid
  · subst same
    have others := none alive
    split at here
    · split at there
      · rename_i isFirst isSecond
        exact isFirst.trans isSecond.symm
      · exact absurd there (others second)
    · exact absurd here (others first)
  · split at here
    · cases here
      exact absurd rfl same
    · split at there
      · cases there
        exact absurd rfl same
      · exact once owner (holding owner same alive) first second here there

/-- A free slot is allocated to a process that has no stack. -/
theorem Resources.SlotsOwned.allocated (owned : r.SlotsOwned) {pid : UInt64}
    {stack : Fin maxProcesses} (inactive : ∀ other, r.kernelStacks other ≠ .allocated pid)
    (slots : after.kernelStacks = Function.update r.kernelStacks stack (.allocated pid))
    (holding : ∀ owner, (r.holding owner).isSome ∨ owner = pid → (after.holding owner).isSome) :
    after.SlotsOwned := by
  -- A stack that is allocated now is the new one, or was so before.
  have before : ∀ {other owner}, after.kernelStacks other = .allocated owner →
      (other = stack ∧ owner = pid) ∨ r.kernelStacks other = .allocated owner := by
    intro other owner here
    rw [slots, Function.update_apply] at here
    split at here
    · rename_i same
      exact Or.inl ⟨same, (StackState.allocated.inj here).symm⟩
    · exact Or.inr here
  constructor
  -- The process had no stack, so it has only the new one.
  case alone =>
    intro first second owner here there
    rcases before here with ⟨rfl, rfl⟩ | here <;> rcases before there with ⟨rfl, same⟩ | there
    · rfl
    · exact absurd there (inactive _)
    · exact absurd (same ▸ here) (inactive _)
    · exact owned.alone here there
  case alive =>
    intro other owner here
    rcases before here with ⟨-, rfl⟩ | here
    · exact holding owner (Or.inr rfl)
    · exact holding owner (Or.inl (owned.alive here))

/-- The stacks queued for a process are the same after a free slot was allocated. -/
theorem Resources.QueuedOnce.allocated (once : r.QueuedOnce) {pid : UInt64}
    {stack : Fin maxProcesses}
    (slots : after.kernelStacks = Function.update r.kernelStacks stack (.allocated pid))
    (holding : ∀ owner, (after.holding owner).isSome → (r.holding owner).isSome ∨
      ∀ other, r.kernelStacks other ≠ .queuedToFree owner) : after.QueuedOnce := by
  intro owner alive first second here there
  have before : ∀ {slot}, after.kernelStacks slot = .queuedToFree owner →
      r.kernelStacks slot = .queuedToFree owner := by
    intro slot queued
    rw [slots, Function.update_apply] at queued
    split at queued
    · cases queued
    · exact queued
  rcases holding owner alive with alive | none
  · exact once owner alive first second (before here) (before there)
  · exact absurd (before here) (none first)

end Slots

section Steps

variable {inKernel : UInt64 → Bool}

/-- An exception from a program frees the stacks that other processes have queued. -/
theorem Kernel.Runs.entered_stacks (runs : k.Runs inKernel self) {ctx : ExceptionContext}
    {devices : Devices} {mid : Kernel} (fromUser : wasFromUserEl0 ctx = true)
    (entered : k.entered devices ctx = .ok mid) :
    mid.kernelStacks = (fun stack => (k.kernelStacks stack).afterFreeing self.pid) ∧
      ∀ pid, (mid.resources.holding pid).isSome = (k.resources.holding pid).isSome := by
  obtain ⟨freed, freeing, resources⟩ := runs.entered_resources fromUser entered
  obtain ⟨alloc, result⟩ := Kernel.freeQueuedStacks_eq runs.current
  rw [result, Except.ok.injEq] at freeing
  subst freeing
  refine ⟨congrArg Resources.kernelStacks resources, fun pid => ?_⟩
  rw [resources]
  apply isSome_update
  rw [runs.holding]
  rfl

/-- An `exec` leaves the same processes alive. -/
theorem Kernel.Runs.exec_alive (runs : k.Runs inKernel self) {bytes : List UInt8}
    {args : List String} {result : Except String Unit}
    (done : k.exec k.currentProcess self bytes args = .ok (result, next)) (pid : UInt64) :
    (next.resources.holding pid).isSome = (k.resources.holding pid).isSome := by
  rcases runs.exec_holding done with same | ⟨pctx, changed⟩
  · rw [same]
  · rw [changed]
    apply isSome_update
    rw [runs.holding]
    rfl

/-- An `exec` queues the old stack of its process at most, and allocates another one. -/
theorem Kernel.Runs.exec_slots (runs : k.Runs inKernel self) (owned : k.resources.SlotsOwned)
    {bytes : List UInt8} {args : List String} {result : Except String Unit}
    (done : k.exec k.currentProcess self bytes args = .ok (result, next)) :
    next.resources.SlotsOwned := by
  have holding := runs.exec_alive done
  -- The call left the stacks alone, or queued the old one, or also allocated another.
  rcases (Kernel.exec_ends done).stacks with same | ⟨image, alloc, old, -, active, queued |
    ⟨stack, free, allocated⟩⟩
  · exact owned.congr same fun pid alive => holding pid ▸ alive
  · exact owned.queued active queued fun owner _ alive => holding owner ▸ alive
  · -- The kernel in between has queued the old stack, and its process has none.
    have between : Resources.SlotsOwned { k.resources with
        kernelStacks := Function.update k.kernelStacks old (.queuedToFree self.pid) } :=
      owned.queued active rfl fun _ _ alive => alive
    refine between.allocated ?_ allocated ?_
    · intro other here
      dsimp only at here
      rw [Function.update_apply] at here
      split at here
      · cases here
      · rename_i distinct
        exact distinct (owned.alone here active)
    · rintro owner (alive | rfl)
      · exact holding owner ▸ alive
      · rw [holding, runs.holding]
        rfl

/-- A process that has nothing queued has one stack queued at most after an `exec`. -/
theorem Kernel.Runs.exec_queuedOnce (runs : k.Runs inKernel self) (once : k.resources.QueuedOnce)
    {bytes : List UInt8} {args : List String} {result : Except String Unit}
    (done : k.exec k.currentProcess self bytes args = .ok (result, next))
    (none : ∀ image alloc, loadElf bytes k.alloc = .ok (.ok image, alloc) →
      ∀ other, k.kernelStacks other ≠ .queuedToFree self.pid) :
    next.resources.QueuedOnce := by
  have holding := runs.exec_alive done
  rcases (Kernel.exec_ends done).stacks with same | ⟨image, alloc, old, loads, active, queued |
    ⟨stack, free, allocated⟩⟩
  · exact once.congr same fun pid alive => holding pid ▸ alive
  · exact once.queued queued (fun owner _ alive => holding owner ▸ alive)
      fun _ => none image alloc loads
  · have between : Resources.QueuedOnce { k.resources with
        kernelStacks := Function.update k.kernelStacks old (.queuedToFree self.pid) } :=
      once.queued rfl (fun _ _ alive => alive) fun _ => none image alloc loads
    exact between.allocated allocated fun owner alive => Or.inl (holding owner ▸ alive)

/-- A `fork` that succeeds gives the child a slot that was free. -/
theorem Kernel.forkProcess_stacks {child : Process}
    (done : k.forkProcess self = .ok (.ok child, next))
    (inactive : ∀ stack, k.kernelStacks stack ≠ .allocated child.pid) :
    ∃ stack, k.kernelStacks stack = .free ∧
      next.kernelStacks = Function.update k.kernelStacks stack (.allocated child.pid) := by
  obtain ⟨root, copy, space, duplicated, context⟩ := Kernel.forkProcess_takes done
  have none : Kernel.getActiveStackIndex { k with alloc := copy, nextPid := k.nextPid + 1 }
      child.pid = none := Kernel.getActiveStackIndex_none.mpr inactive
  obtain ⟨mid, top, stack, activeSize, alloc, allocated, -, -, -, rfl⟩ :=
    Kernel.duplicateStack_ok none duplicated
  exact ⟨stack, allocated.free, allocated.kernelStacks⟩

end Steps

end AtOS
