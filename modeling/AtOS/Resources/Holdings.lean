import AtOS.Processes.Outcomes

/-! What the processes that have not terminated use: page tables and kernel stacks. -/

namespace AtOS

/-- The root of a page table, and the stack pointer for the kernel. -/
structure Holding where
  ttbr0 : UInt64
  spEl1 : UInt64
  deriving DecidableEq

def ProcessContext.holding (pctx : ProcessContext) : Holding := ⟨pctx.ttbr0, pctx.spEl1⟩

def ExceptionContext.holding (ctx : ExceptionContext) : Holding := ⟨ctx.ttbr0, ctx.spEl1⟩

/-- A process that has terminated holds nothing. -/
def Process.holding (process : Process) : Option Holding :=
  if process.state = .terminated then none else some process.pctx.holding

/-- What the process of a pid holds. -/
def ProcessTree.holding (t : ProcessTree) (pid : UInt64) : Option Holding :=
  (t.entries pid).bind Process.holding

/-- The part of the statics that processes share as their resources, with who holds what. -/
@[ext] structure Resources where
  alloc : PageAllocator
  kernelStacks : Fin maxProcesses → StackState
  kernelL1 : Nat
  holding : UInt64 → Option Holding

/-- The resources of a kernel. -/
def Kernel.resources (k : Kernel) : Resources where
  alloc := k.alloc
  kernelStacks := k.kernelStacks
  kernelL1 := k.kernelL1
  holding pid := (entriesOf k.processTable pid).bind Process.holding

section Tree

variable {t : ProcessTree} {self : Process}

/-- A general register is no resource. -/
@[simp] theorem ExceptionContext.holding_setX (ctx : ExceptionContext) (i : Fin 31) (value : UInt64) :
    (ctx.setX i value).holding = ctx.holding := rfl

/-- What a frame holds after a switch is what the context holds. -/
@[simp] theorem ExceptionContext.holding_updateFromPctx (ctx : ExceptionContext)
    (pctx : ProcessContext) : (ctx.updateFromPctx pctx).holding = pctx.holding := rfl

/-- What a saved frame holds. -/
@[simp] theorem ProcessContext.holding_fromEctx (ctx : ExceptionContext) :
    (ProcessContext.fromEctx ctx).holding = ctx.holding := rfl

/-- A general register of a context is no resource either. -/
@[simp] theorem ProcessContext.holding_setX (pctx : ProcessContext) (i : Fin 31) (value : UInt64) :
    (pctx.setX i value).holding = pctx.holding := rfl

/-- Nor are the two results of a call to `wait`. -/
@[simp] theorem ProcessContext.holding_deliver (pctx : ProcessContext) (child code : UInt64) :
    (pctx.deliver child code).holding = pctx.holding := rfl

/-- A process that is alive holds what its registers say. -/
theorem Process.holding_alive {process : Process} (alive : process.state ≠ .terminated) :
    process.holding = some process.pctx.holding := if_neg alive

/-- A terminated process holds nothing. -/
theorem Process.holding_terminated {process : Process} (ended : process.state = .terminated) :
    process.holding = none := if_pos ended

/-- Who holds something is alive. -/
theorem Process.alive_of_holding {process : Process} {holding : Holding}
    (holds : process.holding = some holding) :
    process.state ≠ .terminated ∧ process.pctx.holding = holding := by
  unfold Process.holding at holds
  split at holds
  · cases holds
  · rename_i alive
    exact ⟨alive, Option.some.inj holds⟩

/-- Waking up changes nothing that is held. -/
@[simp] theorem Process.holding_wakeup (channel : UInt64) (process : Process) :
    (process.wakeup channel).holding = process.holding := by
  unfold Process.wakeup
  split
  · rename_i asleep
    simp [Process.holding, asleep.1]
  · rfl

/-- A new parent changes no holding. -/
@[simp] theorem Process.holding_reparent (pid newParentPid : UInt64) (process : Process) :
    (process.reparent pid newParentPid).holding = process.holding := by
  unfold Process.reparent
  split <;> rfl

/-- Replacing a process replaces what its pid holds. -/
theorem ProcessTree.holding_set (t : ProcessTree) (pid : UInt64) (process : Option Process) :
    (t.set pid process).holding = Function.update t.holding pid (process.bind Process.holding) := by
  funext other
  simp only [ProcessTree.holding, ProcessTree.set_entries, Function.update_apply]
  split <;> rfl

/-- A process that is replaced by one that holds the same changes nothing. -/
theorem ProcessTree.holding_set_same {pid : UInt64} {process : Process}
    (here : t.entries pid = some self) (same : process.holding = self.holding) :
    (t.set pid (some process)).holding = t.holding := by
  rw [ProcessTree.holding_set, Function.update_eq_self_iff, Option.bind_some, same,
    ProcessTree.holding, here, Option.bind_some]

/-- Changing all processes without changing what they hold. -/
theorem ProcessTree.holding_mapAll {change : Process → Process}
    (same : ∀ process, (change process).holding = process.holding) :
    (t.mapAll change).holding = t.holding := by
  funext pid
  simp only [ProcessTree.holding, ProcessTree.mapAll_entries]
  cases t.entries pid with
  | none => rfl
  | some process => exact same process

/-- Nor does waking up. -/
@[simp] theorem ProcessTree.holding_awoken (t : ProcessTree) (uartReady : Bool) :
    (t.awoken uartReady).holding = t.holding := by
  unfold ProcessTree.awoken
  split
  · exact ProcessTree.holding_mapAll (Process.holding_wakeup _)
  · rfl

/-- A process that has terminated gives up what it held. -/
theorem ProcessTree.holding_terminated (t : ProcessTree) (self : Process) (code : UInt64) :
    (t.terminated self code).holding = Function.update t.holding self.pid none := by
  show ((t.set self.pid (some (self.over code))).mapAll (Process.reparent self.pid 1)).holding = _
  rw [ProcessTree.holding_mapAll (Process.holding_reparent _ _), ProcessTree.holding_set,
    Option.bind_some, Process.holding_terminated]
  rfl

/-- Handing an exit to a waiting parent changes nothing that is held. -/
theorem ProcessTree.holding_delivered {parent : Process} {child code : UInt64}
    (here : t.entries parent.pid = some parent) (blocked : parent.state = .blocked)
    (gone : t.holding child = none) :
    (t.delivered parent child code).holding = t.holding := by
  have woken : ({ parent with state := .ready, pctx := parent.pctx.deliver child code } :
      Process).holding = parent.holding := by
    simp [Process.holding, blocked]
  show ((t.set parent.pid (some { parent with
    state := .ready, pctx := parent.pctx.deliver child code })).set child none).holding = _
  rw [ProcessTree.holding_set, ProcessTree.holding_set_same here woken, Option.bind_none,
    Function.update_eq_self_iff, gone]

/-- Removing a process that has terminated changes nothing that is held. -/
theorem ProcessTree.holding_remove {child : Process} (there : t.entries child.pid = some child)
    (ended : child.state = .terminated) : (t.set child.pid none).holding = t.holding := by
  rw [ProcessTree.holding_set, Option.bind_none, Function.update_eq_self_iff, ProcessTree.holding,
    there, Option.bind_some, Process.holding_terminated ended]

end Tree

section Kernel

variable {k next : Kernel} {inKernel : UInt64 → Bool} {self : Process}

/-- The tree of a kernel holds what the kernel holds. -/
theorem Kernel.tree_holding (k : Kernel) (inKernel : UInt64 → Bool) (running : Option UInt64) :
    (k.tree inKernel running).holding = k.resources.holding := rfl

/-- The running process holds what its registers say. -/
theorem Kernel.Runs.holding (runs : k.Runs inKernel self) :
    k.resources.holding self.pid = some self.pctx.holding := by
  rw [← Kernel.tree_holding k inKernel (some self.pid), ProcessTree.holding, runs.here,
    Option.bind_some, Process.holding_alive]
  rw [runs.state]
  decide

/-- What a slot holds, when the process in it is alive. -/
theorem Kernel.holding_slot (distinct : Distinct k.processTable) {slot : Fin maxProcesses}
    {process : Process} (there : k.processTable slot = some process)
    (alive : process.state ≠ .terminated) :
    k.resources.holding process.pid = some process.pctx.holding := by
  show (entriesOf k.processTable process.pid).bind _ = _
  rw [distinct.entriesOf_slot there, Option.bind_some, Process.holding_alive alive]

/-- A pid that holds something is in some slot, alive. -/
theorem Kernel.slot_of_holding {pid : UInt64} {holding : Holding}
    (holds : k.resources.holding pid = some holding) : ∃ slot process,
      k.processTable slot = some process ∧ process.pid = pid ∧ process.state ≠ .terminated ∧
        process.pctx.holding = holding := by
  obtain ⟨process, here, held⟩ := Option.bind_eq_some_iff.mp holds
  obtain ⟨slot, there, same⟩ := slot_of_entriesOf here
  obtain ⟨alive, equal⟩ := Process.alive_of_holding held
  exact ⟨slot, process, there, same, alive, equal⟩

end Kernel

end AtOS
