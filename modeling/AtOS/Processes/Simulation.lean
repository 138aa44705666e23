import AtOS.Processes.Abstraction
import AtOS.Processes.Effects

/-! The handlers of the kernel move the tree of processes, and keep what it keeps. -/

namespace AtOS

open SlotTable

/-- All that the moves keep. -/
structure ProcessTree.Invariant (t : ProcessTree) : Prop where
  formed : t.WellFormed
  blocking : t.Blocking
  awaited : t.Awaited
  faithful : t.Faithful
  statuses : t.Statuses

/-- Every move keeps the invariant, part by part. -/
theorem ProcessTree.Move.invariant {t next : ProcessTree} (move : t.Move next)
    (invariant : t.Invariant) : next.Invariant where
  formed := move.wellFormed invariant.formed
  blocking := move.blocking invariant.formed invariant.blocking
  awaited := move.awaited invariant.formed invariant.awaited
  faithful := move.faithful invariant.formed invariant.faithful
  statuses := move.statuses invariant.formed invariant.statuses

/-- The tree after an exception has saved the registers of the running process. -/
def ProcessTree.saved (t : ProcessTree) (self : Process) (pctx : ProcessContext) : ProcessTree :=
  { t.set self.pid (some { self with pctx }) with log := .saved self.pid pctx :: t.log }

/-- The tree after `awake_common_chans`. -/
def ProcessTree.awoken (t : ProcessTree) (uartReady : Bool) : ProcessTree :=
  if uartReady then t.mapAll (Process.wakeup awaitingUartRead) else t

/-- Waking UART sleepers up keeps the invariant. -/
theorem ProcessTree.Invariant.awoken {t : ProcessTree} (invariant : t.Invariant)
    (uartReady : Bool) : (t.awoken uartReady).Invariant := by
  unfold ProcessTree.awoken
  split
  · have move : t.Move (t.mapAll (Process.wakeup awaitingUartRead)) := .wakeup (by decide)
    exact move.invariant invariant
  · exact invariant

variable {k next : Kernel} {inKernel : UInt64 → Bool} {self : Process}

section Tree

variable (running : Option UInt64) {slot : Fin maxProcesses}

/-- The tree after the entry of a slot was replaced by one with the same pid. -/
theorem Kernel.tree_put (distinct : Distinct k.processTable) {changed : Process}
    (there : k.processTable slot = some self) (pid : changed.pid = self.pid)
    (table : next.processTable = put k.processTable slot (some changed))
    (nextPid : next.nextPid = k.nextPid) :
    next.tree inKernel running =
      { (k.tree inKernel running).set self.pid (some changed) with log := next.log } := by
  simp only [Kernel.tree, ProcessTree.set, table, nextPid, (distinct.put_same there pid).2]

/-- The tree after a slot was emptied. -/
theorem Kernel.tree_putNone (distinct : Distinct k.processTable) {gone : Process}
    (there : k.processTable slot = some gone)
    (table : next.processTable = put k.processTable slot none) (nextPid : next.nextPid = k.nextPid) :
    next.tree inKernel running =
      { (k.tree inKernel running).set gone.pid none with log := next.log } := by
  simp only [Kernel.tree, ProcessTree.set, table, nextPid, (distinct.put_none there).2]

/-- A process keeps its pid when it is woken up. -/
theorem Process.wakeup_pid (channel : UInt64) (process : Process) :
    (process.wakeup channel).pid = process.pid := by
  unfold Process.wakeup
  split <;> rfl

/-- The tree after a wakeup. -/
theorem Kernel.tree_wakeup (distinct : Distinct k.processTable) (channel : UInt64) :
    (k.wakeup channel).tree inKernel running =
      (k.tree inKernel running).mapAll (Process.wakeup channel) := by
  simp only [Kernel.tree, Kernel.wakeup, ProcessTree.mapAll,
    (distinct.modifyAll (Process.wakeup_pid channel)).2]

/-- Waking up in the kernel is waking up in its tree. -/
theorem Kernel.tree_awake (distinct : Distinct k.processTable) (uartReady : Bool) :
    (k.awakeCommonChans uartReady).tree inKernel running =
      (k.tree inKernel running).awoken uartReady := by
  unfold Kernel.awakeCommonChans ProcessTree.awoken
  split
  · exact Kernel.tree_wakeup running distinct _
  · rfl

end Tree

/-- A process runs on the CPU: the slot index and the noted pid both lead to it. -/
structure Kernel.Runs (k : Kernel) (inKernel : UInt64 → Bool) (process : Process) : Prop where
  distinct : Distinct k.processTable
  invariant : (k.tree inKernel (some process.pid)).Invariant
  current : k.processTable k.currentProcess = some process
  currentPid : k.currentPid = some process.pid
  lock : k.processTableLock = false

/-- Nobody runs, and the scheduler looks for a process. -/
structure Kernel.Idles (k : Kernel) (inKernel : UInt64 → Bool) (lockHeld : Bool) : Prop where
  distinct : Distinct k.processTable
  invariant : (k.tree inKernel none).Invariant
  lock : k.processTableLock = lockHeld

section Runs

/-- The running process has an entry under its pid. -/
theorem Kernel.Runs.here (runs : k.Runs inKernel self) :
    (k.tree inKernel (some self.pid)).entries self.pid = some self :=
  runs.distinct.entriesOf_slot runs.current

/-- The running process is in the running state. -/
theorem Kernel.Runs.state (runs : k.Runs inKernel self) : self.state = .running :=
  runs.invariant.formed.one.state rfl runs.here

/-- Changing frames and kernel stacks alone leaves the process running. -/
theorem Kernel.Runs.same (runs : k.Runs inKernel self) (same : k.SameProcesses next) :
    next.Runs inKernel self ∧
      next.tree inKernel (some self.pid) = k.tree inKernel (some self.pid) := by
  obtain ⟨_, _, rfl⟩ := same
  exact ⟨⟨runs.distinct, runs.invariant, runs.current, runs.currentPid, runs.lock⟩, rfl⟩

/-- The entry of the running process may change as long as that is a move. -/
theorem Kernel.Runs.set (runs : k.Runs inKernel self) {changed : Process}
    (pid : changed.pid = self.pid)
    (table : next.processTable = put k.processTable k.currentProcess (some changed))
    (slot : next.currentProcess = k.currentProcess) (noted : next.currentPid = k.currentPid)
    (nextPid : next.nextPid = k.nextPid) (lock : next.processTableLock = k.processTableLock)
    (move : (k.tree inKernel (some self.pid)).Move
      { (k.tree inKernel (some self.pid)).set self.pid (some changed) with log := next.log }) :
    next.Runs inKernel changed := by
  -- The slot of the running process is the only one that changes.
  constructor
  case distinct =>
    rw [table]
    exact (runs.distinct.put_same runs.current pid).1
  case invariant =>
    rw [pid, Kernel.tree_put _ runs.distinct runs.current pid table nextPid]
    exact move.invariant runs.invariant
  case current => rw [table, slot, put_self]
  case currentPid => rw [noted, pid, runs.currentPid]
  case lock => rw [lock, runs.lock]

/-- Saving the registers of the running process. -/
theorem Kernel.Runs.save (runs : k.Runs inKernel self) (pctx : ProcessContext) : ∃ after,
    k.updateLastRunningPctx pctx = .ok after ∧ after.Runs inKernel { self with pctx } ∧
      after.tree inKernel (some self.pid) = (k.tree inKernel (some self.pid)).saved self pctx := by
  refine ⟨(k.setEntry k.currentProcess (some { self with pctx })).record (.saved self.pid pctx),
    ?_, ?_, ?_⟩
  · rw [Kernel.updateLastRunningPctx, runs.current]
  · refine runs.set ?_ rfl rfl rfl rfl rfl (.save rfl runs.here pctx)
    rfl
  · refine Kernel.tree_put _ runs.distinct runs.current ?_ rfl rfl
    rfl

/-- Waking the readers of the UART leaves the running process alone. -/
theorem Kernel.Runs.awake (runs : k.Runs inKernel self) (uartReady : Bool) :
    (k.awakeCommonChans uartReady).Runs inKernel self ∧
      (k.awakeCommonChans uartReady).tree inKernel (some self.pid) =
        (k.tree inKernel (some self.pid)).awoken uartReady := by
  have tree := @Kernel.tree_awake k inKernel (some self.pid) runs.distinct uartReady
  refine ⟨?_, tree⟩
  -- The woken table has the invariant, and the slot of the running process is as it was.
  have invariant := tree ▸ runs.invariant.awoken uartReady
  unfold Kernel.awakeCommonChans at invariant ⊢
  split
  · rename_i ready
    rw [if_pos ready] at invariant
    refine ⟨(runs.distinct.modifyAll (Process.wakeup_pid _)).1, invariant, ?_, runs.currentPid,
      runs.lock⟩
    -- The running process is not blocked.
    have awake : self.wakeup awaitingUartRead = self := by
      rw [Process.wakeup, if_neg]
      rw [runs.state]
      exact fun asleep => by cases asleep.1
    show (k.processTable k.currentProcess).map _ = some self
    rw [runs.current, Option.map_some, awake]
  · exact runs

end Runs

end AtOS
