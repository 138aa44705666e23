import AtOS.Processes.Reports

/-! Going to sleep inside the kernel: what is noted before the `svc`, and what its handler does. -/

namespace AtOS

open SlotTable

variable {k next : Kernel} {inKernel : UInt64 → Bool} {self : Process}

/-- A process that has gone to sleep on a channel. -/
def Process.asleep (process : Process) (channel : UInt64) (reason : BlockReason)
    (pctx : ProcessContext) : Process :=
  { process with chan := channel, blockReason := some reason, state := .blocked, pctx }

/-- The kernel after the running process was put to sleep. -/
def Kernel.asleep (k : Kernel) (self : Process) (channel : UInt64) (reason : BlockReason)
    (pctx : ProcessContext) (uartReady : Bool) : Kernel :=
  { ((k.awakeCommonChans uartReady).setEntry k.currentProcess
      (some (self.asleep channel reason pctx))).record (.saved self.pid pctx) with
    currentPid := none }

/-- What the running process notes before it executes its `svc`. -/
def Kernel.noted (k : Kernel) (self : Process) (channel : UInt64) (reason : BlockReason) : Kernel :=
  k.setEntry k.currentProcess (some { self with chan := channel, blockReason := some reason })

/-- The process that notes down its sleep is the current one. -/
theorem Kernel.noted_current (k : Kernel) (self : Process) (channel : UInt64)
    (reason : BlockReason) : (k.noted self channel reason).getCurrentProcess =
      some { self with chan := channel, blockReason := some reason } := put_self ..

/-- With a process running, noting down the sleep does not fail. -/
theorem Kernel.Runs.noteSleep (runs : k.Runs inKernel self) (caller : String) (channel : UInt64)
    (reason : BlockReason) : k.noteSleep caller channel reason = .ok (k.noted self channel reason) := by
  rw [Kernel.noteSleep, runs.current]
  rfl

/-- Waking up passes over the slot of a process that runs. -/
theorem Kernel.noted_awake (runs : k.Runs inKernel self) (channel : UInt64) (reason : BlockReason)
    (uartReady : Bool) : (k.noted self channel reason).awakeCommonChans uartReady =
      (k.awakeCommonChans uartReady).setEntry k.currentProcess
        (some { self with chan := channel, blockReason := some reason }) := by
  have awake : Process.wakeup awaitingUartRead
      { self with chan := channel, blockReason := some reason } =
      { self with chan := channel, blockReason := some reason } := by
    rw [Process.wakeup, if_neg]
    rintro ⟨blocked, -⟩
    rw [show _ = self.state from rfl, runs.state] at blocked
    cases blocked
  unfold Kernel.awakeCommonChans
  split
  · simp only [Kernel.wakeup, Kernel.noted, Kernel.setEntry, modifyAll_put, Option.map_some, awake]
  · rfl

/-- The handler of the `svc` saves the registers, and gives the guard of a mutex back. -/
theorem Kernel.Runs.putToSleep (runs : k.Runs inKernel self) (channel : UInt64)
    (reason : BlockReason) (ctx : ExceptionContext) (uartReady : Bool) :
    ((k.noted self channel reason).awakeCommonChans uartReady).putToSleep ctx =
      if ctx.x.get 0 = mutexSleepMarker then
        if ctx.x.get 1 = 0 then .error (.failed .nullGuard)
        else (k.asleep self channel reason (.fromEctx ctx) uartReady).releaseGuard
          (ctx.x.get 1 - guardOffset)
      else .ok (k.asleep self channel reason (.fromEctx ctx) uartReady) := by
  rw [Kernel.noted_awake runs]
  have slot : (k.awakeCommonChans uartReady).currentProcess = k.currentProcess := by
    unfold Kernel.awakeCommonChans
    split <;> rfl
  unfold Kernel.putToSleep Kernel.getCurrentProcess Kernel.updateLastRunningPctx
  simp only [Kernel.setEntry, Kernel.record, Kernel.asleep, slot, put_self, put_put,
    Option.map_some, Process.asleep]

/-- The tree after the running process was put to sleep. -/
theorem Kernel.Runs.asleep (runs : k.Runs inKernel self) {channel : UInt64} (proper : channel ≠ 0)
    {reason : BlockReason} (other : reason ≠ .waitingForChild) (pctx : ProcessContext)
    (uartReady : Bool) :
    (k.asleep self channel reason pctx uartReady).Idles (Function.update inKernel self.pid true)
        false ∧
      ((k.tree inKernel (some self.pid)).awoken uartReady).Move
        ((k.asleep self channel reason pctx uartReady).tree
          (Function.update inKernel self.pid true) none) := by
  -- The UART sleepers are woken up first, and then the process itself goes to sleep.
  obtain ⟨woken, tree⟩ := runs.awake uartReady
  have slot : (k.awakeCommonChans uartReady).currentProcess = k.currentProcess := by
    unfold Kernel.awakeCommonChans
    split <;> rfl
  have move := ProcessTree.Move.sleep rfl woken.here proper other pctx
  have current := woken.current
  rw [slot] at current
  have after := @Kernel.tree_put (k.awakeCommonChans uartReady)
    (k.asleep self channel reason pctx uartReady) (Function.update inKernel self.pid true) self none
    k.currentProcess woken.distinct (self.asleep channel reason pctx) current rfl rfl rfl
  have same : (k.asleep self channel reason pctx uartReady).tree
      (Function.update inKernel self.pid true) none =
      { ((k.awakeCommonChans uartReady).tree inKernel (some self.pid)).set self.pid
          (some (self.asleep channel reason pctx)) with
        running := none
        inKernel := Function.update inKernel self.pid true
        -- The table, the suspended set and the log change at once, which is one move of the tree.
        log := .saved self.pid pctx :: (k.awakeCommonChans uartReady).log } := by
    rw [after]
    rfl
  rw [← tree]
  refine ⟨⟨(woken.distinct.put_same current ?_).1, ?_, woken.lock⟩, ?_⟩
  · rfl
  · rw [same]
    exact move.invariant woken.invariant
  · rw [same]
    exact move

/-- An `svc` inside the kernel does nothing but put a process to sleep. -/
theorem Kernel.handleExceptionEl1_svc (k : Kernel) {ctx : ExceptionContext} {ttbr0 : UInt64}
    (frame : IsSleepFrame ctx ttbr0) (files : String → Option (List UInt8)) (devices : Devices) :
    k.handleExceptionEl1 files devices ctx =
      match (k.awakeCommonChans devices.uartReady).putToSleep ctx with
      | .ok k => .scheduling k ctx false
      | .error stop => .stopped stop := by
  have inside : wasFromUserEl0 ctx = false := by
    rw [wasFromUserEl0, frame.source]
    rfl
  unfold Kernel.handleExceptionEl1 Kernel.enterFromEl0
  cases slept : (k.awakeCommonChans devices.uartReady).putToSleep ctx with
  | ok after =>
    simp only [inside, Bool.false_eq_true, if_false, frame.sync, Kernel.handleSyncException,
      frame.source, frame.svc, and_self, if_true, slept]
  | error stop =>
    simp only [inside, Bool.false_eq_true, if_false, frame.sync, Kernel.handleSyncException,
      frame.source, frame.svc, and_self, if_true, slept]

/-- Sleeping for anything but a mutex leaves the CPU to the scheduler. -/
theorem Kernel.Runs.sleepUnmarked (runs : k.Runs inKernel self) (channel : UInt64)
    (reason : BlockReason) {ctx : ExceptionContext} {ttbr0 : UInt64} (frame : IsSleepFrame ctx ttbr0)
    (unmarked : ctx.x.get 0 ≠ mutexSleepMarker) (files : String → Option (List UInt8))
    (devices : Devices) :
    (k.noted self channel reason).handleExceptionEl1 files devices ctx =
      .scheduling (k.asleep self channel reason (.fromEctx ctx) devices.uartReady) ctx false := by
  rw [Kernel.handleExceptionEl1_svc _ frame, runs.putToSleep, if_neg unmarked]

/-- No mutex is at address 0, which stands for no channel. -/
theorem IsMutex.ne_zero {mutex : UInt64} (isMutex : IsMutex mutex) : mutex ≠ 0 := by
  rintro rfl
  exact absurd isMutex.notNull (Nat.lt_irrefl _)

/-- The guard of a mutex is not null, and leads back to the mutex. -/
theorem IsMutex.guard {mutex : UInt64} (isMutex : IsMutex mutex) :
    guardOf mutex ≠ 0 ∧ guardOf mutex - guardOffset = mutex := by
  have inside := isMutex.inside
  constructor
  · intro null
    have zero := congrArg UInt64.toNat null
    rw [guardOf, UInt64.toNat_add] at zero
    have offset : guardOffset.toNat = 8 := rfl
    rw [offset, Nat.mod_eq_of_lt (by omega)] at zero
    exact absurd zero (by simp)
  · rw [guardOf, UInt64.add_sub_cancel]

/-- Sleeping for a mutex gives its guard back, and leaves the CPU to the scheduler. -/
theorem Kernel.Runs.sleepMarked (runs : k.Runs inKernel self) (channel : UInt64)
    (reason : BlockReason) {ctx : ExceptionContext} {ttbr0 : UInt64} (frame : IsSleepFrame ctx ttbr0)
    {mutex : UInt64} (isMutex : IsMutex mutex)
    (marked : ctx.x.get 0 = mutexSleepMarker ∧ ctx.x.get 1 = guardOf mutex)
    (held : (k.mutexes mutex).guard = true) (files : String → Option (List UInt8))
    (devices : Devices) :
    (k.noted self channel reason).handleExceptionEl1 files devices ctx =
      .scheduling ((k.asleep self channel reason (.fromEctx ctx) devices.uartReady).setMutex mutex
        { k.mutexes mutex with guard := false }) ctx false := by
  have mutexes : (k.asleep self channel reason (.fromEctx ctx) devices.uartReady).mutexes =
      k.mutexes := k.awakeCommonChans_mutexes _
  rw [Kernel.handleExceptionEl1_svc _ frame, runs.putToSleep, if_pos marked.1, marked.2,
    if_neg isMutex.guard.1, isMutex.guard.2, Kernel.releaseGuard, mutexes, if_pos held]

end AtOS
