import AtOS.Processes.Locking

/-! What each step of the machine comes to, while it is clear who runs. -/

namespace AtOS

open SlotTable

variable {files : String → Option (List UInt8)} {m next : Machine} {self : Process}

/-- Who sleeps inside the kernel. -/
def Machine.inKernel (m : Machine) (pid : UInt64) : Bool := (m.suspended pid).isSome

/-- The CPU works for one process, or the scheduler looks for one. -/
def Machine.Valid (m : Machine) : Prop :=
  match m.control with
  | .user _ => ∃ self, m.kernel.Runs m.inKernel self
  | .syscall _ => ∃ self, m.kernel.Runs m.inKernel self
  | .scheduling _ lockHeld => m.kernel.Idles m.inKernel lockHeld

/-- A machine goes on with the kernel that the handler leaves behind. -/
theorem Machine.after_kernel {handled : Handled} (goesOn : m.after handled = .ok next) :
    handled.kernel = some next.kernel := by
  cases handled <;> cases goesOn <;> rfl

/-- The machine after the running process was put to sleep. -/
def Machine.slept (m : Machine) (self : Process) (channel : UInt64) (reason : BlockReason)
    (ctx : ExceptionContext) (uartReady : Bool) (suspension : Suspension) : Machine :=
  { m with
    kernel := m.kernel.asleep self channel reason (.fromEctx ctx) uartReady
    control := .scheduling ctx false
    suspended := Function.update m.suspended self.pid (some suspension) }

/-- The machine after a process was loaded, which goes on inside the kernel if it slept there. -/
def Machine.loaded (m : Machine) (slot : Fin maxProcesses) (process : Process)
    (frame : ExceptionContext) : Machine :=
  { m with
    kernel := { m.kernel.loadedFrom slot process with processTableLock := false }
    control := match m.suspended process.pid with
      | some suspension => .syscall suspension
      | none => .user (frame.updateFromPctx process.pctx)
    suspended := Function.update m.suspended process.pid none }

/-- What a step of a machine comes to when it is clear who runs. -/
inductive Machine.Outcome (files : String → Option (List UInt8)) (m : Machine) :
    Action → Except Stop Machine → Prop
  | trap {frame ctx : ExceptionContext} {devices : Devices} {self : Process} {mid : Kernel}
      (running : m.control = .user frame) (runs : m.kernel.Runs m.inKernel self)
      (fromUser : wasFromUserEl0 ctx = true) (stack : ctx.spEl1 = frame.spEl1)
      (table : ctx.ttbr0 = frame.ttbr0) (entered : m.kernel.Entered m.inKernel self ctx devices mid)
      (leads : mid.Leads m.inKernel { self with pctx := .fromEctx ctx }
        (m.kernel.handleExceptionEl1 files devices ctx))
      (reports : mid.Reports m.inKernel { self with pctx := .fromEctx ctx } ctx
        (m.kernel.handleExceptionEl1 files devices ctx)) :
      Outcome files m (.trap ctx devices) (m.after (m.kernel.handleExceptionEl1 files devices ctx))
  | sleep {outer ctx : ExceptionContext} {devices : Devices} {self : Process}
      (inside : m.control = .syscall ⟨outer, none⟩) (runs : m.kernel.Runs m.inKernel self)
      (isFrame : IsSleepFrame ctx outer.ttbr0) :
      Outcome files m (.sleep ctx devices) (.ok (m.slept self awaitingUartRead .awaitingIo ctx
        devices.uartReady ⟨outer, none⟩))
  | acquired {outer ctx : ExceptionContext} {devices : Devices} {mutex : UInt64}
      {retry : Option UInt64} {self : Process} (isMutex : IsMutex mutex)
      (inside : m.control = .syscall ⟨outer, retry⟩) (runs : m.kernel.Runs m.inKernel self)
      (sought : retry = none ∨ retry = some mutex) (guard : (m.kernel.mutexes mutex).guard = false)
      (lock : (m.kernel.mutexes mutex).lock = false) :
      Outcome files m (.acquire mutex ctx devices) (.ok { m with
        kernel := m.kernel.setMutex mutex ⟨true, false, some self.pid⟩
        control := .syscall ⟨outer, none⟩
        holders := Function.update m.holders mutex (self.pid :: m.holders mutex) })
  | acquireSleeps {outer ctx : ExceptionContext} {devices : Devices} {mutex : UInt64}
      {retry : Option UInt64} {self : Process} (isMutex : IsMutex mutex)
      (inside : m.control = .syscall ⟨outer, retry⟩) (runs : m.kernel.Runs m.inKernel self)
      (sought : retry = none ∨ retry = some mutex) (isFrame : IsSleepFrame ctx outer.ttbr0)
      (guard : (m.kernel.mutexes mutex).guard = false)
      (lock : (m.kernel.mutexes mutex).lock = true) :
      Outcome files m (.acquire mutex ctx devices) (.ok (m.slept self mutex .mutex ctx
        devices.uartReady ⟨outer, some mutex⟩))
  | acquireFails {ctx : ExceptionContext} {devices : Devices} {mutex : UInt64}
      (isMutex : IsMutex mutex) (guard : (m.kernel.mutexes mutex).guard = true) :
      Outcome files m (.acquire mutex ctx devices) (.error (.failed (.acquire "guard")))
  | released {outer : ExceptionContext} {mutex : UInt64} {self : Process} (isMutex : IsMutex mutex)
      (inside : m.control = .syscall ⟨outer, none⟩) (runs : m.kernel.Runs m.inKernel self)
      (held : self.pid ∈ m.holders mutex) (guard : (m.kernel.mutexes mutex).guard = false)
      (lock : (m.kernel.mutexes mutex).lock = true)
      (owner : (m.kernel.mutexes mutex).pid = some self.pid) :
      Outcome files m (.release mutex) (.ok { m with
        kernel := (m.kernel.wakeup mutex).setMutex mutex ⟨false, false, none⟩
        holders := Function.update m.holders mutex ((m.holders mutex).erase self.pid) })
  | releaseFails {mutex : UInt64} {self : Process} {panic : KernelPanic} (isMutex : IsMutex mutex)
      (runs : m.kernel.Runs m.inKernel self) (held : self.pid ∈ m.holders mutex)
      (improper : ¬ ((m.kernel.mutexes mutex).guard = false ∧ (m.kernel.mutexes mutex).lock = true ∧
        (m.kernel.mutexes mutex).pid = some self.pid))
      (panics : panic = .acquire "guard" ∨ panic = .mutexUnlocked mutex ∨
        panic = .mutexOwner mutex (m.kernel.mutexes mutex).pid self.pid) :
      Outcome files m (.release mutex) (.error (.failed panic))
  | finish {outer : ExceptionContext} {self : Process} (result : Option UInt64)
      (inside : m.control = .syscall ⟨outer, none⟩) (runs : m.kernel.Runs m.inKernel self) :
      Outcome files m (.finish result)
        (.ok { m with control := .user (result.elim outer (outer.setX 0)) })
  | loaded {frame : ExceptionContext} {lockHeld : Bool} {slot : Fin maxProcesses}
      {process : Process} (uartReady : Bool) (looping : m.control = .scheduling frame lockHeld)
      (idles : m.kernel.Idles m.inKernel lockHeld)
      (there : m.kernel.processTable slot = some process) (ready : process.state = .ready) :
      Outcome files m (.schedule uartReady) (.ok (m.loaded slot process frame))
  | idle {frame : ExceptionContext} {lockHeld : Bool} (uartReady : Bool)
      (looping : m.control = .scheduling frame lockHeld)
      (idles : m.kernel.Idles m.inKernel lockHeld)
      (notReady : ∀ slot process, m.kernel.processTable slot = some process →
        process.state ≠ .ready)
      (blocked : ∃ slot process, m.kernel.processTable slot = some process ∧
        process.state = .blocked) :
      Outcome files m (.schedule uartReady)
        (.ok { m with kernel := m.kernel.awakeCommonChans uartReady })
  | theEnd {frame : ExceptionContext} {lockHeld : Bool} (uartReady : Bool)
      (looping : m.control = .scheduling frame lockHeld)
      (idles : m.kernel.Idles m.inKernel lockHeld)
      (ended : ∀ slot process, m.kernel.processTable slot = some process →
        process.state = .terminated) :
      Outcome files m (.schedule uartReady) (.error (.theEnd m.kernel))
  | store {va : Nat} (byte : UInt8) (low : va < 2 ^ 39)
      (busy : ∀ frame lockHeld, m.control ≠ .scheduling frame lockHeld) :
      Outcome files m (.store va byte)
        (.ok { m with kernel := m.kernel.storeByte m.control.ttbr0.toNat va byte })
  | stackStore {va : Nat} (byte : UInt8) (slot : Fin maxProcesses)
      (inside : kernelStackStart slot ≤ va ∧ va < kernelStackTop slot) :
      Outcome files m (.stackStore va byte)
        (.ok { m with kernel := m.kernel.storeByte m.kernel.kernelL1 va byte })

/-- A process runs whenever the kernel works for one. -/
theorem Machine.Valid.user (valid : m.Valid) {frame : ExceptionContext}
    (running : m.control = .user frame) : ∃ self, m.kernel.Runs m.inKernel self := by
  unfold Machine.Valid at valid
  rw [running] at valid
  exact valid

/-- Inside a call it is the current process that runs. -/
theorem Machine.Valid.syscall (valid : m.Valid) {suspension : Suspension}
    (inside : m.control = .syscall suspension) : ∃ self, m.kernel.Runs m.inKernel self := by
  unfold Machine.Valid at valid
  rw [inside] at valid
  exact valid

/-- Between two processes nobody runs. -/
theorem Machine.Valid.scheduling (valid : m.Valid) {frame : ExceptionContext} {lockHeld : Bool}
    (looping : m.control = .scheduling frame lockHeld) : m.kernel.Idles m.inKernel lockHeld := by
  unfold Machine.Valid at valid
  rw [looping] at valid
  exact valid

/-- A process that is loaded goes on where it was. -/
theorem Machine.resume_loaded (m : Machine) {lockHeld : Bool}
    (idles : m.kernel.Idles m.inKernel lockHeld) (slot : Fin maxProcesses) (process : Process)
    (frame : ExceptionContext) :
    m.resume (m.kernel.loadedFrom slot process) (frame.updateFromPctx process.pctx) lockHeld =
      .ok (m.loaded slot process frame) := by
  -- The lock that the caller of `schedule` may hold is let go of first.
  have released : (if lockHeld then (m.kernel.loadedFrom slot process).releaseLock
      else .ok (m.kernel.loadedFrom slot process)) =
      .ok { m.kernel.loadedFrom slot process with processTableLock := false } := by
    have lock : (m.kernel.loadedFrom slot process).processTableLock = lockHeld := idles.lock
    cases lockHeld with
    | true => rw [if_pos rfl, Kernel.releaseLock, if_pos lock]
    | false => rw [if_neg Bool.false_ne_true, ← lock]
  unfold Machine.resume
  rw [released]
  have current : Kernel.getCurrentProcess
      { m.kernel.loadedFrom slot process with processTableLock := false } =
      some { process with state := .running } := put_self ..
  simp only [current, Option.bind_some, Machine.loaded]
  -- A process that slept in the kernel goes on there, and any other one in its program.
  cases inside : m.suspended process.pid with
  | some suspension => rfl
  | none =>
    have same : Function.update m.suspended process.pid none = m.suspended := by
      rw [← inside, Function.update_eq_self]
    rw [same]

/-- When some process is ready, a pass of the loop loads one that is. -/
theorem Machine.Valid.schedules (valid : m.Valid) {frame : ExceptionContext} {lockHeld : Bool}
    (looping : m.control = .scheduling frame lockHeld) {first : Fin maxProcesses} {one : Process}
    (here : m.kernel.processTable first = some one) (isReady : one.state = .ready) :
    ∃ slot process, m.kernel.processTable slot = some process ∧ process.state = .ready ∧
      m.Step files (.schedule false) (.ok (m.loaded slot process frame)) := by
  have idles := valid.scheduling looping
  -- The scan finds the ready process, or another one before it.
  have step : m.Step files (.schedule false) _ := .schedule false looping
  unfold Machine.pass at step
  rcases idles.schedulePass false frame with
    ⟨slot, process, there, ready, loads⟩ | ⟨notReady, -⟩ | ⟨ended, -⟩
  · rw [loads] at step
    dsimp only at step
    rw [m.resume_loaded idles] at step
    exact ⟨slot, process, there, ready, step⟩
  · exact absurd isReady (notReady first one here)
  · have terminated := ended first one here
    rw [isReady] at terminated
    cases terminated

/-- A guard that is taken before going to sleep and given back then is as it was. -/
theorem Kernel.setMutex_asleep (k : Kernel) {mutex : UInt64} (free : (k.mutexes mutex).guard = false)
    (channel : UInt64) (reason : BlockReason) (pctx : ProcessContext) (uartReady : Bool) :
    ((k.setMutex mutex { k.mutexes mutex with guard := true }).asleep self channel reason pctx
      uartReady).setMutex mutex
        { lock := (k.mutexes mutex).lock, guard := false, pid := (k.mutexes mutex).pid } =
      k.asleep self channel reason pctx uartReady := by
  have same : ({ lock := (k.mutexes mutex).lock, guard := false, pid := (k.mutexes mutex).pid } :
      Mutex) = k.mutexes mutex := by
    rw [← free]
  rw [same]
  unfold Kernel.asleep Kernel.awakeCommonChans
  split <;>
    simp only [Kernel.setMutex, Kernel.setEntry, Kernel.record, Kernel.wakeup, Function.update_idem,
      Function.update_eq_self]

/-- Every step of a valid machine comes to one of these. -/
theorem Machine.Step.outcome {action : Action} {result : Except Stop Machine}
    (step : m.Step files action result) (valid : m.Valid) : m.Outcome files action result := by
  -- Each step is looked up in the kernel's own functions, which say what it did.
  cases step with
  | @trap frame ctx devices running fromUser stack table =>
    obtain ⟨self, runs⟩ := valid.user running
    obtain ⟨mid, entered, leads, reports⟩ := runs.handleExceptionEl1 files devices fromUser
    exact .trap running runs fromUser stack table entered leads reports
  -- Going to sleep without a mutex always succeeds, since somebody runs.
  | @sleep outer ctx devices k inside isFrame unmarked noted =>
    obtain ⟨self, runs⟩ := valid.syscall inside
    rw [runs.noteSleep] at noted
    cases noted
    unfold Machine.suspend
    rw [Kernel.noted_current, runs.sleepUnmarked _ _ isFrame unmarked]
    exact .sleep inside runs isFrame
  | @sleepFails outer ctx devices stop inside failed =>
    obtain ⟨self, runs⟩ := valid.syscall inside
    rw [runs.noteSleep] at failed
    cases failed
  | @acquire outer ctx devices mutex retry isMutex inside sought isFrame marked =>
    obtain ⟨self, runs⟩ := valid.syscall inside
    unfold Machine.acquire
    -- The attempt is decided by the guard and then by the lock.
    rw [runs.attemptMutex]
    cases guard : (m.kernel.mutexes mutex).guard with
    | true => exact .acquireFails isMutex guard
    | false =>
      cases lock : (m.kernel.mutexes mutex).lock with
      | true =>
        have taken := runs.setMutex mutex { m.kernel.mutexes mutex with guard := true }
        have held : (m.kernel.setMutex mutex { m.kernel.mutexes mutex with guard := true }).mutexes
            mutex = { m.kernel.mutexes mutex with guard := true } := m.kernel.setMutex_self ..
        simp only [Bool.false_eq_true, if_false, if_true]
        unfold Machine.suspend
        rw [Kernel.noted_current, taken.sleepMarked _ _ isFrame isMutex marked (by rw [held]), held,
          Kernel.setMutex_asleep _ guard]
        exact .acquireSleeps isMutex inside runs sought isFrame guard lock
      | false =>
        simp only [Bool.false_eq_true, if_false]
        -- The mutex is taken in the name of the process that is current.
        have current : (m.kernel.setMutex mutex ⟨true, false, some self.pid⟩).getCurrentProcess =
            some self := runs.current
        unfold Machine.setHolders
        rw [current]
        exact .acquired isMutex inside runs sought guard lock
  | @release outer mutex self isMutex inside current held =>
    obtain ⟨process, runs⟩ := valid.syscall inside
    have same : m.kernel.getCurrentProcess = some process := runs.current
    rw [current, Option.some.injEq] at same
    subst same
    -- The release is decided by the guard, the lock and the owner.
    unfold Machine.release
    rw [runs.releaseMutex]
    by_cases guard : (m.kernel.mutexes mutex).guard = true
    · rw [if_pos guard]
      exact .releaseFails isMutex runs held (by simp [guard]) (Or.inl rfl)
    rw [if_neg guard]
    by_cases lock : (m.kernel.mutexes mutex).lock = false
    · rw [if_pos lock]
      exact .releaseFails isMutex runs held (by simp [lock]) (Or.inr (Or.inl rfl))
    rw [if_neg lock]
    by_cases owner : (m.kernel.mutexes mutex).pid = some self.pid
    · rw [if_neg (not_not_intro owner)]
      -- The holder is running, so waking sleepers up does not change it.
      have awake : self.wakeup mutex = self := by
        rw [Process.wakeup, if_neg]
        rw [runs.state]
        rintro ⟨blocked, -⟩
        cases blocked
      have here : ((m.kernel.wakeup mutex).setMutex mutex
          ⟨false, false, none⟩).getCurrentProcess = some self := by
        show (m.kernel.processTable m.kernel.currentProcess).map _ = some self
        rw [runs.current, Option.map_some, awake]
      unfold Machine.setHolders
      simp only [here]
      exact .released isMutex inside runs held (by simpa using guard) (by simpa using lock) owner
    · rw [if_pos owner]
      exact .releaseFails isMutex runs held (fun proper => owner proper.2.2) (Or.inr (Or.inr rfl))
  | @finish outer result inside =>
    obtain ⟨self, runs⟩ := valid.syscall inside
    exact .finish result inside runs
  | @schedule frame lockHeld uartReady looping =>
    have idles := valid.scheduling looping
    unfold Machine.pass
    -- The scheduler finds a ready process, or waits, or finds that all have terminated.
    rcases idles.schedulePass uartReady frame with ⟨slot, process, there, ready, result⟩ |
      ⟨notReady, blocked, result⟩ | ⟨ended, result⟩
    · rw [result]
      dsimp only
      rw [m.resume_loaded idles]
      exact .loaded uartReady looping idles there ready
    · rw [result]
      exact .idle uartReady looping idles notReady blocked
    · rw [result]
      exact .theEnd uartReady looping idles ended
  | store byte low busy => exact .store byte low busy
  | stackStore byte slot inside => exact .stackStore byte slot inside

end AtOS
