import AtOS.Resources.Resting

/-! Programs as the kernel sees them: the system calls they make, and where they go with the results. -/

namespace AtOS

open SlotTable

/-- A program, by the points between its system calls. -/
structure UserProgram (Point : Type) where
  /-- The system call that it makes at a point, with its arguments. -/
  Calls : Point → ExceptionContext → Prop
  /-- Where it can go from a point with what it finds in its registers after the call. -/
  Goes : Point → ExceptionContext → Point → Prop

/-- A machine in which one process runs a program. -/
structure Hosted (Point : Type) where
  machine : Machine
  point : Point
  /-- Whether the process has made the call of its point, and has not read the result. -/
  calling : Bool

/-- A process makes no system call in a step, unless it prints. -/
def Machine.IsQuiet (m : Machine) (pid : UInt64) (action : Action) : Prop :=
  ∀ ctx devices number, m.running = some pid → action = .trap ctx devices →
    ctx.IsSyscall number → number = 1

variable {Point : Type} {program : UserProgram Point} {pid : UInt64}
  {files : String → Option (List UInt8)} {m after : Machine} {action : Action}
  {allowed : Machine → Action → Prop}

/-- Once a process is back in its program after a call, it goes on with what it finds. -/
inductive UserProgram.Resumes (program : UserProgram Point) (pid : UInt64) (m : Machine)
    (point : Point) : Bool → Hosted Point → Prop
  | ready : Resumes program pid m point false ⟨m, point, false⟩
  | away (elsewhere : ¬ m.AtEl0 pid) : Resumes program pid m point true ⟨m, point, true⟩
  | back {frame : ExceptionContext} {next : Point} (control : m.control = .user frame)
      (running : m.running = some pid) (goes : program.Goes point frame next) :
      Resumes program pid m point true ⟨m, next, false⟩

/-- A step in which a process does what its program does, and others do as they please. -/
inductive UserProgram.Step (program : UserProgram Point) (pid : UInt64)
    (files : String → Option (List UInt8)) (s : Hosted Point) : Action → Hosted Point → Prop
  | call {ctx : ExceptionContext} {devices : Devices} {m : Machine} {next : Hosted Point}
      (running : s.machine.running = some pid) (ready : s.calling = false)
      (calls : program.Calls s.point ctx)
      (step : s.machine.Step files (.trap ctx devices) (.ok m))
      (resumes : program.Resumes pid m s.point true next) :
      Step program pid files s (.trap ctx devices) next
  | other {action : Action} {m : Machine} {next : Hosted Point}
      (quiet : s.machine.IsQuiet pid action) (step : s.machine.Step files action (.ok m))
      (resumes : program.Resumes pid m s.point s.calling next) :
      Step program pid files s action next

/-- A run in which a process runs a program. -/
def UserProgram.Runs (program : UserProgram Point) (pid : UInt64)
    (files : String → Option (List UInt8)) (allowed : Machine → Action → Prop) :
    Hosted Point → Hosted Point → Prop :=
  Relation.ReflTransGen fun s next =>
    ∃ action, allowed s.machine action ∧ program.Step pid files s action next

variable {s next : Hosted Point} {point : Point} {calling : Bool}

/-- A process makes no call while the scheduler runs. -/
theorem Machine.IsQuiet.scheduling (uartReady : Bool) : m.IsQuiet pid (.schedule uartReady) := by
  intro ctx devices number running isTrap isSyscall
  cases isTrap

section Resuming

/-- The machine is the one that the step has led to. -/
theorem UserProgram.Resumes.machine_eq (resumes : program.Resumes pid m point calling next) :
    next.machine = m := by
  cases resumes <;> rfl

/-- Without a call, the process stays at its point. -/
theorem UserProgram.Resumes.ready_eq (resumes : program.Resumes pid m point false next) :
    next = ⟨m, point, false⟩ := by
  cases resumes
  rfl

/-- Off the CPU, the process stays at its point. -/
theorem UserProgram.Resumes.away_eq (resumes : program.Resumes pid m point calling next)
    (idle : m.running ≠ some pid) : next = ⟨m, point, calling⟩ := by
  cases resumes with
  | ready => rfl
  | away elsewhere => rfl
  | back control running goes => exact absurd running idle

/-- Off the CPU, the process may stay at its point. -/
theorem UserProgram.Resumes.of_idle (program : UserProgram Point) (point : Point) (calling : Bool)
    (idle : m.running ≠ some pid) : program.Resumes pid m point calling ⟨m, point, calling⟩ := by
  cases calling with
  | false => exact .ready
  | true => exact .away fun atEl0 => idle atEl0.1

/-- Back in its program after a call, the process goes on with what it finds. -/
theorem UserProgram.Resumes.back_eq (resumes : program.Resumes pid m point true next)
    {frame : ExceptionContext} (control : m.control = .user frame)
    (running : m.running = some pid) :
    ∃ last, program.Goes point frame last ∧ next = ⟨m, last, false⟩ := by
  cases resumes with
  | away elsewhere => exact absurd ⟨running, frame, control⟩ elsewhere
  | back isUser runs goes =>
    rw [control, Control.user.injEq] at isUser
    subst isUser
    exact ⟨_, goes, rfl⟩

end Resuming

section Running

/-- A step of the program is a step of the machine. -/
theorem UserProgram.Step.step (step : program.Step pid files s action next) :
    s.machine.Step files action (.ok next.machine) := by
  cases step with
  | call running ready calls step resumes =>
    rw [resumes.machine_eq]
    exact step
  | other quiet step resumes =>
    rw [resumes.machine_eq]
    exact step

/--
What holds at the start, and is kept when the process calls and when it does not, holds in a run.

A run in which a process runs a program is also a run of the machine.
-/
theorem UserProgram.Runs.induction {motive : Hosted Point → Prop}
    (run : program.Runs pid files allowed s next) (valid : s.machine.Valid) (start : motive s)
    (step : ∀ {s next : Hosted Point} {action : Action}, s.machine.Valid → motive s →
      allowed s.machine action → program.Step pid files s action next → next.machine.Valid →
      motive next) :
    next.machine.Valid ∧ motive next ∧ Machine.Runs files allowed s.machine next.machine := by
  induction run with
  | refl => exact ⟨valid, start, .refl⟩
  | tail _ last hyp =>
    obtain ⟨action, admitted, taken⟩ := last
    obtain ⟨validBefore, before, run⟩ := hyp
    have validAfter := ((taken.step.outcome validBefore).turn validBefore rfl).1
    exact ⟨validAfter, step validBefore before admitted taken validAfter,
      run.tail ⟨action, admitted, taken.step⟩⟩

/-- A run under one condition is a run. -/
theorem UserProgram.Runs.any (run : program.Runs pid files allowed s next) :
    program.Runs pid files (fun _ _ => True) s next := by
  induction run with
  | refl => exact .refl
  | tail _ last hyp =>
    obtain ⟨action, -, step⟩ := last
    exact hyp.tail ⟨action, trivial, step⟩

end Running

section Calls

variable {ctx : ExceptionContext} {devices : Devices} {number : Nat}

/-- A system call is made by the process that runs. -/
theorem Machine.Outcome.calls_running (outcome : m.Outcome files action (.ok after))
    {self : Process} (calls : m.Calls action self ctx number) :
    m.running = some self.pid := by
  obtain ⟨⟨devices, isTrap⟩, current, -⟩ := calls
  -- A call is a trap out of a program, so it is the running process that makes it.
  generalize goesOn : (.ok after : Except Stop Machine) = result at outcome
  cases outcome with
  | trap isUser runs fromUser stack table entered leads reports =>
    have same : m.kernel.getCurrentProcess = some _ := runs.current
    rw [current, Option.some.injEq] at same
    rw [same]
    exact m.running_eq runs (by simp [isUser])
  | sleep inside runs isFrame => cases isTrap
  | acquired isMutex inside runs sought guard lock => cases isTrap
  | acquireSleeps isMutex inside runs sought isFrame guard lock => cases isTrap
  | acquireFails isMutex guard => cases isTrap
  | released isMutex inside runs held guard lock owner => cases isTrap
  | releaseFails isMutex runs held improper panics => cases isTrap
  | finish result inside runs => cases isTrap
  | loaded uartReady looping idles there ready => cases isTrap
  | idle uartReady looping idles notReady blocked => cases isTrap
  | theEnd uartReady looping idles ended => cases isTrap
  | store byte low busy => cases isTrap
  | stackStore byte slot inside => cases isTrap

/-- What the handler of a system call has to work with. -/
theorem Machine.Outcome.calls_trap (outcome : m.Outcome files (.trap ctx devices) (.ok after))
    (running : m.running = some pid) (isSyscall : ctx.IsSyscall number) :
    ∃ self mid, self.pid = pid ∧ m.kernel.Runs m.inKernel self ∧
      m.kernel.Entered m.inKernel self ctx devices mid ∧ m.Calls (.trap ctx devices) self ctx number ∧
      m.after (mid.handleSyscall files ctx) = .ok after := by
  generalize goesOn : (.ok after : Except Stop Machine) = result at outcome
  cases outcome with
  | @trap frame ctx devices self mid isUser runs fromUser stack table entered leads reports =>
    have isPid := m.running_eq runs (by simp [isUser])
    rw [running, Option.some.injEq] at isPid
    obtain ⟨mid, entry, -⟩ := runs.handleExceptionEl1_cases files devices fromUser
    obtain ⟨entered, calls⟩ := runs.calls files devices isSyscall entry
    exact ⟨self, mid, isPid.symm, runs, entered, ⟨⟨devices, rfl⟩, runs.current, isSyscall⟩,
      (congrArg m.after calls).symm⟩

/-- `get_p_info` returns the pid. -/
theorem Machine.Outcome.info_trap (outcome : m.Outcome files (.trap ctx devices) (.ok after))
    (running : m.running = some pid) (isInfo : ctx.IsSyscall 10) :
    ∃ frame, after.control = .user frame ∧ after.running = some pid ∧ frame.x.get 0 = pid := by
  obtain ⟨self, mid, isPid, -, entered, -, goesOn⟩ := outcome.calls_trap running isInfo
  unfold Kernel.handleSyscall at goesOn
  rw [isInfo.immediate] at goesOn
  unfold Kernel.sysPInfo Kernel.getCurrentProcess at goesOn
  rw [entered.runs.current] at goesOn
  cases goesOn
  refine ⟨_, rfl, entered.runs.currentPid.trans (congrArg some isPid), ?_⟩
  simp [ExceptionContext.setX, register_eq, isPid]

/-- `fork` returns the pid of a child, which is neither that of nobody nor that of a failure. -/
theorem Machine.Outcome.fork_trap (outcome : m.Outcome files (.trap ctx devices) (.ok after))
    (valid : m.Valid) (running : m.running = some pid) (isFork : ctx.IsSyscall 4) :
    ∃ frame child, after.control = .user frame ∧ after.running = some pid ∧
      after.tree.entries child.pid = some child ∧ child.parentPid = pid ∧
      frame.x.get 0 = child.pid ∧ child.pid ≠ 0 ∧ child.pid ≠ failure := by
  obtain ⟨validAfter, -⟩ := outcome.turn valid rfl
  -- The trap is that of a `fork`, so the kernel is in `sys_fork`.
  obtain ⟨self, mid, isPid, -, entered, -, goesOn⟩ := outcome.calls_trap running isFork
  unfold Kernel.handleSyscall at goesOn
  rw [isFork.immediate] at goesOn
  rcases entered.runs.sysFork_cases ctx with ⟨stop, result, -⟩ | ⟨child, last, slot, -, made, -,
    result⟩
  · rw [result] at goesOn
    cases goesOn
  · rw [result] at goesOn
    cases goesOn
    -- The child is in the table, under the pid that the call returns.
    obtain ⟨_, _, rfl⟩ := made.same
    have here := @Machine.Valid.entries_slot _ validAfter slot
      { child with pctx := child.pctx.setX 0 0 } (put_self ..)
    refine ⟨_, _, rfl, entered.runs.currentPid.trans (congrArg some isPid), here,
      made.parent.trans isPid, ?_, ?_, validAfter.invariant.formed.rooted.pid_ne_failure here⟩
    · simp [ExceptionContext.setX, register_eq]
    · -- No pid is zero.
      intro zero
      have positive := validAfter.invariant.formed.rooted.positive here
      rw [zero] at positive
      exact absurd positive (by decide)

/-- `wait` fails at once only if there is no such child; otherwise it may put its process aside. -/
theorem Machine.Outcome.wait_trap (outcome : m.Outcome files (.trap ctx devices) (.ok after))
    (valid : m.Valid) (running : m.running = some pid) (isWait : ctx.IsSyscall 6) :
    (∃ frame, after.control = .user frame ∧ after.running = some pid ∧
        (frame.x.get 0 = failure → ∀ other child, m.tree.entries other = some child →
          child.isAwaited pid (ctx.x.get 0) = false)) ∨
      after.running ≠ some pid ∧ after.suspended pid = none ∧
        ∃ process, after.tree.entries pid = some process ∧ process.pctx = .fromEctx ctx := by
  -- A call to `wait` is not one to `exit`.
  have staysAlive : ¬ ctx.IsSyscall 3 := by
    intro isExit
    have same := isExit.immediate
    rw [isWait.immediate] at same
    cases same
  by_cases stays : after.running = some pid
  · refine Or.inl ?_
    obtain ⟨self, mid, isPid, -, entered, calls, goesOn⟩ := outcome.calls_trap running isWait
    -- The process still runs, so the call returned with a child or with the failure.
    unfold Kernel.handleSyscall at goesOn
    rw [isWait.immediate] at goesOn
    have control : ∃ frame, after.control = .user frame := by
      rcases entered.runs.sysWait_cases ctx with ⟨slot, child, there, isChild, ended, result⟩ |
        ⟨none, result⟩ | ⟨slot, child, there, isChild, alive, result⟩
      · rw [result] at goesOn
        cases goesOn
        exact ⟨_, rfl⟩
      · rw [result] at goesOn
        cases goesOn
        exact ⟨_, rfl⟩
      · rw [result] at goesOn
        cases goesOn
        cases stays
    obtain ⟨frame, isUser⟩ := control
    -- A failure is returned only if no child matches.
    obtain ⟨new, settles⟩ := outcome.settles valid
    refine ⟨frame, isUser, stays, fun fails other child there => ?_⟩
    obtain ⟨slot, inSlot, -⟩ := Machine.slot_of_entries there
    exact isPid ▸ (settles.returns calls isUser).1.mp fails slot child inSlot
  · -- Otherwise `wait` has put it to sleep, with the registers of the call saved.
    rcases outcome.leaves_trap running staysAlive with runs | ⟨awake, process, here, same, -⟩
    · exact absurd runs stays
    · exact Or.inr ⟨stays, awake, process, here, same⟩

/-- A process has not exited. -/
def Machine.IsAlive (m : Machine) (pid : UInt64) : Prop := ∀ code, .exited pid code ∉ m.kernel.log

/-- A process stays alive while it does not call `exit`. -/
theorem Machine.Outcome.isAlive (outcome : m.Outcome files action (.ok after))
    (valid : m.Valid) (alive : m.IsAlive pid)
    (noExit : ∀ self ctx, m.Calls action self ctx 3 → self.pid ≠ pid) : after.IsAlive pid := by
  intro code recorded
  obtain ⟨new, log, justified⟩ := outcome.justified valid rfl
  rw [log, List.mem_append] at recorded
  rcases recorded with isNew | old
  · obtain ⟨self, ctx, calls, isSelf, -⟩ := justified _ isNew
    exact noExit self ctx calls isSelf
  · exact alive code old

/-- While a process makes no call but to print, it makes none of the others. -/
theorem Machine.IsQuiet.noCalls (quiet : m.IsQuiet pid action)
    (outcome : m.Outcome files action (.ok after)) (other : number ≠ 1) (self : Process)
    (ctx : ExceptionContext) (calls : m.Calls action self ctx number) : self.pid ≠ pid := by
  intro isSelf
  have running := outcome.calls_running calls
  rw [isSelf] at running
  obtain ⟨⟨devices, isTrap⟩, -, isSyscall⟩ := calls
  exact other (quiet ctx devices number running isTrap isSyscall)

/-- A trap asks for one system call at most. -/
theorem Machine.Calls.unique {self : Process} {asked : ExceptionContext} {one : Nat}
    (calls : m.Calls (.trap ctx devices) self asked number) (isSyscall : ctx.IsSyscall one) :
    number = one := by
  obtain ⟨⟨devices, isTrap⟩, -, asks⟩ := calls
  cases isTrap
  exact asks.unique isSyscall

end Calls

end AtOS
