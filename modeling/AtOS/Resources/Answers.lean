import AtOS.Processes.Living
import AtOS.Resources.Bystanders
import AtOS.Resources.ExecFailures
import AtOS.Resources.Programs

/-! What a program finds in its registers after a trap: the results of its call, and nothing else. -/

namespace AtOS

open SlotTable

variable {files : String → Option (List UInt8)} {k next : Kernel} {m after : Machine}
  {self : Process} {inKernel : UInt64 → Bool} {ctx frame : ExceptionContext} {pid : UInt64}

/-- The registers that a system call puts results into, by its number. -/
def resultRegisters : Nat → List (Fin 31)
  | 2 => [0]
  | 4 => [0]
  | 5 => [0]
  | 6 => [0, 1]
  | 7 => [0]
  | 10 => [0, 1]
  | _ => []

/-- Registers that are the same, but for some of the general ones. -/
structure ProcessContext.SameBut (results : Fin 31 → Prop) (before after : ProcessContext) :
    Prop where
  general : ∀ i, ¬ results i → after.x.get i = before.x.get i
  elr : after.elr = before.elr
  spsr : after.spsr = before.spsr
  spEl0 : after.spEl0 = before.spEl0
  spEl1 : after.spEl1 = before.spEl1
  ttbr0 : after.ttbr0 = before.ttbr0

/-- A register that the system call of a frame puts a result into. -/
def ExceptionContext.IsResult (ctx : ExceptionContext) (i : Fin 31) : Prop :=
  ∃ number, ctx.IsSyscall number ∧ i ∈ resultRegisters number

/-- What a program may find in its registers after a trap, unless it was replaced by another. -/
def ExceptionContext.Returns (ctx : ExceptionContext) (pctx : ProcessContext) : Prop :=
  ProcessContext.SameBut ctx.IsResult (.fromEctx ctx) pctx ∨
    ctx.IsSyscall 5 ∧ pctx.x.get 0 ≠ failure

section Registers

variable {results : Fin 31 → Prop} {before between later pctx : ProcessContext}

/-- A context differs from itself in nothing. -/
theorem ProcessContext.SameBut.refl (results : Fin 31 → Prop) (pctx : ProcessContext) :
    pctx.SameBut results pctx := ⟨fun _ _ => rfl, rfl, rfl, rfl, rfl, rfl⟩

/-- Two changes of the results only are one such change. -/
theorem ProcessContext.SameBut.trans (first : before.SameBut results between)
    (second : between.SameBut results later) : before.SameBut results later where
  general i other := (second.general i other).trans (first.general i other)
  elr := second.elr.trans first.elr
  spsr := second.spsr.trans first.spsr
  spEl0 := second.spEl0.trans first.spEl0
  spEl1 := second.spEl1.trans first.spEl1
  ttbr0 := second.ttbr0.trans first.ttbr0

/-- Putting a result into its register. -/
theorem ProcessContext.SameBut.setX {i : Fin 31} (isResult : results i) (pctx : ProcessContext)
    (value : UInt64) : pctx.SameBut results (pctx.setX i value) := by
  refine ⟨fun j other => ?_, rfl, rfl, rfl, rfl, rfl⟩
  have distinct : i.val ≠ j.val := fun same => other (Fin.ext same ▸ isResult)
  rw [register_eq, register_eq]
  exact Vector.getElem_set_ne i.isLt j.isLt distinct

/-- Both results of `wait`. -/
theorem ProcessContext.SameBut.deliver (first : results 0) (second : results 1)
    (pctx : ProcessContext) (child code : UInt64) : pctx.SameBut results (pctx.deliver child code) :=
  (ProcessContext.SameBut.setX first pctx child).trans (ProcessContext.SameBut.setX second _ code)

/-- The registers a call returns in may change when it does. -/
theorem ExceptionContext.IsSyscall.result {number : Nat} (isSyscall : ctx.IsSyscall number)
    {i : Fin 31} (listed : i ∈ resultRegisters number) : ctx.IsResult i := ⟨number, isSyscall, listed⟩

/-- Returning with nothing changed. -/
theorem ExceptionContext.Returns.refl (ctx : ExceptionContext) : ctx.Returns (.fromEctx ctx) :=
  Or.inl (.refl _ _)

/-- Returning with a result in `x0`. -/
theorem ExceptionContext.IsSyscall.returns {number : Nat} (isSyscall : ctx.IsSyscall number)
    (listed : 0 ∈ resultRegisters number) (value : UInt64) :
    ctx.Returns (.fromEctx (ctx.setX 0 value)) :=
  Or.inl (.setX (isSyscall.result listed) _ value)

end Registers

section Handlers

/-- What a handler leaves for the process that trapped. -/
inductive Kernel.Answers (k : Kernel) (process : Process) (ctx : ExceptionContext) : Handled → Prop
  | stopped (stop : Stop) : Answers k process ctx (.stopped stop)
  | returned {next : Kernel} {frame : ExceptionContext} (returns : ctx.Returns (.fromEctx frame)) :
      Answers k process ctx (.returned next frame)
  | inSyscall : Answers k process ctx (.inSyscall k ctx)
  | exited {next : Kernel} {lockHeld : Bool} (isExit : ctx.IsSyscall 3) :
      Answers k process ctx (.scheduling next ctx lockHeld)
  /-- The process has left the CPU, and its registers are saved as they were. -/
  | left {next : Kernel} {changed : Process} {lockHeld : Bool}
      (table : next.processTable = put k.processTable k.currentProcess (some changed))
      (pid : changed.pid = process.pid) (pctx : changed.pctx = process.pctx)
      (alive : changed.state ≠ .terminated) (waits : changed.Waits → ctx.IsSyscall 6) :
      Answers k process ctx (.scheduling next ctx lockHeld)

/-- Handing an exit to the parent forgets nothing that is recorded. -/
theorem Kernel.wakeParent_log {process : Process} {code : UInt64}
    (done : k.wakeParent process code = .ok next) : k.log <:+ next.log := by
  -- Waking a parent up writes one event or none.
  unfold Kernel.wakeParent at done
  split at done
  · split at done
    · dsimp only at done
      split at done
      · split at done
        · rename_i removed
          unfold Kernel.removeProcessFromPtable at removed
          split at removed
          · cases removed
            cases done
            exact List.suffix_cons _ _
          · cases removed
        · cases done
      · cases done
        exact List.suffix_refl _
    · cases done
      exact List.suffix_refl _
  · split at done
    · cases done
      exact List.suffix_refl _
    · cases done

/-- `sys_exit` records the exit of its process. -/
theorem Kernel.exitProcess_recorded {code : UInt64} (done : k.exitProcess self code = .ok next) :
    .exited self.pid code ∈ next.log := by
  -- The exit is written before the parent is woken up, and nothing takes it back.
  unfold Kernel.exitProcess Kernel.acquireLock at done
  split at done
  · cases done
  simp only [bind, Except.bind] at done
  split at done
  · cases done
  · rename_i terminated _
    split at done
    · cases done
    · rename_i woken
      have kept := Kernel.wakeParent_log woken
      unfold Kernel.releaseLock at done
      split at done
      · cases done
        exact kept.subset (List.mem_cons_self ..)
      · cases done

/-- `exit` records that its process has exited, and does not return. -/
theorem Kernel.Runs.sysExit_ends (runs : k.Runs inKernel self) (ctx : ExceptionContext) :
    (∃ stop, k.sysExit ctx = .stopped stop) ∨
      ∃ next, k.sysExit ctx = .scheduling next ctx false ∧
        .exited self.pid (ctx.x.get 0) ∈ next.log := by
  unfold Kernel.sysExit Kernel.getCurrentProcess
  rw [runs.current]
  dsimp only
  split
  · rename_i next done
    exact Or.inr ⟨next, rfl, Kernel.exitProcess_recorded done⟩
  · exact Or.inl ⟨_, rfl⟩

/-- `exit` answers nobody. It leaves the process behind or stops. -/
theorem Kernel.Runs.sysExit_answers (runs : k.Runs inKernel self) (isExit : ctx.IsSyscall 3) :
    k.Answers self ctx (k.sysExit ctx) := by
  rcases runs.sysExit_ends ctx with ⟨stop, ends⟩ | ⟨next, ends, -⟩
  · rw [ends]
    exact .stopped stop
  · rw [ends]
    exact .exited isExit

/-- `fork` returns a pid. -/
theorem Kernel.Runs.sysFork_answers (runs : k.Runs inKernel self) (isFork : ctx.IsSyscall 4) :
    k.Answers self ctx (k.sysFork ctx) := by
  unfold Kernel.sysFork Kernel.getCurrentProcess
  rw [runs.current]
  dsimp only
  split
  · exact .stopped _
  · exact .stopped _
  · split
    · exact .returned (isFork.returns (by decide) _)
    · exact .stopped _

/-- `exec` returns -1, or starts another program with the number of its arguments. -/
theorem Kernel.Runs.sysExec_answers (runs : k.Runs inKernel self)
    (files : String → Option (List UInt8)) (isExec : ctx.IsSyscall 5) :
    k.Answers self ctx (k.sysExec files ctx) := by
  -- Every error comes back as the failure in x0.
  have fails : ∀ next : Kernel, k.Answers self ctx (.returned next (ctx.setX 0 failure)) :=
    fun _ => .returned (isExec.returns (by decide) _)
  unfold Kernel.sysExec Kernel.getCurrentProcess
  -- The current process is the one that calls.
  rw [runs.current]
  split
  · exact .stopped _
  · exact fails _
  · rename_i args _
    dsimp only
    split
    · rename_i process bytes current file
      unfold Kernel.execFile
      split
      · exact .stopped _
      · exact fails _
      · -- A success leaves the caller with its new context, whose x0 is the number of arguments.
        rename_i last done
        obtain ⟨-, stays, -⟩ := Kernel.exec_entry done
        split
        · rename_i changed entry
          rw [stays] at entry
          exact .returned (Or.inr ⟨isExec, Kernel.exec_argc done entry⟩)
        · exact .returned (.refl ctx)
    · exact fails _

/-- `wait` returns its results, or leaves its process waiting. -/
theorem Kernel.Runs.sysWait_answers (runs : k.Runs inKernel self) (isWait : ctx.IsSyscall 6) :
    k.Answers self ctx (k.sysWait ctx) := by
  -- The lock is free, so the call gets it.
  have locked : k.acquireLock = .ok { k with processTableLock := true } := by
    rw [Kernel.acquireLock, runs.lock]
    rfl
  unfold Kernel.sysWait Kernel.getCurrentProcess
  rw [runs.current, locked]
  dsimp only
  unfold Kernel.waitForChild
  dsimp only
  -- The first search finds a terminated child, whose pid and code are returned in x0 and x1.
  split
  · split
    · split
      · refine .returned (Or.inl ?_)
        exact .deliver (isWait.result (by decide)) (isWait.result (by decide)) _ _ _
      · exact .stopped _
    · exact .stopped _
  · -- The second one decides between the failure and going to sleep.
    split
    · split
      · exact .returned (isWait.returns (by decide) _)
      · exact .stopped _
    · exact .left rfl rfl rfl (by simp) fun _ => isWait

/-- The end of a time slice leaves the registers as they are saved. -/
theorem Kernel.Runs.handleIrqException_answers (runs : k.Runs inKernel self) (timer other : Bool)
    (ctx : ExceptionContext) : k.Answers self ctx (k.handleIrqException timer other ctx) := by
  unfold Kernel.handleIrqException Kernel.timesliceUp
  rw [runs.current]
  dsimp only
  split
  · split
    · exact .stopped _
    · refine .left rfl rfl rfl (by simp) fun waits => ?_
      cases waits.blocked
  · split
    · exact .stopped _
    · exact .returned (.refl ctx)

/-- Every system call answers the process that makes it. -/
theorem Kernel.Runs.handleSyscall_answers (runs : k.Runs inKernel self)
    (files : String → Option (List UInt8))
    (isSyscall : ctx.IsSyscall (ctx.esr.toNat % 2 ^ 16)) :
    k.Answers self ctx (k.handleSyscall files ctx) := by
  unfold Kernel.handleSyscall
  split
  case h_1 number => exact runs.sysExit_answers (number ▸ isSyscall)
  case h_2 number => exact runs.sysFork_answers (number ▸ isSyscall)
  case h_3 number => exact runs.sysExec_answers files (number ▸ isSyscall)
  case h_4 number => exact runs.sysWait_answers (number ▸ isSyscall)
  case h_5 => exact .returned (.refl ctx)
  case h_6 number =>
    have isInfo : ctx.IsSyscall 10 := number ▸ isSyscall
    unfold Kernel.sysPInfo Kernel.getCurrentProcess
    rw [runs.current]
    exact .returned (Or.inl (.deliver (isInfo.result (by decide)) (isInfo.result (by decide)) _ _ _))
  case h_7 => exact .inSyscall

end Handlers

section Serving

variable {devices : Devices} {action : Action}

/-- Every trap of a program answers it. -/
theorem Kernel.Runs.handleExceptionEl1_answers (runs : k.Runs inKernel self)
    (files : String → Option (List UInt8)) (devices : Devices)
    (fromUser : wasFromUserEl0 ctx = true) : ∃ mid, k.Entered inKernel self ctx devices mid ∧
      mid.Answers { self with pctx := .fromEctx ctx } ctx
        (k.handleExceptionEl1 files devices ctx) := by
  obtain ⟨mid, -, entered, ⟨isSyscall, result⟩ | ⟨-, result | result | result⟩⟩ :=
    runs.handleExceptionEl1_cases files devices fromUser
  · rw [result]
    exact ⟨mid, entered, entered.runs.handleSyscall_answers files isSyscall⟩
  · rw [result]
    exact ⟨mid, entered, entered.runs.handleIrqException_answers ..⟩
  · rw [result]
    exact ⟨mid, entered, .inSyscall⟩
  · rw [result]
    exact ⟨mid, entered, .stopped _⟩

/-- The program of a process is on the CPU. -/
def Machine.AtEl0 (m : Machine) (pid : UInt64) : Prop :=
  m.running = some pid ∧ ∃ frame, m.control = .user frame

/-- Storing a byte changes nobody's turn. -/
theorem Machine.running_stored (m : Machine) (root va : Nat) (byte : UInt8) :
    Machine.running { m with kernel := m.kernel.storeByte root va byte } = m.running := by
  obtain ⟨alloc, kernelStacks, same⟩ := m.kernel.storeByte_same root va byte
  rw [same]
  rfl

/-- A process that does not run is loaded, or it stays off the CPU, and asleep where it was. -/
theorem Machine.Outcome.bystands (outcome : m.Outcome files action (.ok after))
    (idle : m.running ≠ some pid) :
    (after.running ≠ some pid ∧ after.suspended pid = m.suspended pid) ∨
      ∃ slot process frame lockHeld, m.kernel.Idles m.inKernel lockHeld ∧
        m.control = .scheduling frame lockHeld ∧ m.kernel.processTable slot = some process ∧
        process.state = .ready ∧ process.pid = pid ∧ after = m.loaded slot process frame := by
  -- Others go to sleep under their own pid.
  have others : ∀ {self : Process} (changed : Option Suspension), m.running = some self.pid →
      Function.update m.suspended self.pid changed pid = m.suspended pid := by
    intro self changed runs
    apply Function.update_of_ne
    rintro rfl
    exact idle runs
  -- Whoever the CPU works for, it goes on working for it.
  have sameRunner : ∀ {self : Process} {next : Machine}, m.kernel.Runs m.inKernel self →
      (∀ frame lockHeld, m.control ≠ .scheduling frame lockHeld) →
      next.kernel.currentPid = m.kernel.currentPid → next.running ≠ some pid := by
    intro self next runs busy current running
    have before := m.running_eq runs busy
    unfold Machine.running at running
    split at running
    · rw [current, runs.currentPid, ← before] at running
      exact idle running
    · rw [current, runs.currentPid, ← before] at running
      exact idle running
    · cases running
  generalize goesOn : (.ok after : Except Stop Machine) = result at outcome
  cases outcome with
  | @trap frame ctx devices self mid running runs fromUser stack table entered leads reports =>
    obtain ⟨other, mid, handled, traps, result⟩ :=
      Machine.Outcome.traps (.trap running runs fromUser stack table entered leads reports)
    have before := m.running_eq traps.runs (by simp [running])
    rw [result] at goesOn
    have uses := traps.uses
    have stays := @traps.stays
    -- Between two traps nobody is taken off the CPU but by a trap.
    cases handled with
    | returned next context =>
      cases goesOn
      refine Or.inl ⟨?_, rfl⟩
      have current : next.currentPid = some other.pid := stays rfl
      rw [show Machine.running _ = next.currentPid from rfl, current, ← before]
      exact idle
    | scheduling next context lockHeld =>
      cases goesOn
      exact Or.inl ⟨by simp [Machine.running], rfl⟩
    | inSyscall next context =>
      cases goesOn
      refine Or.inl ⟨?_, rfl⟩
      cases uses with
      | inSyscall =>
        rw [show Machine.running _ = mid.currentPid from rfl, traps.entered.runs.currentPid,
          show ({ other with pctx := .fromEctx ctx } : Process).pid = other.pid from rfl, ← before]
        exact idle
    | stopped stop => cases goesOn
  | @sleep outer ctx devices self inside runs isFrame =>
    cases goesOn
    exact Or.inl ⟨by simp [Machine.running, Machine.slept],
      others _ (m.running_eq runs (by simp [inside]))⟩
  | @acquireSleeps outer ctx devices mutex retry self isMutex inside runs sought isFrame guard lock =>
    cases goesOn
    exact Or.inl ⟨by simp [Machine.running, Machine.slept],
      others _ (m.running_eq runs (by simp [inside]))⟩
  -- The scheduler takes up the process itself, or another one.
  | @loaded frame lockHeld slot process uartReady looping idles there ready =>
    cases goesOn
    by_cases same : process.pid = pid
    · exact Or.inr ⟨slot, process, frame, lockHeld, idles, looping, there, ready, same, rfl⟩
    · refine Or.inl ⟨fun running => ?_, Function.update_of_ne (Ne.symm same) ..⟩
      have loaded : (m.loaded slot process frame).kernel.currentPid = some process.pid := rfl
      unfold Machine.running at running
      split at running
      · rw [loaded, Option.some.injEq] at running
        exact same running
      · rw [loaded, Option.some.injEq] at running
        exact same running
      · cases running
  | theEnd uartReady looping idles ended => cases goesOn
  | acquireFails isMutex guard => cases goesOn
  | releaseFails isMutex runs held improper panics => cases goesOn
  | acquired isMutex inside runs sought guard lock =>
    cases goesOn
    exact Or.inl ⟨sameRunner runs (by simp [inside]) rfl, rfl⟩
  | released isMutex inside runs held guard lock owner =>
    cases goesOn
    exact Or.inl ⟨sameRunner runs (by simp [inside]) rfl, rfl⟩
  | finish result inside runs =>
    cases goesOn
    exact Or.inl ⟨sameRunner runs (by simp [inside]) rfl, rfl⟩
  | idle uartReady looping idles notReady blocked =>
    cases goesOn
    exact Or.inl ⟨by simp [Machine.running, looping], rfl⟩
  | store byte low busy =>
    cases goesOn
    refine Or.inl ⟨?_, rfl⟩
    rw [Machine.running_stored]
    exact idle
  | stackStore byte slot inside =>
    cases goesOn
    refine Or.inl ⟨?_, rfl⟩
    rw [Machine.running_stored]
    exact idle

/-- What others do to the registers of a process that has left the CPU are results of its call. -/
theorem ExceptionContext.Returns.untouched {process later : Process}
    (returns : ctx.Returns process.pctx) (waits : process.Waits → ctx.IsSyscall 6)
    (untouched : process.Untouched later) : ctx.Returns later.pctx := by
  rcases untouched.registers with same | ⟨waited, child, code, delivered⟩
  · rw [same]
    exact returns
  · have isWait := waits waited
    rcases returns with same | ⟨isExec, -⟩
    · rw [delivered]
      exact Or.inl (same.trans
        (.deliver (isWait.result (by decide)) (isWait.result (by decide)) _ child code))
    · exact absurd (isWait.unique isExec) (by decide)

/-- What is recorded stays recorded. -/
theorem Machine.Outcome.keeps_log (outcome : m.Outcome files action (.ok after)) {event : Event}
    (recorded : event ∈ m.kernel.log) : event ∈ after.kernel.log := by
  obtain ⟨new, records⟩ := outcome.recorded rfl
  rw [records.log]
  exact List.mem_append_right new recorded

/-- A trap by which a process exits is recorded. -/
theorem Machine.Outcome.exits_trap (outcome : m.Outcome files (.trap ctx devices) (.ok after))
    (running : m.running = some pid) (isExit : ctx.IsSyscall 3) :
    .exited pid (ctx.x.get 0) ∈ after.kernel.log := by
  generalize goesOn : (.ok after : Except Stop Machine) = result at outcome
  cases outcome with
  | @trap frame ctx devices self mid isUser runs fromUser stack table entered leads reports =>
    -- It is the same process, which makes the call `exit`.
    have isPid : self.pid = pid := by
      have same := m.running_eq runs (by simp [isUser])
      rw [running, Option.some.injEq] at same
      exact same.symm
    obtain ⟨mid, entry, -⟩ := runs.handleExceptionEl1_cases files devices fromUser
    obtain ⟨entered, calls⟩ := runs.calls files devices isExit entry
    have isSysExit : mid.handleSyscall files ctx = mid.sysExit ctx := by
      unfold Kernel.handleSyscall
      rw [isExit.immediate]
      rfl
    rw [calls, isSysExit] at goesOn
    -- If the call does not stop the kernel, it has recorded the exit.
    rcases entered.runs.sysExit_ends ctx with ⟨stop, ends⟩ | ⟨next, ends, recorded⟩
    · rw [ends] at goesOn
      cases goesOn
    · rw [ends] at goesOn
      cases goesOn
      rw [← isPid]
      exact recorded

/-- A process that has exited does not run. -/
theorem Machine.Valid.not_exited (valid : m.Valid) (running : m.running = some pid) {code : UInt64} :
    .exited pid code ∉ m.kernel.log := by
  intro recorded
  have formed := valid.invariant.formed
  obtain ⟨process, here⟩ := formed.one.present running
  have exiting : pid ∈ m.tree.log.filterMap Event.exiting :=
    List.mem_filterMap.mpr ⟨_, recorded, rfl⟩
  have ended := (valid.invariant.statuses.exited exiting).2 process here
  rw [(formed.one.running here).mpr running] at ended
  cases ended

end Serving

end AtOS
