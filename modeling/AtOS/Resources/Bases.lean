import AtOS.Resources.Executing

/-! Where the program of each process goes on: the page table and the stack of its next trap. -/

namespace AtOS

open SlotTable

variable {files : String → Option (List UInt8)} {m after : Machine} {self : Process}

/-- The frame that the CPU works on. -/
def Control.frame : Control → ExceptionContext
  | .user frame => frame
  | .syscall suspension => suspension.outer
  | .scheduling frame _ => frame

/-- The page table and the kernel stack that a process has when its program goes on. -/
def Machine.base (m : Machine) (pid : UInt64) : Option Holding :=
  if m.running = some pid then some m.control.frame.holding
  else
    match m.suspended pid with
    | some suspension => some suspension.outer.holding
    | none => m.kernel.resources.holding pid

section Base

/-- While the CPU works for a process, that process goes on with the frame of the CPU. -/
theorem Machine.base_running {pid : UInt64} (running : m.running = some pid) :
    m.base pid = some m.control.frame.holding := if_pos running

/-- A process that does not run has its base in its suspension or in its entry. -/
theorem Machine.base_waiting {pid : UInt64} (waiting : m.running ≠ some pid) :
    m.base pid = match m.suspended pid with
      | some suspension => some suspension.outer.holding
      | none => m.kernel.resources.holding pid := if_neg waiting

/-- The process that runs is not asleep inside the kernel. -/
theorem Kernel.Runs.notSuspended {k : Kernel} (runs : k.Runs m.inKernel self) :
    m.suspended self.pid = none := by
  have outside := (runs.invariant.blocking.running runs.invariant.formed rfl runs.here).2
  have none : (m.suspended self.pid).isSome = false := outside
  rwa [Option.isSome_eq_false_iff, Option.isNone_iff_eq_none] at none

/-- A pid without an entry is not asleep inside the kernel. -/
theorem Kernel.Runs.notSuspended_of_none {k : Kernel} (runs : k.Runs m.inKernel self) {pid : UInt64}
    (vacant : entriesOf k.processTable pid = none) : m.suspended pid = none := by
  by_contra asleep
  have inside : m.inKernel pid = true := by
    show (m.suspended pid).isSome = true
    rwa [Option.isSome_iff_ne_none]
  have present := runs.invariant.blocking.inside inside
  have same : (k.tree m.inKernel (some self.pid)).entries pid = entriesOf k.processTable pid := rfl
  rw [same, vacant] at present
  cases present

/-- A process that waits before and after a step goes on where it did. -/
theorem Machine.base_other {pid : UInt64} (waits : m.running ≠ some pid)
    (still : after.running ≠ some pid) (suspended : after.suspended pid = m.suspended pid)
    (holding : after.kernel.resources.holding pid = m.kernel.resources.holding pid) :
    after.base pid = m.base pid := by
  rw [Machine.base_waiting waits, Machine.base_waiting still, suspended, holding]

/-- The base of one process at most changes. -/
theorem Machine.base_update {pid : UInt64} {value : Option Holding} (mine : after.base pid = value)
    (others : ∀ other, other ≠ pid → after.base other = m.base other) :
    after.base = Function.update m.base pid value := by
  funext other
  rw [Function.update_apply]
  split
  · rename_i same
    rw [same, mine]
  · rename_i distinct
    exact others other distinct

end Base

section Traps

variable {ctx : ExceptionContext} {devices : Devices} {mid : Kernel} {handled : Handled}

/-- The program that traps runs, and its registers name what it goes on with. -/
theorem Machine.Traps.base (traps : m.Traps files self ctx devices mid handled) :
    m.running = some self.pid ∧ m.base self.pid = some ctx.holding := by
  obtain ⟨frame, running, holding⟩ := traps.running
  have runs : m.running = some self.pid := by
    unfold Machine.running
    rw [running]
    exact traps.runs.currentPid
  refine ⟨runs, ?_⟩
  rw [Machine.base_running runs, running, holding]
  rfl

/-- What other processes hold when the handler of a trap starts. -/
theorem Machine.Traps.holding (traps : m.Traps files self ctx devices mid handled) :
    mid.resources.holding =
      Function.update m.kernel.resources.holding self.pid (some ctx.holding) := by
  obtain ⟨freed, -, resources⟩ := traps.runs.entered_resources traps.fromUser traps.entry
  exact congrArg Resources.holding resources

/-- A handler that goes on with one process. -/
theorem Machine.after_returned {next : Kernel} {frame : ExceptionContext}
    (done : m.after (.returned next frame) = .ok after) :
    after = { m with kernel := next, control := .user frame } := by
  cases done
  rfl

/-- Behind a trap that leaves the CPU to the scheduler, the machine is in its loop. -/
theorem Machine.after_scheduling {next : Kernel} {frame : ExceptionContext} {lockHeld : Bool}
    (done : m.after (.scheduling next frame lockHeld) = .ok after) :
    after = { m with kernel := next, control := .scheduling frame lockHeld } := by
  cases done
  rfl

/-- After a handler returned, the process that trapped goes on with the frame. -/
theorem Machine.Traps.base_returned (traps : m.Traps files self ctx devices mid handled)
    {next : Kernel} {frame : ExceptionContext} (returned : handled = .returned next frame)
    (done : m.after handled = .ok after) {value : Option Holding}
    (mine : some frame.holding = value)
    (others : ∀ pid, pid ≠ self.pid → next.resources.holding pid = mid.resources.holding pid) :
    after.base = Function.update m.base self.pid value := by
  have current := traps.stays returned
  rw [returned] at done
  rw [Machine.after_returned done]
  refine Machine.base_update ?_ fun pid distinct => ?_
  · rw [← mine]
    exact Machine.base_running current
  · have apart : some self.pid ≠ some pid := fun same => distinct (Option.some.inj same).symm
    refine Machine.base_other (traps.base.1 ▸ apart) ?_ rfl ?_
    · show next.currentPid ≠ some pid
      rwa [current]
    · rw [others pid distinct, traps.holding, Function.update_of_ne distinct]

/-- After a process left the CPU, it goes on with what it holds, if it is not asleep. -/
theorem Machine.Traps.base_scheduling (traps : m.Traps files self ctx devices mid handled)
    {next : Kernel} {frame : ExceptionContext} {lockHeld : Bool}
    (scheduling : handled = .scheduling next frame lockHeld) (done : m.after handled = .ok after)
    {value : Option Holding} (mine : next.resources.holding self.pid = value)
    (others : ∀ pid, pid ≠ self.pid → next.resources.holding pid = mid.resources.holding pid) :
    after.base = Function.update m.base self.pid value := by
  rw [scheduling] at done
  rw [Machine.after_scheduling done]
  -- The scheduler's loop runs nobody.
  have nobody : ∀ pid, Machine.running
      { m with kernel := next, control := .scheduling frame lockHeld } ≠ some pid := by
    intro pid impossible
    cases impossible
  refine Machine.base_update ?_ fun pid distinct => ?_
  · rw [Machine.base_waiting (nobody self.pid)]
    show (match m.suspended self.pid with
      | some suspension => some suspension.outer.holding
      | none => next.resources.holding self.pid) = value
    rw [traps.runs.notSuspended]
    exact mine
  · -- For everybody else the base is where it was.
    have apart : some self.pid ≠ some pid := fun same => distinct (Option.some.inj same).symm
    refine Machine.base_other (traps.base.1 ▸ apart) (nobody pid) rfl ?_
    rw [others pid distinct, traps.holding, Function.update_of_ne distinct]

/-- After an `exec` that succeeded, its process holds what its new registers name. -/
theorem Kernel.Runs.executed_holding {k next : Kernel} {inKernel : UInt64 → Bool}
    (runs : k.Runs inKernel self) {bytes : List UInt8} {args : List String} {pctx : ProcessContext}
    (done : k.exec k.currentProcess self bytes args = .ok (.ok (), next))
    (entry : next.processTable next.currentProcess = some { self with pctx }) :
    next.resources.holding = Function.update k.resources.holding self.pid (some pctx.holding) := by
  obtain ⟨changed, current, table⟩ := Kernel.exec_entry done
  rw [current, table, put_self, Option.some.injEq, Process.mk.injEq] at entry
  have isPctx : changed = pctx := entry.2.2.2.2.2.1
  have alive : Process.holding { self with pctx } = some pctx.holding :=
    @Process.holding_alive { self with pctx } (by simp [runs.state])
  subst isPctx
  rw [← alive]
  exact runs.resources_put rfl table

/-- No `exec` of a handler fails; one that is refused before it starts is no failure. -/
def Kernel.ExecsWell (k : Kernel) (files : String → Option (List UInt8)) (process : Process)
    (ctx : ExceptionContext) : Prop :=
  ∀ {args bytes error next}, ctx.IsSyscall 5 →
    readExecArgs (k.loadByte ctx.ttbr0) (ctx.x.get 0) (ctx.x.get 1) (ctx.x.get 2) = .ok args →
    files (args.headD "") = some bytes →
    k.exec k.currentProcess process bytes args ≠ .ok (.error error, next)

/-- What a process goes on with changes together with what it holds. -/
theorem Machine.base_unless {pid : UInt64}
    {value : Option Holding} (base : after.base = Function.update m.base pid value)
    (holding : after.kernel.resources.holding = Function.update mid.resources.holding pid value)
    (agrees : mid.resources.holding pid = value → m.base pid = value) (owner : UInt64) :
    after.base owner =
      if after.kernel.resources.holding owner = mid.resources.holding owner then m.base owner
      else after.kernel.resources.holding owner := by
  rw [base, holding, Function.update_apply, Function.update_apply]
  by_cases isPid : owner = pid
  · rw [if_pos isPid, if_pos isPid, isPid]
    split
    · rename_i same
      exact (agrees same.symm).symm
    · rfl
  · rw [if_neg isPid, if_neg isPid, if_pos rfl]

/-- A trap whose `exec` does not fail changes where a process goes on only with what it holds. -/
theorem Machine.Traps.base_after (traps : m.Traps files self ctx devices mid handled)
    (execsWell : mid.ExecsWell files { self with pctx := .fromEctx ctx } ctx)
    (done : m.after handled = .ok after) (owner : UInt64) :
    after.base owner =
      if after.kernel.resources.holding owner = mid.resources.holding owner then m.base owner
      else after.kernel.resources.holding owner := by
  have runsMid := traps.entered.runs
  -- The current process holds what its frame has, and that is its base as well.
  have holdsMid : mid.resources.holding self.pid = some ctx.holding := by
    rw [traps.holding, Function.update_self]
  have unchanged : Function.update mid.resources.holding self.pid (some ctx.holding) =
      mid.resources.holding := by
    rw [← holdsMid, Function.update_eq_self]
  have agrees : ∀ {value}, mid.resources.holding self.pid = value → m.base self.pid = value := by
    intro value same
    rw [← same, holdsMid, traps.base.2]
  -- A use of the kernel gives, takes or replaces the holdings of one process.
  generalize result : handled = leads at done
  cases result ▸ traps.uses with
  | stopped unwraps => cases done
  | @returned next frame same holding =>
    have base := traps.base_returned result (result ▸ done) (congrArg some holding)
      fun pid _ => by rw [same]
    cases done
    refine Machine.base_unless base ?_ agrees owner
    rw [unchanged, same]
  | @scheduling next lockHeld same =>
    have base := traps.base_scheduling result (result ▸ done) (by rw [same, holdsMid])
      fun pid _ => by rw [same]
    cases done
    refine Machine.base_unless base ?_ agrees owner
    rw [unchanged, same]
  | inSyscall =>
    -- A call that goes on keeps the frame of its trap.
    cases done
    refine Machine.base_unless (Machine.base_update ?_ fun pid distinct => ?_) unchanged.symm
      agrees owner
    · exact Machine.base_running runsMid.currentPid
    · have apart : some self.pid ≠ some pid := fun same => distinct (Option.some.inj same).symm
      refine Machine.base_other (traps.base.1 ▸ apart) ?_ rfl ?_
      · show mid.currentPid ≠ some pid
        rwa [runsMid.currentPid]
      · rw [traps.holding, Function.update_of_ne distinct]
  -- The process that exits has no base any more.
  | @exited next stack isExit active resources =>
    have holding : next.resources.holding =
        Function.update mid.resources.holding self.pid none := congrArg Resources.holding resources
    have base := traps.base_scheduling result (result ▸ done)
      (by rw [holding, Function.update_self])
      fun pid distinct => by rw [holding, Function.update_of_ne distinct]
    cases done
    exact Machine.base_unless base holding agrees owner
  | @forked next between child slot isFork forks free next_eq resources =>
    have holding : next.resources.holding =
        Function.update mid.resources.holding child.pid (some child.pctx.holding) :=
      congrArg Resources.holding resources
    -- The child is new, so it held nothing before and has no suspension.
    have fresh : entriesOf mid.processTable child.pid = none := by
      rw [(Kernel.forkProcess_ok forks).pid]
      exact runsMid.fresh
    have vacant : mid.resources.holding child.pid = none := by
      show (entriesOf mid.processTable child.pid).bind _ = none
      rw [fresh, Option.bind_none]
    have other : child.pid ≠ self.pid := by
      intro same
      rw [same, holdsMid] at vacant
      cases vacant
    have current := traps.stays result
    cases done
    have running : Machine.running { m with kernel := next, control := .user (ctx.setX 0 child.pid) } =
        some self.pid := current
    refine Machine.base_unless (Machine.base_update ?_ fun pid distinct => ?_) holding
      (fun same => by rw [vacant] at same; cases same) owner
    · rw [Machine.base_waiting (running ▸ fun same => other (Option.some.inj same).symm)]
      show (match m.suspended child.pid with
        | some suspension => some suspension.outer.holding
        | none => next.resources.holding child.pid) = _
      rw [runsMid.notSuspended_of_none fresh, holding, Function.update_self]
    · -- The parent goes on with its own tables, and nobody else is concerned.
      by_cases mine : pid = self.pid
      · rw [mine, Machine.base_running running, traps.base.2]
        rfl
      · have apart : some self.pid ≠ some pid := fun same => mine (Option.some.inj same).symm
        refine Machine.base_other (traps.base.1 ▸ apart) (running ▸ apart) rfl ?_
        rw [holding, Function.update_of_ne distinct, traps.holding, Function.update_of_ne mine]
  | @executed next between bytes args pctx isExec reads file executes entry resources =>
    have holding : next.resources.holding =
        Function.update mid.resources.holding self.pid (some pctx.holding) := by
      rw [resources]
      exact runsMid.executed_holding executes entry
    -- The caller of `exec` holds what its new context has.
    have base := traps.base_returned result (result ▸ done) rfl
      fun pid distinct => by rw [holding, Function.update_of_ne distinct]
    cases done
    exact Machine.base_unless base holding agrees owner
  | notExecuted isExec reads file fails => exact absurd fails (execsWell isExec reads file)

end Traps

section Rests

/-- What a step that is no trap does to the resources. -/
inductive Machine.Rests (m after : Machine) : Prop
  | same (resources : after.kernel.resources = m.kernel.resources)
  /-- The registers of a process that goes to sleep still name its page table. -/
  | saved {pid : UInt64} {saved : Holding} (goesOn : ∃ base, m.base pid = some base ∧
        saved.ttbr0 = base.ttbr0)
      (resources : after.kernel.resources = { m.kernel.resources with
        holding := Function.update m.kernel.resources.holding pid (some saved) })
  /-- A byte is stored in the address space of the kernel, or in that of the process that runs. -/
  | stored {root va : Nat} {byte : UInt8} (owner : root = m.kernel.kernelL1 ∨
        ∃ pid base, m.base pid = some base ∧ base.ttbr0.toNat = root)
      (resources : after.kernel.resources =
        { m.kernel.resources with alloc := (m.kernel.storeByte root va byte).alloc })

/-- Where processes go on depends on the CPU, on who is asleep and on what is held. -/
theorem Machine.base_congr (running : after.running = m.running)
    (frame : after.control.frame.holding = m.control.frame.holding)
    (suspended : after.suspended = m.suspended)
    (holding : after.kernel.resources.holding = m.kernel.resources.holding) :
    after.base = m.base := by
  unfold Machine.base
  rw [running, frame, suspended, holding]

/-- The process that makes a system call runs, with the frame of that call. -/
theorem Machine.base_syscall (runs : m.kernel.Runs m.inKernel self) {suspension : Suspension}
    (inside : m.control = .syscall suspension) :
    m.running = some self.pid ∧ m.base self.pid = some suspension.outer.holding := by
  have running : m.running = some self.pid := by
    unfold Machine.running
    rw [inside]
    exact runs.currentPid
  refine ⟨running, ?_⟩
  rw [Machine.base_running running, inside]
  rfl

/-- A process that goes to sleep inside the kernel is to come back to its system call. -/
theorem Machine.base_slept (runs : m.kernel.Runs m.inKernel self) {outer : ExceptionContext}
    {retry again : Option UInt64} (inside : m.control = .syscall ⟨outer, retry⟩) (channel : UInt64)
    (reason : BlockReason) (ctx : ExceptionContext) (uartReady : Bool) :
    (m.slept self channel reason ctx uartReady ⟨outer, again⟩).base = m.base := by
  -- The process that goes to sleep has the outer frame in its suspension now.
  obtain ⟨running, base⟩ := Machine.base_syscall runs inside
  have nobody : ∀ pid, (m.slept self channel reason ctx uartReady ⟨outer, again⟩).running ≠
      some pid := by
    intro pid impossible
    cases impossible
  have suspended : (m.slept self channel reason ctx uartReady ⟨outer, again⟩).suspended =
      Function.update m.suspended self.pid (some ⟨outer, again⟩) := rfl
  funext pid
  by_cases mine : pid = self.pid
  · rw [mine, base, Machine.base_waiting (nobody self.pid), suspended, Function.update_self]
  · -- Nobody else is suspended, resumed or changed.
    apply Machine.base_other
    · rw [running]
      exact fun same => mine (Option.some.inj same).symm
    · exact nobody pid
    · rw [suspended, Function.update_of_ne mine]
    · rw [m.slept_resources runs]
      exact Function.update_of_ne mine ..

/-- A process that is loaded goes on where it was to go on. -/
theorem Machine.base_loaded {frame looped : ExceptionContext} {lockHeld : Bool}
    {slot : Fin maxProcesses} {process : Process}
    (looping : m.control = .scheduling looped lockHeld)
    (distinct : Distinct m.kernel.processTable)
    (there : m.kernel.processTable slot = some process) (ready : process.state = .ready) :
    (m.loaded slot process frame).base = m.base := by
  -- Nobody ran before, and the process that is loaded runs afterwards.
  have nobody : ∀ pid, m.running ≠ some pid := by
    intro pid impossible
    unfold Machine.running at impossible
    rw [looping] at impossible
    cases impossible
  have resources := Machine.loaded_resources distinct there ready frame
  have running : (m.loaded slot process frame).running = some process.pid := by
    unfold Machine.running Machine.loaded
    cases m.suspended process.pid <;> rfl
  have suspended : (m.loaded slot process frame).suspended =
      Function.update m.suspended process.pid none := rfl
  funext pid
  -- Its base was in its suspension or in its entry, and it is in its frame now.
  by_cases mine : pid = process.pid
  · rw [mine, Machine.base_running running, Machine.base_waiting (nobody process.pid)]
    unfold Machine.loaded
    cases m.suspended process.pid with
    | some suspension => rfl
    | none =>
      have alive : process.state ≠ .terminated := by simp [ready]
      exact (Kernel.holding_slot distinct there alive).symm
  · apply Machine.base_other
    · exact nobody pid
    · rw [running]
      exact fun same => mine (Option.some.inj same).symm
    · rw [suspended, Function.update_of_ne mine]
    · rw [resources]

/-- A store changes nobody's turn. -/
theorem Machine.base_stored (m : Machine) (root va : Nat) (byte : UInt8) :
    Machine.base { m with kernel := m.kernel.storeByte root va byte } = m.base := by
  have currentPid : (m.kernel.storeByte root va byte).currentPid = m.kernel.currentPid := by
    unfold Kernel.storeByte
    split <;> rfl
  have stored := m.kernel.storeByte_resources root va byte
  have holding : (m.kernel.storeByte root va byte).resources.holding =
      m.kernel.resources.holding := by rw [stored]
  refine Machine.base_congr ?_ rfl rfl holding
  unfold Machine.running
  dsimp only
  rw [currentPid]

/-- The CPU works for a process, with the page table of the frame. -/
theorem Machine.Valid.busy_running (valid : m.Valid)
    (busy : ∀ frame lockHeld, m.control ≠ .scheduling frame lockHeld) :
    ∃ pid, m.running = some pid := by
  unfold Machine.running
  cases control : m.control with
  | user frame =>
    obtain ⟨self, runs⟩ := valid.user control
    exact ⟨self.pid, runs.currentPid⟩
  | syscall suspension =>
    obtain ⟨self, runs⟩ := valid.syscall control
    exact ⟨self.pid, runs.currentPid⟩
  | scheduling frame lockHeld => exact absurd control (busy frame lockHeld)

/-- A control's frame has the tables that the CPU uses. -/
theorem Control.frame_ttbr0 (control : Control) :
    control.frame.holding.ttbr0.toNat = control.ttbr0.toNat := by
  cases control <;> rfl

/-- A step that is no trap leaves every process to go on where it did. -/
theorem Machine.Outcome.rests {action : Action}
    (outcome : m.Outcome files action (.ok after)) (valid : m.Valid)
    (noTrap : ∀ ctx devices, action ≠ .trap ctx devices) :
    after.base = m.base ∧ m.Rests after := by
  generalize result : (Except.ok after : Except Stop Machine) = goesOn at outcome
  cases outcome with
  | @trap frame ctx devices => exact absurd rfl (noTrap ctx devices)
  -- The process that goes to sleep saves a frame with the tables of its trap.
  | @sleep outer ctx devices self inside runs isFrame =>
    cases result
    refine ⟨Machine.base_slept runs inside .., .saved ⟨_, (Machine.base_syscall runs inside).2, ?_⟩
      (m.slept_resources runs ..)⟩
    exact isFrame.table
  | acquired isMutex inside runs sought guard lock =>
    cases result
    -- The lock is the only thing that changes.
    refine ⟨Machine.base_congr ?_ ?_ rfl rfl, .same rfl⟩
    · unfold Machine.running
      rw [inside]
      rfl
    · rw [inside]
      rfl
  | @acquireSleeps outer ctx devices mutex retry self isMutex inside runs sought isFrame guard lock =>
    cases result
    refine ⟨Machine.base_slept runs inside .., .saved ⟨_, (Machine.base_syscall runs inside).2, ?_⟩
      (m.slept_resources runs ..)⟩
    exact isFrame.table
  | acquireFails isMutex guard => cases result
  | @released outer mutex self isMutex inside runs held guard lock owner =>
    cases result
    have resources := Kernel.resources_wakeup runs.distinct mutex
    exact ⟨Machine.base_congr rfl rfl rfl (congrArg Resources.holding resources), .same resources⟩
  | releaseFails isMutex runs held improper panics => cases result
  | @finish outer self value inside runs =>
    cases result
    refine ⟨Machine.base_congr ?_ ?_ rfl rfl, .same rfl⟩
    · unfold Machine.running
      rw [inside]
    · rw [inside]
      cases value <;> rfl
  -- Loading moves a base without changing it.
  | loaded uartReady looping idles there ready =>
    cases result
    exact ⟨Machine.base_loaded looping idles.distinct there ready,
      .same (Machine.loaded_resources idles.distinct there ready _)⟩
  | @idle frame lockHeld uartReady looping idles notReady blocked =>
    cases result
    have resources := Kernel.resources_awake idles.distinct uartReady
    refine ⟨Machine.base_congr ?_ rfl rfl (congrArg Resources.holding resources), .same resources⟩
    unfold Machine.running
    rw [looping]
  | theEnd uartReady looping idles ended => cases result
  | @store va byte low busy =>
    cases result
    -- A store goes through the tables of the process the CPU works for.
    obtain ⟨pid, working⟩ := valid.busy_running busy
    exact ⟨Machine.base_stored .., .stored (Or.inr ⟨pid, _, Machine.base_running working,
      m.control.frame_ttbr0⟩) (m.kernel.storeByte_resources ..)⟩
  | @stackStore va byte slot inside =>
    cases result
    exact ⟨Machine.base_stored .., .stored (Or.inl rfl) (m.kernel.storeByte_resources ..)⟩

end Rests

end AtOS
