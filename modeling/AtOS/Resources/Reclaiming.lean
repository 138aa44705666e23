import AtOS.Processes.CurrentProcess
import AtOS.Resources.StackSlots

/-! Kernel stacks that are given up are reclaimed, unless a process gives up a second one first. -/

namespace AtOS

open SlotTable

variable {files : String → Option (List UInt8)} {k next : Kernel} {inKernel : UInt64 → Bool}
  {self : Process} {m after : Machine}

/-- The pid that is given out next holds nothing. -/
theorem Kernel.Runs.fresh_holding (runs : k.Runs inKernel self) :
    k.resources.holding k.nextPid = none := by
  show (entriesOf k.processTable k.nextPid).bind _ = none
  rw [runs.fresh, Option.bind_none]

/-- The child of a fork has no kernel stack yet. -/
theorem Kernel.Runs.child_inactive (runs : k.Runs inKernel self) (owned : k.resources.SlotsOwned)
    {child : Process} (forks : k.forkProcess self = .ok (.ok child, next)) :
    ∀ stack, k.kernelStacks stack ≠ .allocated child.pid := by
  intro stack active
  have alive := owned.alive active
  rw [(Kernel.forkProcess_ok forks).pid, runs.fresh_holding] at alive
  cases alive

section Handlers

/-- Handlers keep that each allocated stack belongs to one process that is alive. -/
theorem Kernel.Uses.slotsOwned {ctx : ExceptionContext} {handled : Handled}
    (uses : k.Uses files self ctx handled) (runs : k.Runs inKernel self)
    (owned : k.resources.SlotsOwned) (goesOn : handled.kernel = some next) :
    next.resources.SlotsOwned := by
  cases uses with
  | stopped unwraps => cases goesOn
  | returned same holding =>
    cases goesOn
    rw [same]
    exact owned
  | scheduling lockHeld same =>
    cases goesOn
    rw [same]
    exact owned
  | inSyscall =>
    cases goesOn
    exact owned
  -- An exit queues the stack of the process, and only the process loses what it held.
  | exited isExit active resources =>
    cases goesOn
    have holding : next.resources.holding = Function.update k.resources.holding self.pid none :=
      congrArg Resources.holding resources
    refine owned.queued (Kernel.getActiveStackIndex_some active)
      (congrArg Resources.kernelStacks resources) fun owner distinct alive => ?_
    rwa [holding, Function.update_of_ne distinct]
  -- A fork gives a free stack to the child.
  | @forked _ mid child slot isFork forks free next_eq resources =>
    cases goesOn
    have inactive := runs.child_inactive owned forks
    obtain ⟨stack, vacant, slots⟩ := Kernel.forkProcess_stacks forks inactive
    have holding : next.resources.holding =
        Function.update k.resources.holding child.pid (some child.pctx.holding) :=
      congrArg Resources.holding resources
    refine owned.allocated inactive ((congrArg Resources.kernelStacks resources).trans slots) ?_
    rintro owner (alive | rfl)
    · rw [holding, Function.update_apply]
      -- The child is among the processes that are alive.
      split
      · rfl
      · exact alive
    · rw [holding, Function.update_self]
      rfl
  -- An exec swaps the stacks of the process, also when it fails.
  | executed isExec reads file executes entry resources =>
    cases goesOn
    rw [resources]
    exact runs.exec_slots owned executes
  | notExecuted isExec reads file fails =>
    cases goesOn
    exact runs.exec_slots owned fails

/-- Handlers queue one stack at most for a process that is alive and has nothing queued. -/
theorem Kernel.Uses.queuedOnce {ctx : ExceptionContext} {handled : Handled}
    (uses : k.Uses files self ctx handled) (runs : k.Runs inKernel self)
    (owned : k.resources.SlotsOwned) (once : k.resources.QueuedOnce)
    (mine : ∀ stack pid, k.kernelStacks stack = .queuedToFree pid → pid = self.pid)
    (unqueued : ∀ args bytes image alloc, ctx.IsSyscall 5 →
      readExecArgs (k.loadByte ctx.ttbr0) (ctx.x.get 0) (ctx.x.get 1) (ctx.x.get 2) = .ok args →
      files (args.headD "") = some bytes → loadElf bytes k.alloc = .ok (.ok image, alloc) →
      ∀ stack, k.kernelStacks stack ≠ .queuedToFree self.pid)
    (goesOn : handled.kernel = some next) : next.resources.QueuedOnce := by
  cases uses with
  | stopped unwraps => cases goesOn
  | returned same holding =>
    cases goesOn
    rw [same]
    exact once
  | scheduling lockHeld same =>
    cases goesOn
    rw [same]
    exact once
  | inSyscall =>
    cases goesOn
    exact once
  -- The process that exits no longer counts, and the others have no more queued than before.
  | exited isExit active resources =>
    cases goesOn
    have holding : next.resources.holding = Function.update k.resources.holding self.pid none :=
      congrArg Resources.holding resources
    refine once.queued (congrArg Resources.kernelStacks resources)
      (fun owner distinct alive => ?_) fun alive => ?_
    · rwa [holding, Function.update_of_ne distinct] at alive
    · rw [holding, Function.update_self] at alive
      cases alive
  -- A fork gives a free stack to the child, and queues none.
  | @forked _ mid child slot isFork forks free next_eq resources =>
    cases goesOn
    obtain ⟨stack, vacant, slots⟩ :=
      Kernel.forkProcess_stacks forks (runs.child_inactive owned forks)
    have holding : next.resources.holding =
        Function.update k.resources.holding child.pid (some child.pctx.holding) :=
      congrArg Resources.holding resources
    refine once.allocated ((congrArg Resources.kernelStacks resources).trans slots)
      fun owner alive => ?_
    rw [holding, Function.update_apply] at alive
    split at alive
    · -- What is queued belongs to the process that forks, and not to the child.
      rename_i isChild
      refine Or.inr fun other queued => ?_
      have isSelf := mine other owner queued
      have vacant := runs.fresh_holding
      rw [← (Kernel.forkProcess_ok forks).pid, ← isChild, isSelf, runs.holding] at vacant
      cases vacant
    · exact Or.inl alive
  -- This is the case where something may be queued twice, so it takes the condition.
  | executed isExec reads file executes entry resources =>
    cases goesOn
    rw [resources]
    exact runs.exec_queuedOnce once executes fun image alloc loads =>
      unqueued _ _ image alloc isExec reads file loads
  | notExecuted isExec reads file fails =>
    cases goesOn
    exact runs.exec_queuedOnce once fails fun image alloc loads =>
      unqueued _ _ image alloc isExec reads file loads

end Handlers

/-- The running process of a machine calls `exec` with a file that `load_elf` loads. -/
structure Machine.Replaces (files : String → Option (List UInt8)) (m : Machine) (action : Action)
    (self : Process) : Prop where
  current : m.kernel.getCurrentProcess = some self
  loads : ∃ ctx devices mid args bytes image alloc, action = .trap ctx devices ∧
    ctx.IsSyscall 5 ∧ m.kernel.entered devices ctx = .ok mid ∧
    readExecArgs (mid.loadByte ctx.ttbr0) (ctx.x.get 0) (ctx.x.get 1) (ctx.x.get 2) = .ok args ∧
    files (args.headD "") = some bytes ∧ loadElf bytes mid.alloc = .ok (.ok image, alloc)

/-- A step lets nobody give up a second kernel stack while a first one is still queued. -/
def Machine.Unqueued (files : String → Option (List UInt8)) (m : Machine) (action : Action) :
    Prop :=
  ∀ self, m.Replaces files action self → ∀ stack,
    m.kernel.kernelStacks stack ≠ .queuedToFree self.pid

/-- A trap of the running program, with the kernel that its handler finds and what that does. -/
structure Machine.Traps (files : String → Option (List UInt8)) (m : Machine) (process : Process)
    (ctx : ExceptionContext) (devices : Devices) (mid : Kernel) (handled : Handled) : Prop where
  running : ∃ frame, m.control = .user frame ∧ ctx.holding = frame.holding
  runs : m.kernel.Runs m.inKernel process
  fromUser : wasFromUserEl0 ctx = true
  entry : m.kernel.entered devices ctx = .ok mid
  entered : m.kernel.Entered m.inKernel process ctx devices mid
  uses : mid.Uses files { process with pctx := .fromEctx ctx } ctx handled
  stays : ∀ {next frame}, handled = .returned next frame → next.currentPid = some process.pid

section Steps

variable {action : Action} {result : Except Stop Machine}

/-- Going to sleep leaves the stacks alone, and the sleeper still holds something. -/
theorem Machine.slept_stacks (runs : m.kernel.Runs m.inKernel self) (channel : UInt64)
    (reason : BlockReason) (ctx : ExceptionContext) (uartReady : Bool) (suspension : Suspension) :
    (m.slept self channel reason ctx uartReady suspension).kernel.kernelStacks =
        m.kernel.kernelStacks ∧ ∀ pid,
      ((m.slept self channel reason ctx uartReady suspension).kernel.resources.holding pid).isSome =
        (m.kernel.resources.holding pid).isSome := by
  have slept := m.slept_resources runs channel reason ctx uartReady suspension
  refine ⟨congrArg Resources.kernelStacks slept, fun pid => ?_⟩
  rw [slept]
  apply isSome_update
  rw [runs.holding]
  rfl

/-- A trap is entered, and then its handler uses resources. -/
theorem Machine.Outcome.traps {ctx : ExceptionContext} {devices : Devices}
    (outcome : m.Outcome files (.trap ctx devices) result) :
    ∃ self mid handled, m.Traps files self ctx devices mid handled ∧ result = m.after handled := by
  cases outcome with
  | @trap frame _ _ self mid running runs fromUser stack table entered leads reports =>
    obtain ⟨mid, entry, entered, uses⟩ := runs.handleExceptionEl1_uses files devices fromUser
    refine ⟨self, mid, _, ⟨⟨frame, running, ?_⟩, runs, fromUser, entry, entered, uses,
      fun returned => ?_⟩, rfl⟩
    · rw [ExceptionContext.holding, stack, table]
      rfl
    · rw [returned] at leads
      obtain ⟨-, changed, pid, runsAfter, -⟩ := leads
      exact runsAfter.currentPid.trans (congrArg some pid)

/-- A step either handles a trap, or leaves stacks alone and the same processes alive. -/
theorem Machine.Outcome.uses (outcome : m.Outcome files action result) (goesOn : result = .ok after) :
    (∃ self ctx devices mid handled, action = .trap ctx devices ∧
        m.Traps files self ctx devices mid handled ∧ m.after handled = .ok after) ∨
      (after.kernel.kernelStacks = m.kernel.kernelStacks ∧ ∀ pid,
        (after.kernel.resources.holding pid).isSome = (m.kernel.resources.holding pid).isSome) := by
  -- A step that keeps all resources keeps the stacks and who is alive.
  have same : after.kernel.resources = m.kernel.resources →
      after.kernel.kernelStacks = m.kernel.kernelStacks ∧ ∀ pid,
        (after.kernel.resources.holding pid).isSome = (m.kernel.resources.holding pid).isSome := by
    intro same
    exact ⟨congrArg Resources.kernelStacks same, fun pid => by rw [same]⟩
  cases outcome with
  -- A trap goes through the call that it makes.
  | @trap frame ctx devices self mid running runs fromUser stack table entered leads reports =>
    obtain ⟨self, mid, handled, traps, done⟩ :=
      Machine.Outcome.traps (.trap running runs fromUser stack table entered leads reports)
    exact Or.inl ⟨self, ctx, devices, mid, handled, rfl, traps, done.symm.trans goesOn⟩
  -- What the kernel itself does on behalf of a process neither allocates nor frees a stack.
  | @sleep outer ctx devices self inside runs isFrame =>
    cases goesOn
    exact Or.inr (m.slept_stacks runs ..)
  | acquired isMutex inside runs sought guard lock =>
    cases goesOn
    exact Or.inr (same rfl)
  | @acquireSleeps outer ctx devices mutex retry self isMutex inside runs sought isFrame guard lock =>
    cases goesOn
    exact Or.inr (m.slept_stacks runs ..)
  | acquireFails isMutex guard => cases goesOn
  | @released outer mutex self isMutex inside runs held guard lock owner =>
    cases goesOn
    exact Or.inr (same (Kernel.resources_wakeup runs.distinct mutex))
  | releaseFails isMutex runs held improper panics => cases goesOn
  | finish result inside runs =>
    cases goesOn
    exact Or.inr (same rfl)
  -- A pass over the table does not either.
  | loaded uartReady looping idles there ready =>
    cases goesOn
    exact Or.inr (same (Machine.loaded_resources idles.distinct there ready _))
  | idle uartReady looping idles notReady blocked =>
    cases goesOn
    exact Or.inr (same (Kernel.resources_awake idles.distinct uartReady))
  | theEnd uartReady looping idles ended => cases goesOn
  -- Stores only change memory.
  | @store va byte low busy =>
    cases goesOn
    have stored := m.kernel.storeByte_resources m.control.ttbr0.toNat va byte
    exact Or.inr ⟨congrArg Resources.kernelStacks stored,
      fun pid => congrArg Option.isSome (congrFun (congrArg Resources.holding stored) pid)⟩
  | @stackStore va byte slot inside =>
    cases goesOn
    have stored := m.kernel.storeByte_resources m.kernel.kernelL1 va byte
    exact Or.inr ⟨congrArg Resources.kernelStacks stored,
      fun pid => congrArg Option.isSome (congrFun (congrArg Resources.holding stored) pid)⟩

/-- Every step keeps that each allocated stack belongs to one process that is alive. -/
theorem Machine.Outcome.slotsOwned (outcome : m.Outcome files action result)
    (goesOn : result = .ok after) (owned : m.kernel.resources.SlotsOwned) :
    after.kernel.resources.SlotsOwned := by
  rcases outcome.uses goesOn with ⟨self, ctx, devices, mid, handled, -, traps, done⟩ | ⟨slots, alive⟩
  · obtain ⟨slots, alive⟩ := traps.runs.entered_stacks traps.fromUser traps.entry
    exact traps.uses.slotsOwned traps.entered.runs (owned.freed slots alive)
      (Machine.after_kernel done)
  · exact owned.congr slots fun pid held => (alive pid).trans held

/-- A step that lets nobody give up a second stack keeps that one is queued at most. -/
theorem Machine.Outcome.queuedOnce (outcome : m.Outcome files action result)
    (goesOn : result = .ok after) (owned : m.kernel.resources.SlotsOwned)
    (once : m.kernel.resources.QueuedOnce) (unqueued : m.Unqueued files action) :
    after.kernel.resources.QueuedOnce := by
  rcases outcome.uses goesOn with ⟨self, ctx, devices, mid, handled, rfl, traps, done⟩ |
    ⟨slots, alive⟩
  · -- On entry the queued stacks of the process itself are freed.
    obtain ⟨slots, alive⟩ := traps.runs.entered_stacks traps.fromUser traps.entry
    have mine : ∀ other pid, mid.kernelStacks other = .queuedToFree pid →
        m.kernel.kernelStacks other = .queuedToFree pid ∧ pid = self.pid := by
      intro other pid queued
      rw [slots] at queued
      exact StackState.queued_afterFreeing.mp queued
    refine traps.uses.queuedOnce traps.entered.runs (owned.freed slots alive)
      (once.freed slots alive) (fun other pid queued => (mine other pid queued).2) ?_
      (Machine.after_kernel done)
    -- So what is queued in the call was queued before it.
    intro args bytes image alloc isExec reads file loads other queued
    exact unqueued self ⟨traps.runs.current, ctx, devices, mid, args, bytes, image, alloc, rfl,
      isExec, traps.entry, reads, file, loads⟩ other (mine other self.pid queued).1
  · exact once.congr slots fun pid held => (alive pid).symm.trans held

end Steps

section Run

variable {start : Kernel} {boot : Machine}

/-- Boot allocates one stack, to `init`. -/
theorem Machine.Booted.slots (booted : Machine.Booted files start boot) :
    boot.kernel.resources.SlotsOwned ∧ boot.kernel.resources.QueuedOnce := by
  -- After boot one stack is allocated, and none is queued.
  have fresh := booted.fresh
  obtain ⟨k, init, frame, bytes, root, loaded, last, stack, mid, -, spawned, takes, rfl⟩ :=
    booted.takes
  obtain ⟨entry, sp, -, top, allocated, -⟩ := takes.loads
  have slots : k.resources.kernelStacks =
      Function.update start.kernelStacks stack (.allocated start.nextPid) :=
    takes.kernelStacks.trans allocated.kernelStacks
  have holding := spawned.holding fresh
  have free := fresh.kernelStacks
  have empty : ({ k.resources with kernelStacks := start.kernelStacks } : Resources).SlotsOwned :=
    ⟨fun here => by simp [free] at here, fun here => by simp [free] at here⟩
  -- The stack belongs to `init`, which is alive.
  constructor
  · refine empty.allocated (fun other => by simp [free]) slots ?_
    rintro owner (alive | rfl)
    · exact alive
    · rw [holding, fresh.nextPid, Function.update_self]
      rfl
  · have none : ({ k.resources with kernelStacks := start.kernelStacks } : Resources).QueuedOnce :=
      fun pid alive first second here => by simp [free] at here
    exact none.allocated slots fun owner alive => Or.inl alive

/-- In every run each allocated stack belongs to one process that is alive. -/
theorem Machine.Reachable.slotsOwned (reached : m.Reachable files) :
    m.kernel.resources.SlotsOwned := by
  obtain ⟨start, boot, booted, run⟩ := reached
  refine (run.induction (motive := fun m => m.kernel.resources.SlotsOwned) booted.tree.1
    booted.slots.1 ?_).2
  intro before next action _ owned _ outcome _
  exact outcome.slotsOwned rfl owned

/-- In a run that lets nobody give up a second stack, one is queued at most for each process. -/
theorem Machine.Runs.queuedOnce (run : Machine.Runs files (Machine.Unqueued files) boot m)
    (booted : Machine.Booted files start boot) :
    m.Valid ∧ m.kernel.resources.SlotsOwned ∧ m.kernel.resources.QueuedOnce := by
  refine run.induction (motive := fun m =>
    m.kernel.resources.SlotsOwned ∧ m.kernel.resources.QueuedOnce) booted.tree.1 booted.slots ?_
  rintro before next action - ⟨owned, once⟩ unqueued outcome -
  exact ⟨outcome.slotsOwned rfl owned, outcome.queuedOnce rfl owned once unqueued⟩

end Run

end AtOS
