import AtOS.Processes.Newcomers
import AtOS.Resources.Answers

/-! Processes off the CPU: how they get there, what they wait for, and what they are woken with. -/

namespace AtOS

open SlotTable

variable {files : String → Option (List UInt8)} {m after : Machine} {action : Action}
  {pid : UInt64} {ctx : ExceptionContext} {devices : Devices}

/-- A process that traps stays on the CPU, exits, or is put aside with the registers it had. -/
theorem Machine.Outcome.leaves_trap (outcome : m.Outcome files (.trap ctx devices) (.ok after))
    (running : m.running = some pid) (staysAlive : ¬ ctx.IsSyscall 3) :
    after.running = some pid ∨ after.suspended pid = none ∧
      ∃ process, after.tree.entries pid = some process ∧ process.pctx = .fromEctx ctx ∧
        (process.Waits → ctx.IsSyscall 6) := by
  generalize goesOn : (.ok after : Except Stop Machine) = result at outcome
  cases outcome with
  | @trap frame ctx devices self mid isUser runs fromUser stack table entered leads reports =>
    -- The process that traps is the one that runs.
    have isPid : self.pid = pid := by
      have same := m.running_eq runs (by simp [isUser])
      rw [running, Option.some.injEq] at same
      exact same.symm
    obtain ⟨mid, entered, answers⟩ := runs.handleExceptionEl1_answers files devices fromUser
    have distinct : ∀ {next : Kernel} {frame : ExceptionContext} {lockHeld : Bool},
        m.kernel.handleExceptionEl1 files devices ctx = .scheduling next frame lockHeld →
        Distinct next.processTable := by
      intro next frame lockHeld schedules
      rw [schedules] at leads
      exact leads.2.1.distinct
    -- If the kernel returns, the same process runs on.
    have stays : ∀ {next : Kernel} {frame : ExceptionContext},
        m.kernel.handleExceptionEl1 files devices ctx = .returned next frame →
        next.currentPid = some pid := by
      intro next frame returned
      rw [returned] at leads
      obtain ⟨-, changed, same, runsAfter, -⟩ := leads
      exact runsAfter.currentPid.trans (congrArg some (same.trans isPid))
    have awake := m.suspended_running runs
    rw [isPid] at awake
    generalize m.kernel.handleExceptionEl1 files devices ctx = handled at answers goesOn stays distinct
    cases answers with
    | stopped stop => cases goesOn
    | returned returns =>
      cases goesOn
      exact Or.inl (stays rfl)
    -- A call that goes on inside the kernel is still of the same process.
    | inSyscall =>
      cases goesOn
      exact Or.inl (entered.runs.currentPid.trans (congrArg some isPid))
    | exited isExit => exact absurd isExit staysAlive
    | @left next changed lockHeld table same pctx alive waits =>
      cases goesOn
      have slot : next.processTable mid.currentProcess = some changed := by
        -- Otherwise it has left the CPU, with its trap in its entry.
        rw [table]
        exact put_self ..
      have here := (distinct rfl).entriesOf_slot slot
      rw [same, show ({ self with pctx := .fromEctx ctx } : Process).pid = _ from isPid] at here
      exact Or.inr ⟨awake, changed, here, pctx, waits⟩

/-- A process that runs does not wait for a child. -/
theorem Machine.Valid.running_busy (valid : m.Valid) (running : m.running = some pid)
    {process : Process} (here : m.tree.entries pid = some process) : ¬ process.Waits := by
  intro waits
  have state := (valid.invariant.formed.one.running here).mpr running
  rw [waits.blocked] at state
  cases state

/-- A process that sleeps inside the kernel does not wait for a child. -/
theorem Machine.Valid.suspended_busy (valid : m.Valid) (suspended : (m.suspended pid).isSome)
    {process : Process} (here : m.tree.entries pid = some process) : ¬ process.Waits := by
  intro waits
  have proper := valid.invariant.blocking.proper here
  have outside : (m.suspended pid).isSome = false := (proper.reason waits.blocked).mp waits.reason
  rw [suspended] at outside
  cases outside

/-- Who waits for a child after a step waited before, or has called `wait` in the step. -/
theorem Machine.Outcome.startsWaiting (outcome : m.Outcome files action (.ok after))
    (valid : m.Valid) {before process : Process} (there : m.tree.entries pid = some before)
    (here : after.tree.entries pid = some process) (waits : process.Waits) :
    before.Waits ∨ ∃ self ctx, m.Calls action self ctx 6 ∧ self.pid = pid := by
  obtain ⟨validAfter, turn⟩ := outcome.turn valid rfl
  -- Either it is the process that runs, or it is left alone but for what wakes it.
  by_cases running : m.running = some pid
  · refine Or.inr ?_
    -- It has left the CPU, since who runs does not wait.
    have left : after.running ≠ some pid := fun stays => validAfter.running_busy stays here waits
    have asleep : ∀ suspension, after.suspended pid ≠ some suspension := by
      intro suspension suspended
      exact validAfter.suspended_busy (by simp [suspended]) here waits
    have sleeps : ∀ {self : Process} {suspension : Suspension}, m.kernel.Runs m.inKernel self →
        (∀ frame lockHeld, m.control ≠ .scheduling frame lockHeld) →
        after.suspended ≠ Function.update m.suspended self.pid (some suspension) := by
      intro self suspension runs busy same
      have isPid := m.running_eq runs busy
      rw [running, Option.some.injEq] at isPid
      exact asleep suspension (by rw [same, isPid, Function.update_self])
    -- The process runs, so the kernel is not going over the table.
    have scheduling : ∀ {frame : ExceptionContext} {lockHeld : Bool},
        m.control ≠ .scheduling frame lockHeld := by
      intro frame lockHeld looping
      simp [Machine.running, looping] at running
    have current : m.kernel.currentPid = some pid := by
      unfold Machine.running at running
      split at running
      · exact running
      · exact running
      · cases running
    generalize goesOn : (.ok after : Except Stop Machine) = result at outcome
    cases outcome with
    | @trap frame ctx devices self mid isUser runs fromUser stack table entered leads reports =>
      have trap : m.Outcome files (.trap ctx devices) (.ok after) :=
        goesOn ▸ .trap isUser runs fromUser stack table entered leads reports
      have isPid := m.running_eq runs (by simp [isUser])
      rw [running, Option.some.injEq] at isPid
      by_cases isExit : ctx.IsSyscall 3
      · -- Who has exited is blocked no more.
        have exiting : pid ∈ after.tree.log.filterMap Event.exiting :=
          List.mem_filterMap.mpr ⟨_, trap.exits_trap running isExit, rfl⟩
        have ended := (validAfter.invariant.statuses.exited exiting).2 process here
        rw [waits.blocked] at ended
        cases ended
      · -- Of what puts a process aside, only `wait` makes it wait.
        rcases trap.leaves_trap running isExit with stays | ⟨-, changed, isChanged, -, onlyWait⟩
        · exact absurd stays left
        · rw [here, Option.some.injEq] at isChanged
          exact ⟨self, ctx, ⟨⟨devices, rfl⟩, runs.current, onlyWait (isChanged ▸ waits)⟩,
            isPid.symm⟩
    | @sleep outer ctx devices self inside runs isFrame =>
      cases goesOn
      exact absurd rfl (sleeps runs (by simp [inside]))
    | @acquireSleeps outer ctx devices mutex retry self isMutex inside runs sought isFrame guard
        lock =>
      cases goesOn
      exact absurd rfl (sleeps runs (by simp [inside]))
    | acquired isMutex inside runs sought guard lock =>
      cases goesOn
      exact absurd current left
    | @released outer mutex self isMutex inside runs held guard lock owner =>
      cases goesOn
      refine absurd ?_ left
      rw [Machine.running, inside]
      exact current
    | finish result inside runs =>
      cases goesOn
      exact absurd current left
    | @loaded frame lockHeld slot process uartReady looping idles found ready =>
      exact absurd looping scheduling
    | idle uartReady looping idles notReady blocked => exact absurd looping scheduling
    | store byte low busy =>
      cases goesOn
      rw [Machine.running_stored] at left
      exact absurd running left
    | stackStore byte slot inside =>
      cases goesOn
      rw [Machine.running_stored] at left
      exact absurd running left
    | acquireFails isMutex guard => cases goesOn
    | releaseFails isMutex runs held improper panics => cases goesOn
    | theEnd uartReady looping idles ended => cases goesOn
  · -- A process that does not run begins no wait.
    exact Or.inl ((turn.untouched valid.invariant there here running).waited waits).1

/-- A process that is off the CPU, and whose saved `x0` does not say that its call has failed. -/
structure Machine.Succeeds (m : Machine) (pid : UInt64) : Prop where
  idle : m.running ≠ some pid
  awake : m.suspended pid = none
  result : ∃ process, m.tree.entries pid = some process ∧ process.pctx.x.get 0 ≠ failure

/-- An exit that is handed to a process puts the pid of a child into its `x0`. -/
theorem Machine.Outcome.wakes (outcome : m.Outcome files action (.ok after)) (valid : m.Valid)
    (idle : m.running ≠ some pid) {process later : Process}
    (there : m.tree.entries pid = some process) (here : after.tree.entries pid = some later) :
    later.pctx.x.get 0 = process.pctx.x.get 0 ∨ later.pctx.x.get 0 ≠ failure := by
  -- The result of a process that does not run changes when its wait is over, and only then.
  obtain ⟨validAfter, turn⟩ := outcome.turn valid rfl
  have untouched := turn.untouched valid.invariant there here idle
  rcases untouched.registers with same | ⟨waits, -⟩
  · exact Or.inl (congrArg (·.x.get 0) same)
  · obtain ⟨new, settles⟩ := outcome.settles valid
    obtain ⟨slot, inSlot, pidBefore⟩ := Machine.slot_of_entries there
    obtain ⟨other, inOther, pidAfter⟩ := Machine.slot_of_entries here
    rcases settles.wakes inSlot inOther (pidAfter.trans pidBefore.symm) waits with
      still | ⟨child, code, delivered⟩
    · -- It still waits, with the registers it waits with.
      exact Or.inl (congrArg (·.x.get 0) (untouched.waited still).2)
    · -- It has been woken, so its first register is the pid of a child.
      obtain ⟨self, ctx, -, parent, last, woken, ⟨-, current, -⟩, isChild, -, -, -, -, -, -, -, isWoken,
        wokenPid, -, registers⟩ := settles.justified _ delivered
      have found := validAfter.entries_slot isWoken
      rw [wokenPid, pidBefore, here, Option.some.injEq] at found
      refine Or.inr ?_
      rw [found, registers]
      -- No pid is the number for a failure.
      have present := valid.entries_slot current
      have notFailure := valid.invariant.formed.rooted.pid_ne_failure present
      rw [isChild] at notFailure
      simpa [ProcessContext.deliver, ProcessContext.setX, register_eq] using notFailure

/-- A process whose call succeeds rests with its result, until it is back in its program with it. -/
theorem Machine.Outcome.succeeds (outcome : m.Outcome files action (.ok after)) (valid : m.Valid)
    (rests : m.Succeeds pid) (stays : ∃ later, after.tree.entries pid = some later) :
    after.Succeeds pid ∨ ∃ frame, after.control = .user frame ∧ after.running = some pid ∧
      frame.x.get 0 ≠ failure := by
  obtain ⟨process, there, result⟩ := rests.result
  -- Either the process is not loaded in the step, or this is the step that loads it.
  rcases outcome.bystands rests.idle with ⟨still, same⟩ | ⟨slot, found, frame, lockHeld, idles,
    looping, foundThere, ready, isPid, rfl⟩
  · obtain ⟨later, here⟩ := stays
    refine Or.inl ⟨still, same.trans rests.awake, later, here, ?_⟩
    rcases outcome.wakes valid rests.idle there here with kept | succeeds
    · rw [kept]
      exact result
    · exact succeeds
  · -- It is loaded with the registers that it was saved with.
    have isProcess := valid.entries_slot foundThere
    rw [isPid, there, Option.some.injEq] at isProcess
    subst isProcess
    have control : (m.loaded slot process frame).control =
        .user (frame.updateFromPctx process.pctx) := by
      simp only [Machine.loaded, isPid, rests.awake]
    refine Or.inr ⟨_, control, ?_, result⟩
    rw [Machine.running, control]
    exact congrArg some isPid

/-- A child of pid 1 stays one in a step, unless pid 1 calls `wait` or is waiting. -/
theorem Machine.Outcome.keeps_orphan (outcome : m.Outcome files action (.ok after))
    (valid : m.Valid) {child init : Process} (there : m.tree.entries pid = some child)
    (isOrphan : child.parentPid = 1) (isInit : m.tree.entries 1 = some init) (busy : ¬ init.Waits)
    (noWait : ∀ self ctx, m.Calls action self ctx 6 → self.pid ≠ 1) :
    ∃ later, after.tree.entries pid = some later ∧ later.parentPid = 1 := by
  obtain ⟨validAfter, turn⟩ := outcome.turn valid rfl
  -- A child that is gone has been reported, so it is enough to look at what is reported.
  rcases turn.keeps_orphan valid.invariant there isOrphan with kept | reported
  · exact kept
  · exfalso
    obtain ⟨new, log, justified⟩ := outcome.justified valid rfl
    have isChild := valid.invariant.formed.rooted.key there
    rw [show after.tree.log = _ from log, List.filterMap_append, List.mem_append] at reported
    -- Only `wait` or an exit to a waiting parent takes the entry away.
    rcases reported with isNew | old
    · obtain ⟨event, member, settled⟩ := List.mem_filterMap.mp isNew
      have happened := justified event member
      cases event with
      | reaped waiter target gone code =>
        cases settled
        -- Then `init` has called `wait`.
        obtain ⟨self, ctx, slot, zombie, -, calls, isWaiter, -, inSlot, isZombie, awaited, -⟩ :=
          happened
        have found := valid.entries_slot inSlot
        rw [isZombie, there, Option.some.injEq] at found
        rw [Process.isAwaited_iff, ← found, isOrphan] at awaited
        exact noWait self ctx calls (isWaiter.trans awaited.1.symm)
      | delivered waiter target gone code =>
        cases settled
        -- Then `init` was waiting.
        obtain ⟨self, ctx, slot, parent, -, -, ⟨-, current, -⟩, isSelf, -, awaited, inSlot, isParent, waits,
          -⟩ := happened
        have found := valid.entries_slot current
        rw [isSelf, there, Option.some.injEq] at found
        rw [Process.isAwaited_iff, ← found, isOrphan] at awaited
        have above := valid.entries_slot inSlot
        rw [isParent, ← awaited.1, isInit, Option.some.injEq] at above
        exact busy (above ▸ waits)
      | created pid pctx => cases settled
      | saved pid pctx => cases settled
      | loaded pid pctx => cases settled
      | exited pid code => cases settled
      | notFound waiter target => cases settled
    · -- Whose exit was reported before is gone.
      have gone := (valid.invariant.statuses.gone old).1
      rw [there] at gone
      cases gone

end AtOS
