import AtOS.Processes.MutexSafety
import AtOS.Resources.Programs

/-! Sleeping inside the kernel: who is woken, and who holds the mutex that others sleep for. -/

namespace AtOS

open SlotTable

variable {files : String → Option (List UInt8)} {m next : Machine} {mutex : UInt64}
  {outer frame : ExceptionContext} {self : Process}

/-- The machine after the running process has taken a mutex. -/
def Machine.taken (m : Machine) (mutex : UInt64) (self : Process) (outer : ExceptionContext) :
    Machine :=
  { m with
    kernel := m.kernel.setMutex mutex ⟨true, false, some self.pid⟩
    control := .syscall ⟨outer, none⟩
    holders := Function.update m.holders mutex (self.pid :: m.holders mutex) }

/-- Who takes a mutex holds it. -/
theorem Machine.taken_holders (m : Machine) (mutex : UInt64) (self : Process)
    (outer : ExceptionContext) : self.pid ∈ (m.taken mutex self outer).holders mutex := by
  show self.pid ∈ Function.update m.holders mutex _ mutex
  rw [Function.update_self]
  exact List.mem_cons_self

/-- A trap changes nothing about who holds a mutex. -/
theorem Machine.Step.trap_holders {ctx : ExceptionContext} {devices : Devices}
    (step : m.Step files (.trap ctx devices) (.ok next)) : next.holders = m.holders := by
  generalize goesOn : (.ok next : Except Stop Machine) = result at step
  cases step with
  | trap =>
    generalize m.kernel.handleExceptionEl1 files devices ctx = handled at goesOn
    cases handled <;> cases goesOn <;> rfl

/-- Scheduling changes nothing about who holds a mutex. -/
theorem Machine.Step.schedule_holders {uartReady : Bool} (valid : m.Valid)
    (step : m.Step files (.schedule uartReady) (.ok next)) : next.holders = m.holders := by
  have outcome := step.outcome valid
  generalize goesOn : (.ok next : Except Stop Machine) = result at outcome
  cases outcome <;> cases goesOn <;> rfl

/-- A program can be inside `read`, with its registers saved. -/
theorem Machine.Valid.reads (valid : m.Valid) (running : m.control = .user frame)
    (current : m.kernel.getCurrentProcess = some self) :
    ∃ next outer pctx, m.Step files
        (.trap (frame.calling 2 (argumentRegisters 1 1 0)) ⟨false, false, false⟩) (.ok next) ∧
      next.control = .syscall ⟨outer, none⟩ ∧
      next.kernel.getCurrentProcess = some { self with pctx } ∧
      next.entries = Function.update m.entries self.pid (some { self with pctx }) ∧
      next.suspended = m.suspended := by
  -- The call is number 2, which goes on inside the kernel.
  have isRead := frame.isSyscall_calling 2 (by decide) (argumentRegisters 1 1 0)
  obtain ⟨process, mid, traps, -, step⟩ :=
    valid.calls running isRead rfl rfl files ⟨false, false, false⟩
  have same : process = self := Option.some.inj (traps.runs.current.symm.trans current)
  subst same
  have inSyscall : mid.handleSyscall files (frame.calling 2 (argumentRegisters 1 1 0)) =
      .inSyscall mid (frame.calling 2 (argumentRegisters 1 1 0)) := by
    rw [Kernel.handleSyscall, isRead.immediate]
    rfl
  rw [inSyscall] at step
  -- It has changed no entry but that of the caller, which has its registers.
  obtain ⟨table, -, -⟩ := traps.runs.entered_quiet traps.fromUser rfl traps.entry
  have saved := @Distinct.put_same _ m.kernel.currentProcess traps.runs.distinct process
    { process with pctx := .fromEctx (frame.calling 2 (argumentRegisters 1 1 0)) }
    traps.runs.current rfl
  refine ⟨_, _, _, step, rfl, traps.entered.runs.current, ?_, rfl⟩
  show entriesOf mid.processTable = _
  rw [table]
  exact saved.2

section Steps

variable (inside : m.control = .syscall ⟨outer, none⟩)
  (current : m.kernel.getCurrentProcess = some self)
include inside current

/-- The process that is inside a system call is the current one. -/
theorem Machine.Valid.runsInside (valid : m.Valid) : m.kernel.Runs m.inKernel self := by
  obtain ⟨process, runs⟩ := valid.syscall inside
  have same : m.kernel.getCurrentProcess = some process := runs.current
  rw [current, Option.some.injEq] at same
  rwa [same]

/-- The kernel can go to sleep for input. -/
theorem Machine.Valid.sleeps (valid : m.Valid) (devices : Devices) : ∃ ctx,
    m.Step files (.sleep ctx devices)
      (.ok (m.slept self awaitingUartRead .awaitingIo ctx devices.uartReady ⟨outer, none⟩)) := by
  obtain ⟨ctx, isFrame⟩ := exists_sleepFrame
  have runs := valid.runsInside inside current
  have step : m.Step files (.sleep { ctx with ttbr0 := outer.ttbr0, x := Vector.replicate 31 0 }
      devices) _ :=
    .sleep inside ⟨isFrame.sync, isFrame.source, isFrame.svc, rfl⟩ (show (Vector.replicate 31 0).get 0 ≠ mutexSleepMarker by decide) (runs.noteSleep ..)
  have outcome := step.outcome valid
  generalize m.suspend _ files devices _ _ = result at step outcome
  cases outcome with
  | @sleep _ _ _ process insideToo runsToo =>
    rw [inside, Control.syscall.injEq] at insideToo
    have same : process = self := Option.some.inj (runsToo.current.symm.trans current)
    rw [← insideToo, same] at step
    exact ⟨_, step⟩

/-- A mutex that nobody holds is taken at once. -/
theorem Machine.Reachable.takesMutex (reached : m.Reachable files) (isMutex : IsMutex mutex)
    (nobody : m.holders mutex = []) (devices : Devices) : ∃ ctx,
    m.Step files (.acquire mutex ctx devices) (.ok (m.taken mutex self outer)) := by
  -- Nobody holds the mutex, so its lock is free.
  obtain ⟨ctx, isFrame⟩ := exists_sleepFrame
  have consistent := reached.mutexesSafe.consistent mutex isMutex
  have free : (m.kernel.mutexes mutex).lock = false := by
    rw [← Bool.not_eq_true]
    intro taken
    obtain ⟨pid, only, -⟩ := consistent.taken taken
    rw [nobody] at only
    cases only
  have step := @Machine.Step.acquire files m outer { ctx with
    ttbr0 := outer.ttbr0
    x := argumentRegisters mutexSleepMarker (guardOf mutex) 0 } devices mutex none isMutex inside
    (Or.inl rfl) ⟨isFrame.sync, isFrame.source, isFrame.svc, rfl⟩ ⟨rfl, rfl⟩
  -- Of what the step can be, only the taking goes with a free lock.
  have outcome := step.outcome reached.valid
  generalize m.acquire files mutex _ devices outer = result at step outcome
  cases outcome with
  | @acquired frame _ _ _ _ other _ insideToo runs sought guard lock =>
    rw [inside, Control.syscall.injEq, Suspension.mk.injEq] at insideToo
    have same : other = self := Option.some.inj (runs.current.symm.trans current)
    rw [← insideToo.1, same] at step
    exact ⟨_, step⟩
  | acquireSleeps _ insideToo runs sought isFrame guard lock =>
    rw [free] at lock
    cases lock
  | acquireFails _ guard =>
    rw [consistent.guard] at guard
    cases guard

/-- While a process sleeps for input, the only one that is ready runs. -/
theorem Machine.Reachable.sleepsBeside (reached : m.Reachable files)
    (awake : m.suspended = fun _ => none) {child : Process}
    (there : m.entries child.pid = some child) (isReady : child.state = .ready)
    (only : ∀ found second, m.entries found = some second → second.state = .ready →
      found = child.pid) :
    ∃ (next : Machine) (frame : ExceptionContext), next.Reachable files ∧
      next.control = .user frame ∧
      next.kernel.getCurrentProcess = some { child with state := .running } ∧
      next.holders = m.holders := by
  -- First the process goes to sleep, and then the pass over the table loads the other.
  have runs := reached.valid.runsInside inside current
  obtain ⟨ctx, sleeps⟩ := reached.valid.sleeps inside current ⟨false, false, false⟩
  have reachedSlept := reached.step sleeps
  obtain ⟨slot, inSlot, -⟩ := slot_of_entriesOf there
  have apart : slot ≠ m.kernel.currentProcess := by
    rintro rfl
    have same : child = self := Option.some.inj (inSlot.symm.trans current)
    have state := runs.state
    rw [← same, isReady] at state
    cases state
  -- Only the entry of the process that sleeps has changed, which is not ready.
  have table : (m.slept self awaitingUartRead .awaitingIo ctx false
      ⟨outer, none⟩).kernel.processTable = put m.kernel.processTable m.kernel.currentProcess
        (some (self.asleep awaitingUartRead .awaitingIo (.fromEctx ctx))) := rfl
  have step : Machine.Step files _ (.schedule false) _ :=
    reachedSlept.valid.schedules_other rfl (by rw [table, put_of_ne _ _ _ apart, inSlot]) isReady
      fun found second here ready => by
        rw [table] at here
        by_cases isSelf : found = m.kernel.currentProcess
        · rw [isSelf, put_self, Option.some.injEq] at here
          rw [← here] at ready
          cases ready
        · rw [put_of_ne _ _ _ isSelf] at here
          have pid := only _ second (runs.distinct.entriesOf_slot here) ready
          exact Or.inl (runs.distinct.slot_eq here inSlot pid)
  -- The other was not suspended, so it is back in user mode.
  have other : child.pid ≠ self.pid := fun same =>
    apart (runs.distinct.slot_eq inSlot current same)
  have resumes : (Function.update m.suspended self.pid (some ⟨outer, none⟩)) child.pid = none := by
    rw [Function.update_of_ne other, awake]
  refine ⟨_, ctx.updateFromPctx child.pctx, reachedSlept.step step, ?_, put_self .., rfl⟩
  unfold Machine.loaded Machine.slept
  dsimp only
  rw [resumes]

/-- Whoever asks for a mutex that is held goes to sleep for it. -/
theorem Machine.Reachable.awaitsMutex (reached : m.Reachable files) (isMutex : IsMutex mutex)
    {holder : UInt64} (held : holder ∈ m.holders mutex) (devices : Devices) : ∃ ctx,
    m.Step files (.acquire mutex ctx devices)
      (.ok (m.slept self mutex .mutex ctx devices.uartReady ⟨outer, some mutex⟩)) := by
  -- Somebody holds the mutex, so its lock is taken.
  obtain ⟨ctx, isFrame⟩ := exists_sleepFrame
  have consistent := reached.mutexesSafe.consistent mutex isMutex
  have step := @Machine.Step.acquire files m outer { ctx with
    ttbr0 := outer.ttbr0
    x := argumentRegisters mutexSleepMarker (guardOf mutex) 0 } devices mutex none isMutex inside
    (Or.inl rfl) ⟨isFrame.sync, isFrame.source, isFrame.svc, rfl⟩ ⟨rfl, rfl⟩
  have outcome := step.outcome reached.valid
  generalize m.acquire files mutex _ devices outer = result at step outcome
  cases outcome with
  | acquired _ insideToo runs sought guard lock =>
    rw [consistent.free lock] at held
    cases held
  | @acquireSleeps _ _ _ _ _ other _ insideToo runs sought isFrame guard lock =>
    rw [inside, Control.syscall.injEq, Suspension.mk.injEq] at insideToo
    have same : other = self := Option.some.inj (runs.current.symm.trans current)
    rw [← insideToo.1, same] at step
    exact ⟨_, step⟩
  | acquireFails _ guard =>
    rw [consistent.guard] at guard
    cases guard

/-- Whoever holds a mutex gives it back. -/
theorem Machine.Reachable.givesMutex (reached : m.Reachable files) (isMutex : IsMutex mutex)
    (held : self.pid ∈ m.holders mutex) :
    ∃ next, m.Step files (.release mutex) (.ok next) := by
  -- The holder is the owner of the lock, so the release goes through.
  have consistent := reached.mutexesSafe.consistent mutex isMutex
  have step := @Machine.Step.release files m outer mutex self isMutex inside current held
  have outcome := step.outcome reached.valid
  generalize m.release mutex = result at step outcome
  cases outcome with
  | released _ insideToo runs heldToo guard lock owner => exact ⟨_, step⟩
  | @releaseFails _ other panic _ runs heldToo improper panics =>
    refine absurd ?_ improper
    cases lock : (m.kernel.mutexes mutex).lock with
    | false =>
      rw [consistent.free lock] at held
      cases held
    | true =>
      obtain ⟨pid, only, owner⟩ := consistent.taken lock
      rw [only, List.mem_singleton] at heldToo
      exact ⟨consistent.guard, rfl, by rw [owner, heldToo]⟩

end Steps

/-- While pid 1 sleeps with a mutex, its child can ask for it, and sleeps too. -/
theorem wordsStart_contends : ∃ m outer sleeper, Machine.Reachable wordsFiles m ∧
    1 ∈ m.holders 0x1000 ∧ m.kernel.getCurrentProcess = some sleeper ∧
    -- The run begins as the one with two processes.
    sleeper.state = .blocked ∧ sleeper.chan = 0x1000 ∧
    m.suspended sleeper.pid = some ⟨outer, some 0x1000⟩ := by
  obtain ⟨boot, first, init, frame, booted, goes, orderly, running, current, pidInit, -, entries,
    nextPid⟩ := wordsStart_init 1 (by decide)
  obtain ⟨forked, parent, child, forks, orderlyForked, hasForked⟩ :=
    orderly.forks_goes wordsFiles_loadsFresh running current
  obtain ⟨frameForked, runningForked⟩ := hasForked.running
  have pidParent : parent.pid = 1 := by
    obtain ⟨_, isParent⟩ := hasForked.same
    rw [isParent]
    exact pidInit
  have pidChild : child.pid = 2 := hasForked.pid.trans nextPid
  have entriesForked := hasForked.entries
  rw [entries, pidParent, pidChild, Function.update_idem] at entriesForked
  have reached : Machine.Reachable wordsFiles forked :=
    ⟨_, boot, booted, (Relation.ReflTransGen.single ⟨_, trivial, goes.2⟩).tail
      ⟨_, trivial, forks.2⟩⟩
  -- Pid 1 takes the mutex and goes to sleep for input.
  obtain ⟨reading, outer, pctx, reads, inside, currentReading, entriesReading, suspended⟩ :=
    orderlyForked.valid.reads runningForked hasForked.current
  have isMutex : IsMutex 0x1000 := ⟨by decide, by decide, by decide⟩
  -- Nobody has taken the mutex yet.
  have nobody : reading.holders 0x1000 = [] := by
    rw [reads.trap_holders, forks.2.trap_holders, goes.2.schedule_holders booted.tree.1]
    obtain ⟨_, _, _, -, -, rfl⟩ := booted.started
    rfl
  have reachedReading := reached.step reads
  obtain ⟨_, takes⟩ :=
    reachedReading.takesMutex inside currentReading isMutex nobody ⟨false, false, false⟩
  have held : parent.pid ∈ (reading.taken 0x1000 { parent with pctx } outer).holders 0x1000 :=
    reading.taken_holders ..
  have reachedTaken := reachedReading.step takes
  have insideTaken : (reading.taken 0x1000 { parent with pctx } outer).control =
      .syscall ⟨outer, none⟩ := rfl
  have currentTaken : (reading.taken 0x1000 { parent with pctx } outer).kernel.getCurrentProcess =
      some { parent with pctx } := currentReading
  have entriesTaken : (reading.taken 0x1000 { parent with pctx } outer).entries =
      Function.update (Function.update (fun _ => none) 1 (some { parent with pctx })) 2
        (some child) := by
    show reading.entries = _
    rw [entriesReading, entriesForked, pidParent, Function.update_comm (by decide),
      Function.update_idem]
  have suspendedTaken : (reading.taken 0x1000 { parent with pctx } outer).suspended =
      fun _ => none := suspended.trans orderlyForked.awake
  obtain ⟨loaded, frame, reachedLoaded, running, current, holders⟩ :=
    reachedTaken.sleepsBeside insideTaken currentTaken suspendedTaken
      (by rw [entriesTaken, pidChild, Function.update_self]) hasForked.ready (by
        rw [entriesTaken, pidChild]
        exact only_ready (by
          show parent.state ≠ .ready
          rw [(orderlyForked.valid.runs runningForked hasForked.current).state]
          decide))
  -- Its child asks for the same mutex.
  obtain ⟨asking, outer, pctx, asks, inside, current, -, -⟩ :=
    reachedLoaded.valid.reads running current
  rw [← holders, ← asks.trap_holders, pidParent] at held
  obtain ⟨ctx, awaits⟩ :=
    (reachedLoaded.step asks).awaitsMutex inside current isMutex held ⟨false, false, false⟩
  refine ⟨_, outer, _, (reachedLoaded.step asks).step awaits, held, put_self .., rfl, rfl, ?_⟩
  exact Function.update_self ..

/--
A wakeup makes ready exactly those who sleep on its channel, and reasons do not mislead.

Every channel that is woken is that of the input or the address of a mutex, and none is 0.
The registers of another process are changed only if it is inside `wait`.
-/
theorem Machine.Reachable.wakesRightly (reached : m.Reachable files) :
    (∀ slot process, m.kernel.processTable slot = some process → m.SleepsProperly process) ∧
    (∀ channel, channel ≠ 0 → ∀ slot process, m.kernel.processTable slot = some process →
      ∃ woken, (m.kernel.wakeup channel).processTable slot = some woken ∧
        (woken.state = .ready ↔ process.state = .ready ∨ m.SleepsOn process channel) ∧
        (¬ m.SleepsOn process channel → woken = process)) ∧
    ∀ action next, m.Step files action (.ok next) → ∀ {slot other process later},
      m.kernel.processTable slot = some process → next.kernel.processTable other = some later →
        later.pid = process.pid → process.state ≠ .running → later.pctx ≠ process.pctx →
        process.Waits ∧ m.suspended process.pid = none ∧
          ∃ child code, later.pctx = process.pctx.deliver child code := by
  have valid := reached.valid
  have invariant := valid.invariant
  have known := reached.channelsKnown
  refine ⟨fun slot process there => valid.sleepsProperly there,
    fun channel proper slot process there => ?_, fun action next step => ?_⟩
  · -- `wakeup` goes over the whole table, so it is enough to look at one entry.
    refine ⟨process.wakeup channel, ?_, ?_, fun awake => ?_⟩
    · show (m.kernel.processTable slot).map _ = _
      rw [there, Option.map_some]
    · -- The channel is not zero, so only sleepers carry it.
      rw [← known.sleepsOn valid there proper, Process.wakeup]
      split
      · rename_i asleep
        simp [asleep]
      · rename_i awake
        simp [awake]
    · rw [← known.sleepsOn valid there proper] at awake
      rw [Process.wakeup, if_neg awake]
  · intro slot other process later there here pid idle changed
    -- A process that does not run keeps its context, unless its wait is over.
    obtain ⟨validNext, turn⟩ := (step.outcome valid).turn valid rfl
    have found := validNext.entries_slot here
    rw [pid] at found
    have notRunning : m.tree.running ≠ some process.pid := fun runs =>
      idle (invariant.formed.one.state runs (valid.entries_slot there))
    rcases turn.contextKept invariant (valid.entries_slot there) found notRunning with kept |
      ⟨waits, child, code, delivered, -⟩
    · exact absurd kept changed
    · refine ⟨waits, ?_, child, code, delivered⟩
      -- Whoever was put to sleep has another reason.
      by_contra inside
      exact (valid.sleepsProperly there).sleeping waits.blocked
        (Option.isSome_iff_ne_none.mpr inside) waits.reason

/-- The child that sleeps for the mutex of pid 1 is woken when the mutex is given back. -/
theorem wakesRightly_words : ∃ m slot process woken, Machine.Reachable wordsFiles m ∧
    m.kernel.processTable slot = some process ∧ m.SleepsProperly process ∧
    m.SleepsOn process 0x1000 ∧ (m.kernel.wakeup 0x1000).processTable slot = some woken ∧
    woken.state = .ready := by
  obtain ⟨m, outer, sleeper, reached, -, current, blocked, -, suspended⟩ := wordsStart_contends
  have there : m.kernel.processTable m.kernel.currentProcess = some sleeper := current
  obtain ⟨proper, wakes, -⟩ := reached.wakesRightly
  have asleep : m.SleepsOn sleeper 0x1000 := ⟨blocked, _, suspended, rfl⟩
  obtain ⟨woken, found, ready, -⟩ := wakes 0x1000 (by decide) _ _ there
  exact ⟨m, _, sleeper, woken, reached, there, proper _ _ there, asleep, found,
    ready.mpr (Or.inr asleep)⟩

/--
At most one process holds a mutex, and the mutex knows it.

Nobody sleeps for a mutex that is free, nobody holds its guard from one step to the next, and no
step panics because of a mutex.
-/
theorem Machine.Reachable.mutexExclusion (reached : m.Reachable files) :
    (∀ mutex, IsMutex mutex → (m.holders mutex).length ≤ 1 ∧
      (∀ pid ∈ m.holders mutex, (m.kernel.mutexes mutex).lock = true ∧
        (m.kernel.mutexes mutex).pid = some pid) ∧
      (m.kernel.mutexes mutex).guard = false ∧
      ((m.kernel.mutexes mutex).lock = false →
        ∀ slot process, m.kernel.processTable slot = some process → process.state = .blocked →
          process.chan ≠ mutex)) ∧
    ∀ action panic, m.Step files action (.error (.failed panic)) → panic.isMisuse = false := by
  have valid := reached.valid
  have safe := reached.mutexesSafe
  refine ⟨fun mutex isMutex => ?_, fun action panic step => ?_⟩
  · -- A mutex whose lock is free has no holder, and one that is taken has its owner.
    have consistent := safe.consistent mutex isMutex
    have asleep : (m.kernel.mutexes mutex).lock = false → ∀ slot process,
        m.kernel.processTable slot = some process → process.state = .blocked →
        process.chan ≠ mutex := fun free slot process there blocked onMutex =>
      consistent.awake free process.pid ⟨process, valid.entries_slot there, blocked, onMutex⟩
    cases lock : (m.kernel.mutexes mutex).lock with
    | false =>
      rw [consistent.free lock]
      exact ⟨Nat.zero_le _, fun pid member => (by cases member), consistent.guard,
        fun _ => asleep lock⟩
    | true =>
      obtain ⟨pid, only, owner⟩ := consistent.taken lock
      rw [only]
      refine ⟨Nat.le_refl _, fun other member => ?_, consistent.guard, fun free => (by cases free)⟩
      rw [List.mem_singleton.mp member]
      exact ⟨rfl, owner⟩
  · -- Panics come from the trap, the acquire and the release.
    have outcome := step.outcome valid
    generalize failed : (.error (.failed panic) : Except Stop Machine) = result at outcome
    cases outcome with
    | @trap frame ctx devices self mid running runs fromUser stack table entered leads reports =>
      generalize m.kernel.handleExceptionEl1 files devices ctx = handled at failed leads
      cases handled with
      | stopped stop =>
        cases failed
        exact Stop.Excused.notMisuse leads
      | returned k frame => cases failed
      | scheduling k frame lockHeld => cases failed
      | inSyscall k frame => cases failed
    | @acquireFails ctx devices mutex isMutex guard =>
      rw [(safe.consistent mutex isMutex).guard] at guard
      cases guard
    | @releaseFails mutex self panic isMutex runs held improper panics =>
      -- Who holds a mutex has it taken, and is its owner.
      have consistent := safe.consistent mutex isMutex
      refine absurd ?_ improper
      cases lock : (m.kernel.mutexes mutex).lock with
      | false =>
        rw [consistent.free lock] at held
        cases held
      | true =>
        obtain ⟨pid, only, owner⟩ := consistent.taken lock
        rw [only, List.mem_singleton] at held
        exact ⟨consistent.guard, rfl, by rw [owner, held]⟩
    | theEnd uartReady looping idles ended => cases failed
    | sleep inside runs isFrame => cases failed
    | acquired isMutex inside runs sought guard lock => cases failed
    | acquireSleeps isMutex inside runs sought isFrame guard lock => cases failed
    | released isMutex inside runs held guard lock owner => cases failed
    | finish result inside runs => cases failed
    | loaded uartReady looping idles there ready => cases failed
    | idle uartReady looping idles notReady blocked => cases failed
    | store byte low busy => cases failed
    | stackStore byte slot inside => cases failed

/-- While its child sleeps for a mutex, only pid 1 holds it, and the mutex knows that. -/
theorem mutexExclusion_words : ∃ m slot sleeper, Machine.Reachable wordsFiles m ∧
    m.kernel.processTable slot = some sleeper ∧ sleeper.state = .blocked ∧
    sleeper.chan = 0x1000 ∧ m.holders 0x1000 = [1] ∧ (m.kernel.mutexes 0x1000).lock = true ∧
    (m.kernel.mutexes 0x1000).pid = some 1 := by
  obtain ⟨m, outer, sleeper, reached, held, current, blocked, forMutex, -⟩ := wordsStart_contends
  obtain ⟨one, knows, -, -⟩ := reached.mutexExclusion.1 0x1000 ⟨by decide, by decide, by decide⟩
  have only : m.holders 0x1000 = [1] := by
    obtain ⟨pid, single⟩ := List.length_eq_one_iff.mp
      (Nat.le_antisymm one (List.length_pos_of_mem held))
    rw [single, List.mem_singleton] at held
    rw [single, held]
  obtain ⟨lock, owner⟩ := knows 1 held
  exact ⟨m, _, sleeper, reached, current, blocked, forMutex, only, lock, owner⟩

end AtOS
