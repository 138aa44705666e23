import AtOS.Processes.Transparency

/-! Whoever sleeps on a channel is woken on that channel, and by nothing else. -/

namespace AtOS

open SlotTable

variable {files : String → Option (List UInt8)} {m next : Machine} {t after : ProcessTree}

/-- The channel a process sleeps on: that of its mutex, or that of the input. -/
def Suspension.channel (suspension : Suspension) : UInt64 :=
  suspension.retry.getD awaitingUartRead

/-- A process of the tree is asleep on a channel. -/
def ProcessTree.AsleepOn (t : ProcessTree) (pid channel : UInt64) : Prop :=
  ∃ process, t.entries pid = some process ∧ process.state = .blocked ∧ process.chan = channel

/-- Whoever is asleep on a channel after a move was so before, or is the one that ran. -/
theorem ProcessTree.Move.asleep_back (move : t.Move after) {pid channel : UInt64}
    (asleep : after.AsleepOn pid channel) (idle : t.running ≠ some pid) : t.AsleepOn pid channel := by
  obtain ⟨process, here, blocked, onChannel⟩ := asleep
  -- A process that runs is not this one, so changing it changes nothing here.
  have other : ∀ {changed : Process}, t.running = some changed.pid → pid ≠ changed.pid := by
    rintro changed runs rfl
    exact idle runs
  -- Changing one entry does not put anybody else to sleep.
  have kept : ∀ {changed : UInt64} {value : Option Process}, pid ≠ changed →
      (Function.update t.entries changed value) pid = some process → t.AsleepOn pid channel := by
    intro changed value distinct found
    rw [Function.update_of_ne distinct] at found
    exact ⟨process, found, blocked, onChannel⟩
  -- Nor does an exit, which gives the others another parent at most.
  have terminated : ∀ {self : Process} {code : UInt64} {process : Process}, pid ≠ self.pid →
      (t.terminated self code).entries pid = some process → process.state = .blocked →
      process.chan = channel → t.AsleepOn pid channel := by
    intro self code process distinct found isBlocked onChannel
    rw [ProcessTree.terminated_entries, if_neg distinct] at found
    obtain ⟨before, there, changed⟩ := Option.map_eq_some_iff.mp found
    rw [Process.reparent_eq] at changed
    rw [← changed] at isBlocked onChannel
    exact ⟨before, there, isBlocked, onChannel⟩
  cases move with
  | save runs _ pctx => exact kept (other runs) here
  -- A wakeup makes sleepers ready, so one that still sleeps was not touched.
  | @wakeup woken proper =>
    obtain ⟨before, there, changed⟩ := Option.map_eq_some_iff.mp here
    unfold Process.wakeup at changed
    split at changed
    · rw [← changed] at blocked
      cases blocked
    · exact ⟨before, there, changed ▸ blocked, changed ▸ onChannel⟩
  | preempt runs _ saved => exact kept (other runs) here
  | exec runs _ pctx name => exact kept (other runs) here
  | @fork self child runs _ room childPid parent ready awake =>
    -- The child starts out ready, and a ready process does not sleep.
    by_cases isChild : pid = child.pid
    · rw [show _ = (t.set child.pid child).entries from rfl, ProcessTree.set_entries,
        if_pos isChild, Option.some.injEq] at here
      rw [← here, ready] at blocked
      cases blocked
    · exact kept isChild here
  | exit runs _ code unheard => exact terminated (other runs) here blocked onChannel
  | @exitDelivered self parent runs _ code above waits =>
    -- The parent that is told is made ready. The others are those of an exit without delivery.
    rw [ProcessTree.delivered_entries, if_neg (other runs)] at here
    split at here
    · rw [Option.some.injEq] at here
      rw [← here] at blocked
      cases blocked
    · exact terminated (other runs) here blocked onChannel
  | @reap self child runs _ target there awaited ended =>
    rw [show _ = (t.set child.pid none).entries from rfl, ProcessTree.set_entries] at here
    split at here
    · cases here
    · exact ⟨process, here, blocked, onChannel⟩
  | notFound runs _ target none => exact ⟨process, here, blocked, onChannel⟩
  | await runs _ saved there awaited alive => exact kept (other runs) here
  | sleep runs _ proper reason pctx => exact kept (other runs) here
  | @load self nobody selfHere ready =>
    -- The process that is loaded is running, so it is not the sleeper.
    by_cases isSelf : pid = self.pid
    · rw [show _ = (t.set self.pid _).entries from rfl, ProcessTree.set_entries, if_pos isSelf,
        Option.some.injEq] at here
      rw [← here] at blocked
      cases blocked
    · exact kept isSelf here

/-- Whoever is asleep on a channel after a turn was so before, or is the one that ran. -/
theorem ProcessTree.Turn.asleep_back (turn : t.Turn after) {pid channel : UInt64}
    (asleep : after.AsleepOn pid channel) (idle : t.running ≠ some pid) : t.AsleepOn pid channel := by
  have back : ∀ {mid : ProcessTree}, t.Prelude mid → mid.AsleepOn pid channel →
      t.AsleepOn pid channel := by
    intro mid prelude
    refine prelude.induction (motive := fun mid => mid.AsleepOn pid channel → t.AsleepOn pid channel)
      id fun {before after} runs earlier move _ asleepAfter => ?_
    exact earlier (move.asleep_back asleepAfter (runs ▸ idle))
  cases turn with
  | rest prelude => exact back prelude asleep
  | move prelude move =>
    have runs := prelude.running
    exact back prelude (move.asleep_back asleep (runs ▸ idle))

/-- Whoever is put to sleep is asleep on the channel that it comes back from. -/
structure Machine.ChannelsKnown (m : Machine) : Prop where
  channel : ∀ {pid suspension process}, m.suspended pid = some suspension →
    m.tree.entries pid = some process → process.state = .blocked →
      process.chan = suspension.channel

/-- Nobody who runs has been put to sleep. -/
theorem Machine.suspended_running {self : Process} (runs : m.kernel.Runs m.inKernel self) :
    m.suspended self.pid = none := by
  have active := (runs.invariant.blocking.proper runs.here).running runs.state
  have inside : (m.suspended self.pid).isSome = false := active.2
  exact Option.isNone_iff_eq_none.mp (by simpa using inside)

/-- A turn in which nobody new goes to sleep keeps the channels known. -/
theorem Machine.ChannelsKnown.keep (known : m.ChannelsKnown) (turn : m.tree.Turn next.tree)
    (back : ∀ {pid suspension}, next.suspended pid = some suspension →
      m.suspended pid = some suspension ∧ m.running ≠ some pid) : next.ChannelsKnown := by
  refine ⟨fun {pid suspension process} inside here blocked => ?_⟩
  obtain ⟨insideBefore, idle⟩ := back inside
  obtain ⟨before, there, blockedBefore, same⟩ :=
    turn.asleep_back ⟨process, here, blocked, rfl⟩ idle
  rw [← same]
  exact known.channel insideBefore there blockedBefore

/-- The process the CPU works for is the one that runs. -/
theorem Machine.running_eq {self : Process} (runs : m.kernel.Runs m.inKernel self)
    (busy : ∀ frame lockHeld, m.control ≠ .scheduling frame lockHeld) :
    m.running = some self.pid := by
  unfold Machine.running
  cases control : m.control with
  | user frame => exact runs.currentPid
  | syscall suspension => exact runs.currentPid
  | scheduling frame lockHeld => exact absurd control (busy frame lockHeld)

/-- Whoever has been put to sleep does not run. -/
theorem Machine.Valid.suspended_idle (valid : m.Valid) {pid : UInt64} {suspension : Suspension}
    (inside : m.suspended pid = some suspension) : m.running ≠ some pid := by
  -- Only a process whose code runs could be the one that sleeps, and its frame is not stored away.
  cases control : m.control with
  | scheduling frame lockHeld =>
    unfold Machine.running
    rw [control]
    simp
  | user frame =>
    obtain ⟨self, runs⟩ := valid.user control
    rw [m.running_eq runs (by simp [control])]
    rintro ⟨rfl⟩
    rw [m.suspended_running runs] at inside
    cases inside
  | syscall suspension =>
    obtain ⟨self, runs⟩ := valid.syscall control
    rw [m.running_eq runs (by simp [control])]
    rintro ⟨rfl⟩
    rw [m.suspended_running runs] at inside
    cases inside

/-- Going to sleep on a channel makes that channel known. -/
theorem Machine.ChannelsKnown.slept (known : m.ChannelsKnown) {self : Process}
    (runs : m.kernel.Runs m.inKernel self)
    (busy : ∀ frame lockHeld, m.control ≠ .scheduling frame lockHeld) {channel : UInt64}
    {reason : BlockReason} {ctx : ExceptionContext} {uartReady : Bool} {suspension : Suspension}
    (same : channel = suspension.channel)
    (stepped : (m.slept self channel reason ctx uartReady suspension).Valid ∧
      m.tree.Turn (m.slept self channel reason ctx uartReady suspension).tree) :
    (m.slept self channel reason ctx uartReady suspension).ChannelsKnown := by
  obtain ⟨valid, turn⟩ := stepped
  refine ⟨fun {pid other process} inside here blocked => ?_⟩
  have suspended : Function.update m.suspended self.pid (some suspension) pid = some other := inside
  rw [Function.update_apply] at suspended
  split at suspended
  · -- This is the process that goes to sleep.
    rename_i isSelf
    rw [Option.some.injEq] at suspended
    have there : (m.slept self channel reason ctx uartReady suspension).kernel.processTable
        m.kernel.currentProcess = some (self.asleep channel reason (.fromEctx ctx)) := put_self ..
    have found := valid.entries_slot there
    rw [show (self.asleep channel reason (.fromEctx ctx)).pid = pid from isSelf.symm, here,
      Option.some.injEq] at found
    rw [found, ← suspended, ← same]
    rfl
  · -- Everybody else was asleep before, on the channel already known.
    rename_i notSelf
    have idle : m.running ≠ some pid := by
      rw [m.running_eq runs busy]
      rintro ⟨rfl⟩
      exact notSelf rfl
    obtain ⟨before, there, blockedBefore, sameChannel⟩ :=
      turn.asleep_back ⟨process, here, blocked, rfl⟩ idle
    rw [← sameChannel]
    exact known.channel suspended there blockedBefore

/-- Every step keeps the channels known. -/
theorem Machine.Outcome.channelsKnown {action : Action} {result : Except Stop Machine}
    (outcome : m.Outcome files action result) (valid : m.Valid) (goesOn : result = .ok next)
    (known : m.ChannelsKnown) : next.ChannelsKnown := by
  have turn := (outcome.turn valid goesOn).2
  -- Most steps leave the suspended frames alone, and nobody new goes to sleep.
  have same : next.suspended = m.suspended → next.ChannelsKnown := by
    intro same
    refine known.keep turn fun {pid suspension} inside => ?_
    rw [same] at inside
    exact ⟨inside, valid.suspended_idle inside⟩
  cases outcome with
  -- An exception ends in one of four ways, and none of them stores a frame.
  | @trap frame ctx devices self mid running runs fromUser stack table entered leads reports =>
    apply same
    cases handled : m.kernel.handleExceptionEl1 files devices ctx with
    | returned k ctx =>
      rw [handled] at goesOn
      cases goesOn
      rfl
    | scheduling k ctx lockHeld =>
      rw [handled] at goesOn
      cases goesOn
      rfl
    | inSyscall k ctx =>
      rw [handled] at goesOn
      cases goesOn
      rfl
    | stopped stop =>
      rw [handled] at goesOn
      cases goesOn
  | @sleep outer ctx devices self inside runs isFrame =>
    cases goesOn
    exact known.slept runs (by simp [inside]) rfl
      (m.turn_slept runs (by simp [inside]) (by decide) (by simp) ctx _ _)
  | @acquireSleeps outer ctx devices mutex retry self isMutex inside runs sought isFrame guard lock =>
    cases goesOn
    exact known.slept runs (by simp [inside]) rfl
      (m.turn_slept runs (by simp [inside]) isMutex.ne_zero (by simp) ctx _ _)
  | @loaded frame lockHeld slot process uartReady looping idles there ready =>
    cases goesOn
    -- The process that is loaded leaves the kernel, and the others stay where they were.
    refine known.keep turn fun {pid suspension} inside => ?_
    have suspended : Function.update m.suspended process.pid none pid = some suspension := inside
    rw [Function.update_apply] at suspended
    split at suspended
    · cases suspended
    · exact ⟨suspended, valid.suspended_idle suspended⟩
  | acquired isMutex inside runs sought guard lock =>
    cases goesOn
    exact same rfl
  | acquireFails isMutex guard => cases goesOn
  | released isMutex inside runs held guard lock owner =>
    cases goesOn
    exact same rfl
  | releaseFails isMutex runs held improper panics => cases goesOn
  | finish result inside runs =>
    cases goesOn
    exact same rfl
  | idle uartReady looping idles notReady blocked =>
    cases goesOn
    exact same rfl
  | theEnd uartReady looping idles ended => cases goesOn
  | store byte low busy =>
    cases goesOn
    exact same rfl
  | stackStore byte slot inside =>
    cases goesOn
    exact same rfl

/-- The channels are known in every reachable machine. -/
theorem Machine.Reachable.channelsKnown (reached : m.Reachable files) : m.ChannelsKnown := by
  obtain ⟨start, boot, booted, run⟩ := reached
  have nobody : boot.ChannelsKnown := by
    obtain ⟨k, init, frame, -, -, rfl⟩ := booted.started
    refine ⟨fun inside => ?_⟩
    cases inside
  exact (run.induction booted.tree.1 nobody fun valid known _ outcome _ =>
    outcome.channelsKnown valid rfl known).2

/-- State, channel and reason of a process agree with whether it was put to sleep. -/
structure Machine.SleepsProperly (m : Machine) (process : Process) : Prop where
  channel : process.chan ≠ 0 ↔ process.state = .blocked ∧ (m.suspended process.pid).isSome
  waiting : process.state = .blocked → m.suspended process.pid = none →
    process.chan = 0 ∧ process.blockReason = some .waitingForChild
  sleeping : process.state = .blocked → (m.suspended process.pid).isSome →
    process.blockReason ≠ some .waitingForChild

/-- A process was put to sleep on a channel and has not been woken since. -/
def Machine.SleepsOn (m : Machine) (process : Process) (channel : UInt64) : Prop :=
  process.state = .blocked ∧
    ∃ suspension, m.suspended process.pid = some suspension ∧ suspension.channel = channel

/-- Where channels and reasons stand, in terms of who was put to sleep. -/
theorem Machine.Valid.sleepsProperly (valid : m.Valid) {slot : Fin maxProcesses}
    {process : Process} (there : m.kernel.processTable slot = some process) :
    m.SleepsProperly process := by
  -- The three parts are read off how a process of a valid machine blocks.
  have proper : process.BlocksProperly (m.suspended process.pid).isSome :=
    valid.invariant.blocking.proper (valid.entries_slot there)
  constructor
  case channel => exact proper.channel
  case waiting =>
    intro blocked awake
    rw [awake] at proper
    constructor
    · by_contra channel
      cases (proper.channel.mp channel).2
    · exact (proper.reason blocked).mpr rfl
  -- A process that sleeps in the kernel waits for its channel and not for a child.
  case sleeping =>
    intro blocked asleep reason
    rw [(proper.reason blocked).mp reason] at asleep
    cases asleep

/-- A blocked process has a channel exactly if it was put to sleep on it. -/
theorem Machine.ChannelsKnown.sleepsOn (known : m.ChannelsKnown) (valid : m.Valid)
    {slot : Fin maxProcesses} {process : Process}
    (there : m.kernel.processTable slot = some process) {channel : UInt64} (proper : channel ≠ 0) :
    process.state = .blocked ∧ process.chan = channel ↔ m.SleepsOn process channel := by
  constructor
  · rintro ⟨blocked, rfl⟩
    have asleep := ((valid.sleepsProperly there).channel.mp proper).2
    obtain ⟨suspension, inside⟩ := Option.isSome_iff_exists.mp asleep
    exact ⟨blocked, suspension, inside,
      (known.channel inside (valid.entries_slot there) blocked).symm⟩
  · rintro ⟨blocked, suspension, inside, rfl⟩
    exact ⟨blocked, known.channel inside (valid.entries_slot there) blocked⟩

end AtOS
