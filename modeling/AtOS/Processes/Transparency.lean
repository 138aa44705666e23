import AtOS.Processes.CurrentProcess

/-! A process that is scheduled finds the registers it was saved with. -/

namespace AtOS

open SlotTable

variable {files : String → Option (List UInt8)} {m next : Machine} {t after : ProcessTree}

/-- A prelude leaves the registers of who does not run, and makes nobody wait. -/
theorem ProcessTree.Prelude.bystander {mid : ProcessTree} (prelude : t.Prelude mid) {pid : UInt64}
    {process : Process} (there : t.entries pid = some process) (idle : t.running ≠ some pid) :
    ∃ later, mid.entries pid = some later ∧ later.pctx = process.pctx ∧
      (later.Waits → process.Waits) := by
  -- Waking up changes the state and not the context.
  have woken : ∀ {before : ProcessTree} (uartReady : Bool), before.entries pid = some process →
      ∃ later, (before.awoken uartReady).entries pid = some later ∧ later.pctx = process.pctx ∧
        (later.Waits → process.Waits) := by
    intro before uartReady found
    unfold ProcessTree.awoken
    split
    · refine ⟨process.wakeup awaitingUartRead, ?_, ?_, fun waits => waits.of_wakeup.2⟩
      · rw [ProcessTree.mapAll_entries, found, Option.map_some]
      · unfold Process.wakeup
        split <;> rfl
    · exact ⟨process, found, rfl, id⟩
  -- The saved context is the running process's, and this one does not run.
  cases prelude with
  | nothing => exact ⟨process, there, rfl, id⟩
  | awoken uartReady => exact woken uartReady there
  | @saved self runs here pctx uartReady =>
    have distinct : pid ≠ self.pid := by
      rintro rfl
      exact idle runs
    apply woken uartReady
    show (t.set self.pid _).entries pid = some process
    rw [ProcessTree.set_entries, if_neg distinct, there]

/-- No turn changes the registers of a process that does not run, but to hand it an exit. -/
theorem ProcessTree.Turn.contextKept (turn : t.Turn after) (invariant : t.Invariant) {pid : UInt64}
    {process later : Process} (there : t.entries pid = some process)
    (here : after.entries pid = some later) (idle : t.running ≠ some pid) :
    later.pctx = process.pctx ∨ process.Waits ∧ ∃ child code,
      later.pctx = process.pctx.deliver child code ∧
        .delivered pid process.target child code ∈ after.log := by
  cases turn with
  -- The turn has no move, so only the prelude is left.
  | rest prelude =>
    obtain ⟨other, found, same, -⟩ := prelude.bystander there idle
    rw [found, Option.some.injEq] at here
    exact Or.inl (here ▸ same)
  | move prelude move =>
    obtain ⟨other, found, same, waited⟩ := prelude.bystander there idle
    -- A waiter may be told about a child, and everybody else keeps the context.
    rcases move.contextKept (prelude.invariant invariant).formed found here
      (prelude.running ▸ idle) with kept | ⟨waits, child, code, delivered, logged⟩
    · exact Or.inl (kept.trans same)
    · refine Or.inr ⟨waited waits, child, code, same ▸ delivered, ?_⟩
      have target : other.target = process.target := by
        rw [Process.target, Process.target, same]
      exact target ▸ logged

/-- The frame an action leaves for the process that runs, if it is an exception. -/
def Action.frame : Action → Option ExceptionContext
  | .trap ctx _ => some ctx
  | .sleep ctx _ => some ctx
  | .acquire _ ctx _ => some ctx
  | _ => none

/-- Entering the kernel takes no pid. -/
theorem Kernel.Entered.nextPid {k mid : Kernel} {inKernel : UInt64 → Bool} {process : Process}
    {ctx : ExceptionContext} {devices : Devices} (entered : k.Entered inKernel process ctx devices mid) :
    mid.nextPid = k.nextPid := by
  have nextPid := congrArg ProcessTree.nextPid entered.tree
  have same : ∀ t : ProcessTree, (t.awoken devices.uartReady).nextPid = t.nextPid := by
    intro t
    unfold ProcessTree.awoken
    split <;> rfl
  rw [same] at nextPid
  exact nextPid

/-- What a step adds to the record about saved and first registers. -/
structure Machine.Recorded (m : Machine) (action : Action) (next : Machine) (new : List Event) :
    Prop where
  log : next.kernel.log = new ++ m.kernel.log
  /-- What is saved is the frame of the exception, for the process that runs. -/
  saved : ∀ {pid pctx}, .saved pid pctx ∈ new → ∃ self ctx,
    m.kernel.getCurrentProcess = some self ∧ self.pid = pid ∧ action.frame = some ctx ∧
      pctx = .fromEctx ctx
  /-- Every exception of a program is saved, and every one after which the scheduler runs. -/
  saves : ∀ {self ctx}, m.kernel.getCurrentProcess = some self → action.frame = some ctx →
    (∃ devices, action = .trap ctx devices) ∨ ¬ next.Returned → .saved self.pid (.fromEctx ctx) ∈ new
  /-- Only new processes have first registers. -/
  created : ∀ {pid pctx}, .created pid pctx ∈ new → m.kernel.findById pid = none

/-- A step that records nothing, because no exception happens in it. -/
theorem Machine.Recorded.nothing {action : Action} (log : next.kernel.log = m.kernel.log)
    (returned : action.frame = none ∨ (∀ ctx devices, action ≠ .trap ctx devices) ∧ next.Returned) :
    m.Recorded action next [] := by
  refine ⟨log, fun member => ?_, fun {self ctx} _ isFrame switched => ?_, fun member => ?_⟩
  · cases member
  · rcases returned with none | ⟨noTrap, returned⟩
    · rw [none] at isFrame
      cases isFrame
    · rcases switched with ⟨devices, isTrap⟩ | away
      · exact absurd isTrap (noTrap ctx devices)
      · exact absurd returned away
  · cases member

/-- The log of a kernel that an exception of a program has entered. -/
theorem Kernel.Entered.log {k mid : Kernel} {inKernel : UInt64 → Bool} {process : Process}
    {ctx : ExceptionContext} {devices : Devices} (entered : k.Entered inKernel process ctx devices mid) :
    mid.log = .saved process.pid (.fromEctx ctx) :: k.log := by
  have log := congrArg ProcessTree.log entered.tree
  have same : ∀ t : ProcessTree, (t.awoken devices.uartReady).log = t.log := by
    intro t
    unfold ProcessTree.awoken
    split <;> rfl
  rw [same] at log
  exact log

/-- What going to sleep records. -/
theorem Machine.slept_log (m : Machine) (self : Process) (channel : UInt64) (reason : BlockReason)
    (ctx : ExceptionContext) (uartReady : Bool) (suspension : Suspension) :
    (m.slept self channel reason ctx uartReady suspension).kernel.log =
      [.saved self.pid (.fromEctx ctx)] ++ m.kernel.log := by
  show _ :: (m.kernel.awakeCommonChans uartReady).log = _
  rw [Kernel.awakeCommonChans_log]
  rfl

/-- Going to sleep records the registers that the process sleeps with. -/
theorem Machine.Recorded.slept {self : Process} (runs : m.kernel.Runs m.inKernel self)
    {channel : UInt64} {reason : BlockReason} {ctx : ExceptionContext} {devices : Devices}
    {suspension : Suspension} {action : Action}
    (isSleep : action = .sleep ctx devices ∨ ∃ mutex, action = .acquire mutex ctx devices) :
    m.Recorded action (m.slept self channel reason ctx devices.uartReady suspension)
      [.saved self.pid (.fromEctx ctx)] := by
  -- The process that goes to sleep is the current one, and the frame is that of its `svc`.
  have current : m.kernel.getCurrentProcess = some self := runs.current
  have isFrame : action.frame = some ctx := by
    rcases isSleep with rfl | ⟨mutex, rfl⟩ <;> rfl
  refine ⟨m.slept_log .., fun {pid pctx} member => ?_, fun {other frame} isCurrent isOther _ => ?_,
    fun member => ?_⟩
  · rw [List.mem_singleton, Event.saved.injEq] at member
    exact ⟨self, ctx, current, member.1.symm, isFrame, member.2⟩
  · rw [current, Option.some.injEq] at isCurrent
    rw [isFrame, Option.some.injEq] at isOther
    rw [← isCurrent, ← isOther]
    exact List.mem_singleton_self _
  · cases List.mem_singleton.mp member

/-- What a step records. -/
theorem Machine.Outcome.recorded {action : Action} {result : Except Stop Machine}
    (outcome : m.Outcome files action result) (goesOn : result = .ok next) :
    ∃ new, m.Recorded action next new := by
  cases outcome with
  | @trap frame ctx devices self mid running runs fromUser stack table entered leads reports =>
    have entry := entered.log
    have current : m.kernel.getCurrentProcess = some self := runs.current
    -- Whatever the handler records comes on top of the registers that were saved.
    have onTop : ∀ (more : List Event), next.kernel.log = more ++ mid.log →
        (∀ pid pctx, .saved pid pctx ∉ more) →
        (∀ {pid pctx}, .created pid pctx ∈ more → m.kernel.findById pid = none) →
        ∃ new, m.Recorded (.trap ctx devices) next new := by
      intro more log noneSaved fresh
      refine ⟨more ++ [.saved self.pid (.fromEctx ctx)], ?_, fun {pid pctx} member => ?_,
        fun {other frame} isCurrent isFrame _ => ?_, fun {pid pctx} member => ?_⟩
      · rw [log, entry, List.append_assoc, List.singleton_append]
      · -- What is saved is the entry's own frame, which is on top of the log before the call.
        rcases List.mem_append.mp member with new | last
        · exact absurd new (noneSaved pid pctx)
        · rw [List.mem_singleton, Event.saved.injEq] at last
          exact ⟨self, ctx, current, last.1.symm, rfl, last.2⟩
      · rw [current, Option.some.injEq] at isCurrent
        cases isFrame
        exact List.mem_append_right _ (isCurrent ▸ List.mem_singleton_self _)
      · -- No other event creates anybody.
        rcases List.mem_append.mp member with new | last
        · exact fresh new
        · cases List.mem_singleton.mp last
    generalize m.kernel.handleExceptionEl1 files devices ctx = handled at goesOn reports
    have kernel := m.after_kernel goesOn
    cases reports with
    | stopped stop => cases goesOn
    | quiet after log =>
      rw [kernel, Option.some.injEq] at after
      exact onTop [] (after ▸ log) (by simp) (by simp)
    | created child isNew log =>
      cases goesOn
      refine onTop [.created child.pid child.pctx] log (by simp) fun {pid pctx} member => ?_
      rw [List.mem_singleton, Event.created.injEq] at member
      -- The child's pid is the next one, which nobody has.
      have isNext : pid = m.kernel.nextPid := by
        rw [member.1, ← entered.nextPid]
        exact isNew
      rw [isNext]
      exact find_pid_none.mpr runs.fresh
    | exited isExit tree =>
      cases goesOn
      exact onTop [.exited self.pid (ctx.x.get 0)] (congrArg ProcessTree.log tree) (by simp) (by simp)
    | @delivered _ parent isExit above waits tree =>
      cases goesOn
      exact onTop [.delivered parent.pid (parent.pctx.x.get 0) self.pid (ctx.x.get 0),
        .exited self.pid (ctx.x.get 0)]
        (congrArg ProcessTree.log tree) (by simp) (by simp)
    | @reaped _ child isWait there awaited ended tree =>
      cases goesOn
      exact onTop [.reaped self.pid (ctx.x.get 0) child.pid child.exitCode.toUInt64]
        (congrArg ProcessTree.log tree) (by simp) (by simp)
    | notFound isWait none log =>
      cases goesOn
      exact onTop [.notFound self.pid (ctx.x.get 0)] log (by simp) (by simp)
  -- A process that goes to sleep saves the frame of its own `svc`.
  | @sleep outer ctx devices self inside runs isFrame =>
    cases goesOn
    exact ⟨_, .slept runs (Or.inl rfl)⟩
  | @acquireSleeps outer ctx devices mutex retry self isMutex inside runs sought isFrame guard lock =>
    cases goesOn
    exact ⟨_, .slept runs (Or.inr ⟨mutex, rfl⟩)⟩
  | @loaded frame lockHeld slot process uartReady looping idles there ready =>
    cases goesOn
    -- Loading a process saves nothing, and no frame comes with it.
    refine ⟨[.loaded process.pid process.pctx], rfl, ?_, ?_, ?_⟩
    · simp
    · intro self ctx _ isFrame
      cases isFrame
    · simp
  | acquired isMutex inside runs sought guard lock =>
    cases goesOn
    exact ⟨[], .nothing rfl (Or.inr ⟨by simp, by simp [Machine.Returned]⟩)⟩
  | acquireFails isMutex guard => cases goesOn
  -- No call or store writes to the log.
  | released isMutex inside runs held guard lock owner =>
    cases goesOn
    exact ⟨[], .nothing rfl (Or.inl rfl)⟩
  | releaseFails isMutex runs held improper panics => cases goesOn
  | finish result inside runs =>
    cases goesOn
    exact ⟨[], .nothing rfl (Or.inl rfl)⟩
  | idle uartReady looping idles notReady blocked =>
    cases goesOn
    exact ⟨[], .nothing (Kernel.awakeCommonChans_log ..) (Or.inl rfl)⟩
  | theEnd uartReady looping idles ended => cases goesOn
  | store byte low busy =>
    cases goesOn
    exact ⟨[], .nothing (m.kernel.storeByte_same ..).log (Or.inl rfl)⟩
  | stackStore byte slot inside =>
    cases goesOn
    exact ⟨[], .nothing (m.kernel.storeByte_same ..).log (Or.inl rfl)⟩

/--
Whoever is loaded gets the registers it was last saved with, as the record has them.

The record is right: it has the frame of every exception after which a process may be switched.
No step changes the registers of a process that does not run, but to hand it the exit of a child.
-/
theorem Machine.Reachable.switchesTransparently (reached : m.Reachable files) :
    (∀ frame lockHeld uartReady k ctx, m.control = .scheduling frame lockHeld →
      m.kernel.schedulePass uartReady frame = .loaded k ctx →
      ∃ self, k.getCurrentProcess = some self ∧
        lastContext self.pid m.kernel.log = some (.fromEctx ctx)) ∧
    ∀ action next, m.Step files action (.ok next) →
      (∃ new, m.Recorded action next new) ∧
      ∀ {slot other process later}, m.kernel.processTable slot = some process →
        next.kernel.processTable other = some later → later.pid = process.pid →
        process.state ≠ .running → later.pctx = process.pctx ∨ process.Waits ∧ ∃ child code,
          later.pctx = process.pctx.deliver child code ∧
            .delivered process.pid process.target child code ∈ next.kernel.log := by
  have valid := reached.valid
  have invariant := valid.invariant
  refine ⟨fun frame lockHeld uartReady k ctx looping loaded => ?_, fun action next step => ?_⟩
  · -- What the scheduler loads is ready, and the log has its context.
    have idles := valid.scheduling looping
    rcases idles.schedulePass uartReady frame with ⟨slot, process, there, ready, result⟩ |
      ⟨-, -, result⟩ | ⟨-, result⟩
    · rw [result] at loaded
      cases loaded
      refine ⟨{ process with state := .running }, put_self .., ?_⟩
      exact invariant.faithful.saved (valid.entries_slot there) (by simp [ready]) (by simp [ready])
    · rw [result] at loaded
      cases loaded
    · rw [result] at loaded
      cases loaded
  · have outcome := step.outcome valid
    obtain ⟨validNext, turn⟩ := outcome.turn valid rfl
    refine ⟨outcome.recorded rfl, fun {slot other process later} there here pid idle => ?_⟩
    -- The entry was the process's own before the step, in whatever slot it is now.
    have found := validNext.entries_slot here
    rw [pid] at found
    refine turn.contextKept invariant (valid.entries_slot there) found fun runs => idle ?_
    exact invariant.formed.one.state runs (valid.entries_slot there)

/-- Loading the small program for the first time is recorded. -/
theorem switchesTransparently_words : ∃ m next new, Machine.Reachable wordsFiles m ∧
    m.Step wordsFiles (.schedule false) (.ok next) ∧ m.Recorded (.schedule false) next new := by
  obtain ⟨boot, booted⟩ := wordsStart_boots
  obtain ⟨_, _, _, step, -⟩ := booted.schedules
  have reached : Machine.Reachable wordsFiles boot := ⟨_, boot, booted, .refl⟩
  obtain ⟨⟨new, recorded⟩, -⟩ := reached.switchesTransparently.2 _ _ step
  exact ⟨boot, _, new, reached, step, recorded⟩

end AtOS
