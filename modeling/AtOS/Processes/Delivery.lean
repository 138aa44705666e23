import AtOS.Processes.Channels

/-! What `wait` returns: the exit of a child, once, or that there is no child. -/

namespace AtOS

open SlotTable

variable {files : String → Option (List UInt8)} {m next : Machine} {t mid : ProcessTree}

/-- Places that are kept twice are kept. -/
theorem ProcessTree.SamePlaces.trans {last : ProcessTree} (first : t.SamePlaces mid)
    (second : mid.SamePlaces last) : t.SamePlaces last :=
  ⟨second.nextPid.trans first.nextPid, fun pid => (second.places pid).trans (first.places pid)⟩

/-- Waking readers of the UART keeps all places. -/
theorem ProcessTree.awoken_samePlaces (t : ProcessTree) (uartReady : Bool) :
    t.SamePlaces (t.awoken uartReady) := by
  unfold ProcessTree.awoken
  split
  · exact .mapAll (Process.wakeup_place _)
  · exact ⟨rfl, fun _ => rfl⟩

/-- A prelude keeps all places. -/
theorem ProcessTree.Prelude.samePlaces (prelude : t.Prelude mid) : t.SamePlaces mid := by
  cases prelude with
  | nothing => exact ⟨rfl, fun _ => rfl⟩
  | awoken uartReady => exact t.awoken_samePlaces uartReady
  | saved runs here pctx uartReady =>
    have saved : t.SamePlaces (t.saved _ pctx) := .ofSet here rfl rfl rfl
    exact saved.trans (ProcessTree.awoken_samePlaces _ _)

/-- A process that is there after a prelude, and did not run, was there before or was woken. -/
theorem ProcessTree.Prelude.back (prelude : t.Prelude mid) {pid : UInt64} {process : Process}
    (here : mid.entries pid = some process) (idle : t.running ≠ some pid) :
    t.entries pid = some process ∨ process.state = .ready := by
  -- Waking up can only have made the process ready.
  have woken : ∀ {before : ProcessTree} {uartReady : Bool},
      (before.awoken uartReady).entries pid = some process →
      before.entries pid = some process ∨ process.state = .ready := by
    intro before uartReady found
    unfold ProcessTree.awoken at found
    split at found
    · obtain ⟨asleep, there, changed⟩ := Option.map_eq_some_iff.mp found
      unfold Process.wakeup at changed
      split at changed
      · exact Or.inr (by rw [← changed])
      · exact Or.inl (changed ▸ there)
    · exact Or.inl found
  cases prelude with
  | nothing => exact Or.inl here
  | awoken uartReady => exact woken here
  -- The saved context is the running process's, and it is not the process asked about.
  | @saved self runs _ pctx uartReady =>
    rcases woken here with found | ready
    · have distinct : pid ≠ self.pid := by
        rintro rfl
        exact idle runs
      have kept : (t.set self.pid (some { self with pctx })).entries pid = some process := found
      rw [ProcessTree.set_entries, if_neg distinct] at kept
      exact Or.inl kept
    · exact Or.inr ready

/-- Whoever is there after another process has terminated was there before, with some parent. -/
theorem ProcessTree.terminated_back {self process : Process} {code pid : UInt64}
    (found : (t.terminated self code).entries pid = some process) (distinct : pid ≠ self.pid) :
    ∃ before, t.entries pid = some before ∧ process = before.reparent self.pid 1 := by
  rw [ProcessTree.terminated_entries, if_neg distinct] at found
  obtain ⟨before, there, changed⟩ := Option.map_eq_some_iff.mp found
  exact ⟨before, there, changed.symm⟩

/-- The running process of a machine makes a system call. -/
structure Machine.Calls (m : Machine) (action : Action) (self : Process) (ctx : ExceptionContext)
    (number : Nat) : Prop where
  action : ∃ devices, action = .trap ctx devices
  current : m.kernel.getCurrentProcess = some self
  call : ctx.IsSyscall number

/-- Nobody in the table has a pid. -/
def Kernel.HasNo (k : Kernel) (pid : UInt64) : Prop :=
  ∀ slot process, k.processTable slot = some process → process.pid ≠ pid

/-- What must have happened in a step that records an event about exits. -/
def Machine.Justifies (m : Machine) (action : Action) (next : Machine) : Event → Prop
  | .exited pid code => ∃ self ctx, m.Calls action self ctx 3 ∧ self.pid = pid ∧ ctx.x.get 0 = code
  | .reaped waiter target child code => ∃ self ctx slot zombie frame,
      m.Calls action self ctx 6 ∧ self.pid = waiter ∧ ctx.x.get 0 = target ∧
      m.kernel.processTable slot = some zombie ∧ zombie.pid = child ∧
      zombie.isAwaited waiter target = true ∧ zombie.state = .terminated ∧
      .exited child code ∈ m.kernel.log ∧ next.kernel.HasNo child ∧
      next.control = .user frame ∧ frame.x.get 0 = child ∧ frame.x.get 1 = code
  | .delivered waiter target child code => ∃ self ctx slot parent other woken,
      m.Calls action self ctx 3 ∧ self.pid = child ∧ ctx.x.get 0 = code ∧
      self.isAwaited waiter target = true ∧
      m.kernel.processTable slot = some parent ∧ parent.pid = waiter ∧ parent.Waits ∧
      parent.target = target ∧ next.kernel.HasNo child ∧
      next.kernel.processTable other = some woken ∧ woken.pid = waiter ∧ woken.state = .ready ∧
      woken.pctx = parent.pctx.deliver child code
  | .notFound waiter target => ∃ self ctx frame, m.Calls action self ctx 6 ∧ self.pid = waiter ∧
      ctx.x.get 0 = target ∧ next.control = .user frame ∧ frame.x.get 0 = failure ∧
      ∀ slot child, m.kernel.processTable slot = some child → child.isAwaited waiter target = false
  | _ => True

/-- The registers that `wait` returns its results in. -/
theorem ExceptionContext.setX_results (ctx : ExceptionContext) (child code : UInt64) :
    ((ctx.setX 0 child).setX 1 code).x.get 0 = child ∧
      ((ctx.setX 0 child).setX 1 code).x.get 1 = code := by
  simp [ExceptionContext.setX, register_eq]

/-- A tree that has nothing under a pid stands for a table without it. -/
theorem Machine.Valid.hasNo (valid : m.Valid) {pid : UInt64} (gone : m.tree.entries pid = none) :
    m.kernel.HasNo pid := by
  rintro slot process there rfl
  rw [valid.entries_slot there] at gone
  cases gone

/-- The prelude of an exception of a program, in terms of the machine. -/
theorem Machine.prelude_entered {self : Process} {ctx : ExceptionContext} {devices : Devices}
    {k : Kernel} {frame : ExceptionContext} (running : m.control = .user frame)
    (runs : m.kernel.Runs m.inKernel self) (entered : m.kernel.Entered m.inKernel self ctx devices k) :
    m.tree.Prelude (k.tree m.inKernel (some self.pid)) := by
  rw [m.tree_runs runs (by simp [running]), entered.tree]
  exact .saved rfl runs.here _ _

section Trap

variable {self : Process} {ctx frame : ExceptionContext} {devices : Devices} {k : Kernel}

/-- The child that `wait` finds was there before the exception. -/
theorem Machine.reaped_before (valid : m.Valid) (running : m.control = .user frame)
    (runs : m.kernel.Runs m.inKernel self) (entered : m.kernel.Entered m.inKernel self ctx devices k)
    {child : Process} (there : (k.tree m.inKernel (some self.pid)).entries child.pid = some child)
    (ended : child.state = .terminated) :
    m.tree.entries child.pid = some child ∧
      .exited child.pid child.exitCode.toUInt64 ∈ m.kernel.log := by
  -- The child has terminated, so it is not the running process.
  have runsNow : m.tree.running = some self.pid := m.running_eq runs (by simp [running])
  have other : child.pid ≠ self.pid := by
    intro same
    have here : (k.tree m.inKernel (some self.pid)).entries self.pid =
        some { self with pctx := .fromEctx ctx } := entered.runs.here
    rw [same, here, Option.some.injEq] at there
    rw [← there, show _ = self.state from rfl, runs.state] at ended
    cases ended
  have idle : m.tree.running ≠ some child.pid := by
    rw [runsNow, ne_eq, Option.some.injEq]
    exact other.symm
  -- The prelude can only make a process ready, and the child is not.
  have before : m.tree.entries child.pid = some child := by
    rcases (m.prelude_entered running runs entered).back there idle with found | ready
    · exact found
    · rw [ended] at ready
      cases ready
  exact ⟨before, valid.invariant.statuses.code before ended⟩

/-- The parent that is handed an exit waited before the exception. -/
theorem Machine.delivered_before (running : m.control = .user frame)
    (runs : m.kernel.Runs m.inKernel self) (entered : m.kernel.Entered m.inKernel self ctx devices k)
    {parent : Process} {code : UInt64}
    (above : ((k.tree m.inKernel (some self.pid)).terminated
      { self with pctx := .fromEctx ctx } code).entries self.parentPid = some parent)
    (waits : parent.IsWaitingFor self.pid) :
    ∃ before, m.tree.entries self.parentPid = some before ∧ before.Waits ∧
      before.pctx = parent.pctx ∧ parent.pid = self.parentPid := by
  have runsNow : m.tree.running = some self.pid := m.running_eq runs (by simp [running])
  -- A process is never its own parent.
  have other : self.parentPid ≠ self.pid := runs.invariant.formed.rooted.parent_ne runs.here
  obtain ⟨before, there, rfl⟩ := ProcessTree.terminated_back above other
  have pid := entered.runs.invariant.formed.rooted.key there
  have blocked := waits.blocked
  have reason := waits.reason
  rw [Process.reparent_eq] at blocked reason
  have idle : m.tree.running ≠ some self.parentPid := by
    rw [runsNow, ne_eq, Option.some.injEq]
    exact other.symm
  -- The parent waits, so it is not ready and the prelude left it alone.
  refine ⟨before, ?_, ⟨blocked, reason⟩, ?_, ?_⟩
  · rcases (m.prelude_entered running runs entered).back there idle with found | ready
    · exact found
    · rw [ready] at blocked
      cases blocked
  · rw [Process.reparent_eq]
  · rw [Process.reparent_pid, pid]

end Trap

/-- What a step records about exits has happened in it. -/
theorem Machine.Outcome.justified {action : Action} {result : Except Stop Machine}
    (outcome : m.Outcome files action result) (valid : m.Valid) (goesOn : result = .ok next) :
    ∃ new, next.kernel.log = new ++ m.kernel.log ∧ ∀ event ∈ new, m.Justifies action next event := by
  have validNext := (outcome.turn valid goesOn).1
  -- A step that writes nothing has nothing to justify.
  have nothing : next.kernel.log = m.kernel.log → ∃ new, next.kernel.log = new ++ m.kernel.log ∧
      ∀ event ∈ new, m.Justifies action next event :=
    fun log => ⟨[], log, fun event member => by cases member⟩
  cases outcome with
  | @trap frame ctx devices self mid running runs fromUser stack table entered leads reports =>
    -- Every trap first writes the context it saves, which needs no justification.
    have onTop : ∀ more : List Event, next.kernel.log = more ++ mid.log →
        (∀ event ∈ more, m.Justifies (.trap ctx devices) next event) →
        ∃ new, next.kernel.log = new ++ m.kernel.log ∧
          ∀ event ∈ new, m.Justifies (.trap ctx devices) next event := by
      intro more log justified
      refine ⟨more ++ [.saved self.pid (.fromEctx ctx)], ?_, fun event member => ?_⟩
      · rw [log, entered.log, List.append_assoc, List.singleton_append]
      · rcases List.mem_append.mp member with new | last
        · exact justified event new
        · rw [List.mem_singleton.mp last]
          exact trivial
    have calls : ∀ {number}, ctx.IsSyscall number →
        m.Calls (.trap ctx devices) self ctx number :=
      fun call => ⟨⟨devices, rfl⟩, runs.current, call⟩
    generalize m.kernel.handleExceptionEl1 files devices ctx = handled at goesOn reports
    have kernel := m.after_kernel goesOn
    -- What else the log gets is decided by the call.
    cases reports with
    | stopped stop => cases goesOn
    | quiet after log =>
      rw [kernel, Option.some.injEq] at after
      exact onTop [] (after ▸ log) (by simp)
    | created child isNew log =>
      cases goesOn
      refine onTop [.created child.pid child.pctx] log fun event member => ?_
      rw [List.mem_singleton.mp member]
      exact trivial
    | exited isExit tree =>
      cases goesOn
      refine onTop [.exited self.pid (ctx.x.get 0)] (congrArg ProcessTree.log tree)
        fun event member => ?_
      rw [List.mem_singleton.mp member]
      exact ⟨self, ctx, calls isExit, rfl, rfl⟩
    | @delivered after parent isExit above waits tree =>
      cases goesOn
      -- The parent was waiting before the exception, and its context names the child.
      obtain ⟨before, found, waited, context, pid⟩ :=
        m.delivered_before running runs entered above waits
      obtain ⟨slot, there, beforePid⟩ := Machine.slot_of_entries found
      have entries := congrArg ProcessTree.entries tree
      have notSelf : parent.pid ≠ self.pid :=
        pid ▸ runs.invariant.formed.rooted.parent_ne runs.here
      -- The child's entry is gone and the parent's is ready, with the two results in it.
      have gone : entriesOf after.processTable self.pid = none := by
        rw [show entriesOf after.processTable = _ from entries, ProcessTree.delivered_entries,
          if_pos rfl]
      have woken : entriesOf after.processTable parent.pid = some
          { parent with state := .ready, pctx := parent.pctx.deliver self.pid (ctx.x.get 0) } := by
        rw [show entriesOf after.processTable = _ from entries, ProcessTree.delivered_entries,
          if_neg notSelf, if_pos rfl]
      obtain ⟨other, wokenThere, wokenPid⟩ := slot_of_entriesOf woken
      refine onTop [.delivered parent.pid (parent.pctx.x.get 0) self.pid (ctx.x.get 0),
        .exited self.pid (ctx.x.get 0)] (congrArg ProcessTree.log tree) fun event member => ?_
      -- The log gets the exit and the delivery, in that order.
      rcases List.mem_cons.mp member with rfl | last
      · refine ⟨self, ctx, slot, before, other, _, calls isExit, rfl, rfl, ?_, there,
          beforePid.trans pid.symm, waited, ?_, validNext.hasNo gone, wokenThere, wokenPid, rfl, ?_⟩
        · exact Process.isAwaited_iff.mpr ⟨pid.symm, waits.target⟩
        · rw [Process.target, context]
        · rw [context]
      · rw [List.mem_singleton.mp last]
        exact ⟨self, ctx, calls isExit, rfl, rfl⟩
    | @reaped after child isWait there awaited ended tree =>
      cases goesOn
      -- The child had terminated and its exit was in the log before the exception.
      obtain ⟨before, exited⟩ := m.reaped_before valid running runs entered there ended
      obtain ⟨slot, inSlot, -⟩ := Machine.slot_of_entries before
      have gone : entriesOf after.processTable child.pid = none := by
        rw [show entriesOf after.processTable = _ from congrArg ProcessTree.entries tree]
        exact Function.update_self ..
      refine onTop [.reaped self.pid (ctx.x.get 0) child.pid child.exitCode.toUInt64]
        (congrArg ProcessTree.log tree) fun event member => ?_
      rw [List.mem_singleton.mp member]
      obtain ⟨first, second⟩ := ctx.setX_results child.pid child.exitCode.toUInt64
      -- The caller has the child's pid and exit code in its first two registers.
      exact ⟨self, ctx, slot, child, _, calls isWait, rfl, rfl, inSlot, rfl, awaited, ended, exited,
        validNext.hasNo gone, rfl, first, second⟩
    | @notFound after isWait none log =>
      cases goesOn
      refine onTop [.notFound self.pid (ctx.x.get 0)] log fun event member => ?_
      rw [List.mem_singleton.mp member]
      refine ⟨self, ctx, _, calls isWait, rfl, rfl, rfl, ?_, fun slot child there => ?_⟩
      · simp [ExceptionContext.setX, register_eq]
      · -- A child in the table is still one after the prelude, which keeps all places.
        obtain ⟨later, found, place⟩ := (m.prelude_entered running runs entered).samePlaces.symm.back
          (valid.entries_slot there)
        have notAwaited := none _ later found
        obtain ⟨pid, parent, -⟩ := Process.place_eq.mp place
        rw [Process.isAwaited, pid, parent]
        exact notAwaited
  -- A process that goes to sleep in the kernel writes the context it is suspended with.
  | @sleep outer ctx devices self inside runs isFrame =>
    cases goesOn
    refine ⟨_, m.slept_log .., fun event member => ?_⟩
    rw [List.mem_singleton.mp member]
    exact trivial
  | @acquireSleeps outer ctx devices mutex retry self isMutex inside runs sought isFrame guard lock =>
    cases goesOn
    refine ⟨_, m.slept_log .., fun event member => ?_⟩
    rw [List.mem_singleton.mp member]
    exact trivial
  -- Loading a process writes the context it goes on with.
  | @loaded frame lockHeld slot process uartReady looping idles there ready =>
    cases goesOn
    refine ⟨[.loaded process.pid process.pctx], rfl, fun event member => ?_⟩
    rw [List.mem_singleton.mp member]
    exact trivial
  | acquired isMutex inside runs sought guard lock =>
    cases goesOn
    exact nothing rfl
  | acquireFails isMutex guard => cases goesOn
  | released isMutex inside runs held guard lock owner =>
    cases goesOn
    exact nothing rfl
  | releaseFails isMutex runs held improper panics => cases goesOn
  | finish result inside runs =>
    cases goesOn
    exact nothing rfl
  | idle uartReady looping idles notReady blocked =>
    cases goesOn
    exact nothing (Kernel.awakeCommonChans_log ..)
  | theEnd uartReady looping idles ended => cases goesOn
  | store byte low busy =>
    cases goesOn
    exact nothing (m.kernel.storeByte_same ..).log
  -- A store changes memory only, and no store writes the log.
  | stackStore byte slot inside =>
    cases goesOn
    exact nothing (m.kernel.storeByte_same ..).log

/-- Waking up passes over whoever waits for a child, since it has no channel. -/
theorem Process.Waits.wakeup_eq {process : Process} {inKernel : Bool} (waits : process.Waits)
    (proper : process.BlocksProperly inKernel) {channel : UInt64} (notZero : channel ≠ 0) :
    process.wakeup channel = process := by
  have outside : inKernel = false := (proper.reason waits.blocked).mp waits.reason
  have noChannel : process.chan = 0 := by
    by_contra channel
    have inside := (proper.channel.mp channel).2
    rw [outside] at inside
    cases inside
  rw [Process.wakeup, if_neg]
  rintro ⟨-, same⟩
  exact notZero (same.symm.trans noChannel)

/-- Whoever waits goes on waiting, unless the process that runs exits and hands that to it. -/
theorem ProcessTree.Move.waits_kept {after : ProcessTree} (move : t.Move after)
    (invariant : t.Invariant) {pid : UInt64} {process later : Process}
    (there : t.entries pid = some process) (here : after.entries pid = some later)
    (waits : process.Waits) : later.Waits ∨ ∃ child code,
      .delivered pid process.target child code ∈ after.log ∧ t.running = some child := by
  have formed := invariant.formed
  -- Whoever waits does not run.
  have other : ∀ {changed : Process}, t.running = some changed.pid → pid ≠ changed.pid := by
    rintro changed runs rfl
    have state := (formed.one.running there).mpr runs
    rw [waits.blocked] at state
    cases state
  -- An entry that is not this one's leaves it waiting.
  have kept : ∀ {changed : UInt64} {value : Option Process}, pid ≠ changed →
      (Function.update t.entries changed value) pid = some later → later.Waits := by
    intro changed value distinct found
    rw [Function.update_of_ne distinct, there, Option.some.injEq] at found
    exact found ▸ waits
  -- An exit of another process changes this one's parent at most.
  have reparented : ∀ {self : Process} {code : UInt64} {later : Process}, pid ≠ self.pid →
      (t.terminated self code).entries pid = some later → later.Waits := by
    intro self code later distinct found
    obtain ⟨before, foundBefore, rfl⟩ := ProcessTree.terminated_back found distinct
    rw [there, Option.some.injEq] at foundBefore
    rw [← foundBefore, Process.reparent_eq]
    exact ⟨waits.blocked, waits.reason⟩
  cases move with
  | save runs _ pctx => exact Or.inl (kept (other runs) here)
  | @wakeup channel proper =>
    -- A wakeup does not reach a process that waits for a child, since it has no channel.
    rw [ProcessTree.mapAll_entries, there, Option.map_some, Option.some.injEq,
      waits.wakeup_eq (invariant.blocking.proper there) proper] at here
    exact Or.inl (here ▸ waits)
  | preempt runs _ saved => exact Or.inl (kept (other runs) here)
  | exec runs _ pctx name => exact Or.inl (kept (other runs) here)
  | @fork self child runs _ room childPid parent ready awake =>
    -- The child's pid is the next one, and this process is in the tree already.
    refine Or.inl (kept ?_ here)
    have below := formed.rooted.below there
    rintro rfl
    rw [childPid] at below
    exact absurd below (Nat.lt_irrefl _)
  | exit runs _ code unheard => exact Or.inl (reparented (other runs) here)
  | @exitDelivered self parent runs selfHere code above isWaiting =>
    -- The exit settles the parent's wait, and here the process is that parent.
    rw [ProcessTree.delivered_entries, if_neg (other runs)] at here
    split at here
    · rename_i isParent
      have pid := (formed.rooted.terminated selfHere code).key above
      have found := isParent.trans pid ▸ above
      -- The parent waits for the target it had before, since an exit does not change that.
      obtain ⟨before, foundBefore, rfl⟩ := ProcessTree.terminated_back found (other runs)
      rw [there, Option.some.injEq] at foundBefore
      subst foundBefore
      refine Or.inr ⟨self.pid, code, ?_, runs⟩
      have context : (process.reparent self.pid 1).pctx = process.pctx := by
        rw [Process.reparent_eq]
      rw [isParent, Process.target, ← context]
      exact List.mem_cons_self
    · exact Or.inl (reparented (other runs) here)
  | @reap self child runs _ target childThere awaited ended =>
    rw [show _ = (t.set child.pid none).entries from rfl, ProcessTree.set_entries] at here
    split at here
    · cases here
    · rw [there, Option.some.injEq] at here
      exact Or.inl (here ▸ waits)
  | notFound runs _ target none =>
    rw [show _ = t.entries from rfl, there, Option.some.injEq] at here
    exact Or.inl (here ▸ waits)
  -- Whoever starts to wait was running, so it is not this process.
  | await runs _ saved childThere awaited alive => exact Or.inl (kept (other runs) here)
  | sleep runs _ proper reason pctx => exact Or.inl (kept (other runs) here)
  | @load self nobody selfHere ready =>
    -- A process that is loaded is ready, and this one waits.
    refine Or.inl (kept ?_ here)
    rintro rfl
    rw [there, Option.some.injEq] at selfHere
    rw [← selfHere, waits.blocked] at ready
    cases ready

/-- A prelude leaves whoever waits as it is. -/
theorem ProcessTree.Prelude.waits_kept (prelude : t.Prelude mid) (invariant : t.Invariant)
    {pid : UInt64} {process : Process} (there : t.entries pid = some process)
    (waits : process.Waits) : mid.entries pid = some process := by
  have proper := invariant.blocking.proper there
  -- Waking up does not reach a process that waits for a child.
  have woken : ∀ {before : ProcessTree} (uartReady : Bool), before.entries pid = some process →
      (before.awoken uartReady).entries pid = some process := by
    intro before uartReady found
    unfold ProcessTree.awoken
    split
    · rw [ProcessTree.mapAll_entries, found, Option.map_some, waits.wakeup_eq proper (by decide)]
    · exact found
  cases prelude with
  | nothing => exact there
  | awoken uartReady => exact woken uartReady there
  | @saved self runs _ pctx uartReady =>
    -- The saved context is the running process's, and this one waits.
    have distinct : pid ≠ self.pid := by
      rintro rfl
      have state := (invariant.formed.one.running there).mpr runs
      rw [waits.blocked] at state
      cases state
    apply woken uartReady
    show (t.set self.pid _).entries pid = some process
    rw [ProcessTree.set_entries, if_neg distinct, there]

/-- Whoever waits goes on waiting through a step, unless it is handed the exit of a child in it. -/
theorem ProcessTree.Turn.waits_kept {after : ProcessTree} (turn : t.Turn after)
    (invariant : t.Invariant) {pid : UInt64} {process later : Process}
    (there : t.entries pid = some process) (here : after.entries pid = some later)
    (waits : process.Waits) : later.Waits ∨ ∃ child code,
      .delivered pid process.target child code ∈ after.log ∧ t.running = some child := by
  cases turn with
  | rest prelude =>
    rw [prelude.waits_kept invariant there waits, Option.some.injEq] at here
    exact Or.inl (here ▸ waits)
  | move prelude move =>
    rw [← prelude.running]
    exact move.waits_kept (prelude.invariant invariant) (prelude.waits_kept invariant there waits)
      here waits

/-- The results of `wait`, as a step records them. -/
structure Machine.Settles (m : Machine) (action : Action) (next : Machine) (new : List Event) :
    Prop where
  log : next.kernel.log = new ++ m.kernel.log
  justified : ∀ event ∈ new, m.Justifies action next event
  /-- A call that returns at once has found no child, or reports the exit of one. -/
  returns : ∀ {self ctx frame}, m.Calls action self ctx 6 → next.control = .user frame →
    (frame.x.get 0 = failure ↔ ∀ slot child, m.kernel.processTable slot = some child →
      child.isAwaited self.pid (ctx.x.get 0) = false) ∧
    (frame.x.get 0 ≠ failure → .reaped self.pid (ctx.x.get 0) (frame.x.get 0) (frame.x.get 1) ∈ new)
  /-- A call that has blocked ends when an exit is handed to it. -/
  wakes : ∀ {slot other process later}, m.kernel.processTable slot = some process →
    next.kernel.processTable other = some later → later.pid = process.pid → process.Waits →
    later.Waits ∨ ∃ child code, .delivered process.pid process.target child code ∈ new

/-- Nobody has the pid that stands for failure. -/
theorem ProcessTree.Rooted.pid_ne_failure (rooted : t.Rooted) {pid : UInt64} {process : Process}
    (here : t.entries pid = some process) : pid ≠ failure := by
  have below := rooted.below here
  have bound := t.nextPid.toNat_lt
  rintro rfl
  have most : failure.toNat = 2 ^ 64 - 1 := rfl
  omega

/-- An exception keeps whether there is a child that `wait` looks for. -/
theorem Machine.awaited_before {self : Process} {ctx frame : ExceptionContext} {devices : Devices}
    {k : Kernel} (valid : m.Valid) (running : m.control = .user frame)
    (runs : m.kernel.Runs m.inKernel self) (entered : m.kernel.Entered m.inKernel self ctx devices k)
    (target : UInt64) :
    (∀ slot child, m.kernel.processTable slot = some child →
      child.isAwaited self.pid target = false) ↔
    ∀ slot child, k.processTable slot = some child → child.isAwaited self.pid target = false := by
  -- The prelude moves nobody to another pid, parent or slot, so both tables answer alike.
  have places := (m.prelude_entered running runs entered).samePlaces
  constructor
  · intro none slot child there
    obtain ⟨before, found, place⟩ := places.back (entered.runs.distinct.entriesOf_slot there)
    obtain ⟨other, inSlot, -⟩ := Machine.slot_of_entries found
    obtain ⟨pid, parent, -⟩ := Process.place_eq.mp place
    have notAwaited := none other before inSlot
    rwa [Process.isAwaited, ← pid, ← parent] at notAwaited
  · intro none slot child there
    obtain ⟨later, found, place⟩ := places.symm.back (valid.entries_slot there)
    obtain ⟨other, inSlot, -⟩ := slot_of_entriesOf found
    obtain ⟨pid, parent, -⟩ := Process.place_eq.mp place
    have notAwaited := none other later inSlot
    rwa [Process.isAwaited, ← pid, ← parent] at notAwaited

/-- What a call of `wait` returns at once. -/
theorem Machine.Outcome.waitReturns {action : Action} {new : List Event}
    (outcome : m.Outcome files action (.ok next)) (valid : m.Valid)
    (log : next.kernel.log = new ++ m.kernel.log) {self : Process} {ctx frame : ExceptionContext}
    (calls : m.Calls action self ctx 6) (returned : next.control = .user frame) :
    (frame.x.get 0 = failure ↔ ∀ slot child, m.kernel.processTable slot = some child →
      child.isAwaited self.pid (ctx.x.get 0) = false) ∧
    (frame.x.get 0 ≠ failure → .reaped self.pid (ctx.x.get 0) (frame.x.get 0) (frame.x.get 1) ∈ new) := by
  -- `wait` is an exception, so every other kind of step is out of the question.
  obtain ⟨⟨devices, isTrap⟩, current, isWait⟩ := calls
  generalize goesOn : (.ok next : Except Stop Machine) = result at outcome
  cases outcome with
  | @trap before ctx' devices' process mid running runs fromUser stack table entered leads reports =>
    cases isTrap
    have same : m.kernel.getCurrentProcess = some process := runs.current
    rw [current, Option.some.injEq] at same
    subst same
    obtain ⟨k, -, entered, ⟨-, call⟩ | ⟨notSyscall, -⟩⟩ :=
      -- The call reaches `sys_wait`, in the kernel the prelude left.
      runs.handleExceptionEl1_cases files devices fromUser
    · have waitCall : k.handleSyscall files ctx = k.sysWait ctx := by
        unfold Kernel.handleSyscall
        rw [isWait.immediate]
        rfl
      rw [call, waitCall] at goesOn
      have before := m.awaited_before valid running runs entered (ctx.x.get 0)
      have x0 : (ctx.setX 0 failure).x.get 0 = failure := by simp [ExceptionContext.setX, register_eq]
      rcases entered.runs.sysWait_cases ctx with ⟨slot, child, there, isChild, ended, result⟩ |
        ⟨none, result⟩ | ⟨slot, child, there, isChild, alive, result⟩
      · -- A child is returned. Its pid is not the failure value, and the log has the event.
        rw [result] at goesOn
        cases goesOn
        cases returned
        obtain ⟨first, second⟩ := ctx.setX_results child.pid child.exitCode.toUInt64
        have notFailure := entered.runs.invariant.formed.rooted.pid_ne_failure
          (entered.runs.distinct.entriesOf_slot there)
        rw [first, second]
        refine ⟨⟨fun fails => absurd fails notFailure, fun none => ?_⟩, fun _ => ?_⟩
        · have notAwaited := before.mp none slot child there
          have awaited : child.isAwaited self.pid (ctx.x.get 0) = true := isChild
          rw [notAwaited] at awaited
          cases awaited
        · have added : [.reaped self.pid (ctx.x.get 0) child.pid child.exitCode.toUInt64,
              .saved self.pid (.fromEctx ctx)] ++ m.kernel.log = new ++ m.kernel.log := by
            rw [← log]
            show Event.reaped .. :: (.saved self.pid (.fromEctx ctx) :: m.kernel.log) = _
            rw [← entered.log]
            rfl
          rw [← List.append_cancel_right added]
          exact List.mem_cons_self
      · -- The failure value is returned when nobody matched, before as after the prelude.
        rw [result] at goesOn
        cases goesOn
        cases returned
        rw [x0]
        exact ⟨⟨fun _ => before.mpr none, fun _ => rfl⟩, fun fails => absurd rfl fails⟩
      · -- The caller goes to sleep, so it does not return.
        rw [result] at goesOn
        cases goesOn
        cases returned
    · rw [isWait.immediate] at notSyscall
      exact absurd isWait notSyscall
  | acquireFails isMutex guard => cases isTrap
  | releaseFails isMutex runs held improper panics => cases isTrap
  | theEnd uartReady looping idles ended => cases isTrap
  | sleep inside runs isFrame => cases isTrap
  | acquired isMutex inside runs sought guard lock => cases isTrap
  | acquireSleeps isMutex inside runs sought isFrame guard lock => cases isTrap
  | released isMutex inside runs held guard lock owner => cases isTrap
  | finish result inside runs => cases isTrap
  | loaded uartReady looping idles there ready => cases isTrap
  | idle uartReady looping idles notReady blocked => cases isTrap
  | store byte low busy => cases isTrap
  | stackStore byte slot inside => cases isTrap

/-- Every step settles what it records. -/
theorem Machine.Outcome.settles {action : Action} (outcome : m.Outcome files action (.ok next))
    (valid : m.Valid) : ∃ new, m.Settles action next new := by
  obtain ⟨new, log, justified⟩ := outcome.justified valid rfl
  obtain ⟨validNext, turn⟩ := outcome.turn valid rfl
  have invariant := valid.invariant
  -- What is left is what happens to a process that waited before the step.
  refine ⟨new, log, justified, outcome.waitReturns valid log, ?_⟩
  intro slot other process later there here pid waits
  have found := validNext.entries_slot here
  rw [pid] at found
  rcases turn.waits_kept invariant (valid.entries_slot there) found waits with still |
    ⟨child, code, delivered, runs⟩
  · exact Or.inl still
  · refine Or.inr ⟨child, code, ?_⟩
    have member : Event.delivered process.pid process.target child code ∈ new ++ m.kernel.log :=
      log ▸ delivered
    rcases List.mem_append.mp member with isNew | old
    · exact isNew
    · -- An exit that was reported before is that of a process which is gone.
      have settled : child ∈ m.tree.log.filterMap Event.settled :=
        List.mem_filterMap.mpr ⟨_, old, rfl⟩
      obtain ⟨running, present⟩ := invariant.formed.one.present runs
      rw [(invariant.statuses.gone settled).1] at present
      cases present

end AtOS
