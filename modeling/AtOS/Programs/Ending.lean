import AtOS.Programs.Calling
import AtOS.Programs.Init

/-! How `init` ends: a whole run of it, and that nobody is left after it. -/

namespace AtOS

open SlotTable

variable {files : String → Option (List UInt8)} {m after : Machine} {s : Hosted InitPoint}

/-- Pid 1 runs, and nobody else is there. -/
structure Machine.Lone (m : Machine) (init : Process) (size count : Nat) : Prop where
  orderly : m.Orderly size count
  running : ∃ frame, m.control = .user frame
  current : m.kernel.getCurrentProcess = some init
  pid : init.pid = 1
  parentPid : init.parentPid = 0
  entries : m.entries = Function.update (fun _ => none) 1 (some init)

/-- It stays alone when it returns from a call. -/
theorem Machine.Lone.returns {init saved : Process} {size count : Nat}
    (lone : m.Lone init size count) (orderly : after.Orderly size count)
    (returned : m.HasReturned after init saved) : after.Lone saved size count := by
  obtain ⟨pctx, same⟩ := returned.same
  have pid : saved.pid = 1 := by rw [same, ← lone.pid]
  refine ⟨orderly, returned.running, returned.current, pid, ?_, ?_⟩
  · rw [same, ← lone.parentPid]
  · rw [returned.entries, lone.entries, pid, Function.update_idem]

/-- The one that runs is pid 1. -/
theorem Machine.Lone.runs {init : Process} {size count : Nat} (lone : m.Lone init size count) :
    m.running = some 1 := by
  obtain ⟨frame, running⟩ := lone.running
  have runs := lone.orderly.valid.runs running lone.current
  rw [m.running_eq runs (by simp [running]), lone.pid]

/-- Pid 1 asks for its pid, and goes on in its program. -/
theorem Machine.Lone.asks {init : Process} {size count : Nat} (lone : m.Lone init size count)
    (loadsFresh : ∀ path bytes, files path = some bytes → LoadsFresh bytes) {point : InitPoint}
    (calls : ∀ ctx, ctx.IsSyscall 10 → point.Calls ctx) :
    ∃ next saved, next.Lone saved size count ∧ next.kernel.nextPid = m.kernel.nextPid ∧
      initProgram.Runs 1 files (Machine.ExecsWell files) ⟨m, point, false⟩
        ⟨next, point.after 1, false⟩ := by
  obtain ⟨frame, running⟩ := lone.running
  have isInfo := frame.isSyscall_calling 10 (by decide) frame.x
  obtain ⟨next, saved, goes, orderly, returned⟩ := lone.orderly.asks loadsFresh running lone.current
  obtain ⟨context, control, runs, result⟩ :=
    (goes.2.outcome lone.orderly.valid).info_trap lone.runs isInfo
  have step : initProgram.Step 1 files ⟨m, point, false⟩ _ ⟨next, point.after 1, false⟩ :=
    .call lone.runs rfl (calls _ isInfo) goes.2 (initProgram_returns point control runs result)
  exact ⟨next, saved, lone.returns orderly returned, returned.nextPid, .single ⟨_, goes.1, step⟩⟩

/-- Pid 1 forks and waits for its child, which is loaded. -/
theorem Machine.Lone.spawns {init : Process} {size count : Nat}
    (lone : m.Lone init size (count + 1))
    (loadsFresh : ∀ path bytes, files path = some bytes → LoadsFresh bytes)
    (fresh : m.kernel.nextPid = 2) : ∃ (next : Machine) (waiting child : Process),
      next.Orderly size count ∧ waiting.pid = 1 ∧ waiting.parentPid = 0 ∧ waiting.Waits ∧
      child.pid = 2 ∧ child.parentPid = 1 ∧ (∃ frame, next.control = .user frame) ∧
      next.kernel.getCurrentProcess = some child ∧
      next.entries =
        Function.update (Function.update (fun _ => none) 1 (some waiting)) 2 (some child) ∧
      initProgram.Runs 1 files (Machine.ExecsWell files) ⟨m, .fork, false⟩
        ⟨next, .waitShell 2, true⟩ := by
  obtain ⟨frame, running⟩ := lone.running
  -- It forks, and gets the pid 2.
  have isFork := frame.isSyscall_calling 4 (by decide) frame.x
  obtain ⟨forked, saved, child, goes, orderly, hasForked⟩ :=
    lone.orderly.forks_goes loadsFresh running lone.current
  -- The process is the same one, with the frame of its call saved.
  obtain ⟨pctx, same⟩ := hasForked.same
  have pidSaved : saved.pid = 1 := by rw [same, ← lone.pid]
  have parentSaved : saved.parentPid = 0 := by rw [same, ← lone.parentPid]
  have pidChild : child.pid = 2 := hasForked.pid.trans fresh
  have entriesForked := hasForked.entries
  rw [lone.entries, pidSaved, pidChild, Function.update_idem] at entriesForked
  have forkOutcome := goes.2.outcome lone.orderly.valid
  -- What the call returned is the pid of the child, which is 2.
  obtain ⟨context, born, control, runs, there, isChild, result, -⟩ :=
    forkOutcome.fork_trap lone.orderly.valid lone.runs isFork
  have isTwo : born.pid = 2 := by
    have here : forked.entries born.pid = some born := there
    rw [entriesForked, Function.update_apply, Function.update_apply] at here
    split at here
    · assumption
    · split at here
      · rw [← Option.some.inj here, parentSaved] at isChild
        cases isChild
      · cases here
  have first : initProgram.Step 1 files ⟨m, .fork, false⟩ _ ⟨forked, .waitShell 2, false⟩ :=
    .call lone.runs rfl isFork goes.2
      (initProgram_returns .fork control runs (result.trans isTwo))
  -- It waits for that, and is put aside.
  have stateSaved : saved.state = .running := (orderly.valid.runs control hasForked.current).state
  have childThere : forked.entries 2 = some child := by rw [entriesForked, Function.update_self]
  have awaited : child.isAwaited saved.pid 2 = true :=
    Process.isAwaited_iff.mpr ⟨hasForked.parent, Or.inr pidChild⟩
  obtain ⟨left, registers, waits, orderly, hasLeft, -⟩ := orderly.waits_goes loadsFresh control
    hasForked.current childThere awaited (by
      intro other second here
      rw [entriesForked, Function.update_apply, Function.update_apply] at here
      split at here
      · rw [← Option.some.inj here, hasForked.ready]
        decide
      · split at here
        · rw [← Option.some.inj here, stateSaved]
          decide
        · cases here)
  have isWait := context.isSyscall_calling 6 (by decide) (argumentRegisters 2 0 0)
  obtain ⟨loop, looping⟩ := hasLeft.looping
  have second : initProgram.Step 1 files ⟨forked, .waitShell 2, false⟩ _
      ⟨left, .waitShell 2, true⟩ :=
    .call runs rfl ⟨isWait, rfl⟩ waits.2 (.of_idle _ _ _ (by simp [Machine.running, looping]))
  -- From here the table holds the waiting init and the child.
  have entriesLeft := hasLeft.entries
  have pidWaiting : (saved.waiting registers).pid = 1 := pidSaved
  rw [entriesForked, pidWaiting, Function.update_comm (by decide), Function.update_idem]
    at entriesLeft
  -- The child is taken up.
  obtain ⟨loaded, loads, orderly, hasLoaded⟩ := orderly.schedules loadsFresh looping
    (show left.entries 2 = some child by rw [entriesLeft, Function.update_self]) hasForked.ready (by
      intro found process here isReady
      rw [entriesLeft] at here
      exact Or.inl (only_ready (by simp [Process.waiting]) found process here isReady))
  have entriesLoaded : loaded.entries = Function.update (Function.update (fun _ => none) 1
      (some (saved.waiting registers))) 2 (some { child with state := .running }) := by
    rw [hasLoaded.entries, entriesLeft]
    generalize some { child with state := ProcessState.running } = runner
    rw [pidChild, Function.update_idem]
  -- The child goes on in its program, and pid 1 is asleep meanwhile.
  obtain ⟨frameChild, runningChild⟩ := hasLoaded.running
  have runsChild := orderly.valid.runs runningChild hasLoaded.current
  have other : loaded.running ≠ some 1 := by
    rw [loaded.running_eq runsChild (by simp [runningChild])]
    show some child.pid ≠ some 1
    rw [pidChild]
    decide
  have third : initProgram.Step 1 files ⟨left, .waitShell 2, true⟩ (.schedule false)
      ⟨loaded, .waitShell 2, true⟩ :=
    .other (.scheduling false) loads.2 (.of_idle _ _ _ other)
  -- The three steps are those of `fork`, `wait` and the scheduler.
  exact ⟨loaded, saved.waiting registers, { child with state := .running }, orderly, pidSaved,
    parentSaved, ⟨rfl, rfl⟩, pidChild, hasForked.parent.trans pidSaved, ⟨_, runningChild⟩,
    hasLoaded.current, entriesLoaded,
    ((Relation.ReflTransGen.single ⟨_, goes.1, first⟩).tail ⟨_, waits.1, second⟩).tail
      ⟨_, loads.1, third⟩⟩

/-- The child exits, and pid 1 comes back from its `wait` to be alone. -/
theorem initProgram_reaps {size count : Nat} {waiting child : Process} (orderly : m.Orderly size count)
    (loadsFresh : ∀ path bytes, files path = some bytes → LoadsFresh bytes)
    (pidInit : waiting.pid = 1) (parentInit : waiting.parentPid = 0) (waits : waiting.Waits)
    (pidChild : child.pid = 2) (parentChild : child.parentPid = 1)
    {frame : ExceptionContext} (running : m.control = .user frame)
    (current : m.kernel.getCurrentProcess = some child)
    (entries : m.entries =
      Function.update (Function.update (fun _ => none) 1 (some waiting)) 2 (some child)) :
    ∃ next init, next.Lone init size 0 ∧
      initProgram.Runs 1 files (Machine.ExecsWell files) ⟨m, .waitShell 2, true⟩
        ⟨next, .waitAny, false⟩ := by
  -- The table has two entries, and the child is the one that runs.
  have known : ∀ {pid process}, m.entries pid = some process →
      (pid = 1 ∧ process = waiting) ∨ (pid = 2 ∧ process = child) := by
    intro pid process here
    rw [entries, Function.update_apply, Function.update_apply] at here
    split at here
    · exact Or.inr ⟨by assumption, (Option.some.inj here).symm⟩
    · split at here
      · exact Or.inl ⟨by assumption, (Option.some.inj here).symm⟩
      · cases here
  have isInit : m.entries 1 = some waiting := by
    rw [entries, Function.update_of_ne (by decide), Function.update_self]
  -- The child hands its exit over to pid 1.
  obtain ⟨left, exits, orderlyLeft, handedOver⟩ := orderly.exitsTo loadsFresh running current 0
    (parentChild ▸ isInit) waits (by
      intro pid process here isChild
      rw [pidChild] at isChild
      rcases known here with ⟨-, rfl⟩ | ⟨-, rfl⟩
      · rw [parentInit] at isChild
        cases isChild
      · rw [parentChild] at isChild
        cases isChild) (by
      intro pid process here isSibling
      rcases known here with ⟨-, rfl⟩ | ⟨isTwo, -⟩
      · rw [parentInit, parentChild] at isSibling
        cases isSibling
      · rw [isTwo, pidChild])
  have runsChild := orderly.valid.runs running current
  have other : m.running ≠ some 1 := by
    rw [m.running_eq runsChild (by simp [running]), pidChild]
    decide
  obtain ⟨loop, looping⟩ := handedOver.looping
  have first : initProgram.Step 1 files ⟨m, .waitShell 2, true⟩ _ ⟨left, .waitShell 2, true⟩ :=
    .other (fun _ _ _ runs _ _ => absurd runs other) exits.2
      (.of_idle _ _ _ (by simp [Machine.running, looping]))
  -- Only pid 1 is left, and it is ready.
  have alone : ∀ pid process, left.entries pid = some process → pid = 1 := by
    intro pid process here
    obtain ⟨before, there⟩ := handedOver.back pid process here
    rcases known there with ⟨isOne, -⟩ | ⟨isTwo, -⟩
    · exact isOne
    · rw [isTwo, ← pidChild, handedOver.gone] at here
      cases here
  -- The parent has been made ready with the child's pid in its first register.
  have woken := handedOver.woken
  rw [pidInit] at woken
  obtain ⟨next, loads, orderlyNext, loaded⟩ := orderlyLeft.schedules loadsFresh looping woken rfl
    fun found process here _ => Or.inl (alone found process here)
  obtain ⟨context, control⟩ := loaded.running
  have runs := orderlyNext.valid.runs control loaded.current
  have runsNext : next.running = some 1 := by
    rw [next.running_eq runs (by simp [control])]
  -- It comes back with the pid of the child.
  have rests : left.Succeeds 1 := by
    refine ⟨by simp [Machine.running, looping], by rw [orderlyLeft.awake], _, woken, ?_⟩
    rw [pidChild]
    simp [ProcessContext.deliver, ProcessContext.setX, register_eq, failure]
  -- Pid 1 is loaded, and its call succeeds, so it goes on with waiting for any child.
  have outcome := loads.2.outcome orderlyLeft.valid
  rcases outcome.succeeds orderlyLeft.valid rests ⟨_, loaded.entries ▸ Function.update_self ..⟩ with
    still | ⟨last, isUser, -, succeeds⟩
  · exact absurd runsNext still.idle
  · have result : InitPoint.after (.waitShell 2) (last.x.get 0) = .waitAny := if_neg succeeds
    have second : initProgram.Step 1 files ⟨left, .waitShell 2, true⟩ (.schedule false)
        ⟨next, .waitAny, false⟩ :=
      .other (.scheduling false) loads.2
        (result ▸ initProgram_returns (.waitShell 2) isUser runsNext rfl)
    refine ⟨next, _, ⟨orderlyNext, loaded.running, loaded.current, rfl, parentInit, ?_⟩,
      (Relation.ReflTransGen.single ⟨_, exits.1, first⟩).tail ⟨_, loads.1, second⟩⟩
    -- Its own entry is the only one left.
    rw [loaded.entries]
    funext pid
    rw [Function.update_apply, Function.update_apply]
    split
    · rfl
    · rename_i notInit
      exact Option.eq_none_iff_forall_ne_some.mpr fun process here => notInit (alone pid process here)

/-- Alone, pid 1 waits in vain, exits, and the machine comes to its end. -/
theorem Machine.Lone.ends {init : Process} {size count : Nat} (lone : m.Lone init size count)
    (loadsFresh : ∀ path bytes, files path = some bytes → LoadsFresh bytes)
    (follows : Hosted.FollowsInit ⟨m, .waitAny, false⟩) : ∃ (last : Hosted InitPoint) (k : Kernel),
      initProgram.Runs 1 files (Machine.ExecsWell files) ⟨m, .waitAny, false⟩ last ∧
      last.machine.Step files (.schedule false) (.error (.theEnd k)) := by
  obtain ⟨frame, running⟩ := lone.running
  -- There is no child, so `wait` fails.
  obtain ⟨failed, saved, waits, orderly, returned, context, control, result⟩ :=
    lone.orderly.waitsInVain loadsFresh running lone.current 0 (by
      intro pid process here isChild
      rw [lone.entries, Function.update_apply] at here
      split at here
      · rw [← Option.some.inj here, lone.parentPid, lone.pid] at isChild
        cases isChild
      · cases here)
  have isWait := frame.isSyscall_calling 6 (by decide) (argumentRegisters 0 0 0)
  have loneFailed := lone.returns orderly returned
  have first : initProgram.Step 1 files ⟨m, .waitAny, false⟩ _ ⟨failed, .exit 0, false⟩ :=
    .call lone.runs rfl ⟨isWait, rfl⟩ waits.2
      (initProgram_returns .waitAny control loneFailed.runs result)
  -- The wrapper of `exit` asks for the pid, and then pid 1 exits.
  obtain ⟨asked, known, loneAsked, -, asks⟩ := @Machine.Lone.asks _ _ _ _ _ loneFailed loadsFresh
    (.exit 0) fun _ isInfo => isInfo
  obtain ⟨frame, running⟩ := loneAsked.running
  obtain ⟨gone, mid, pctx, exits, orderlyGone, ⟨loop, looping⟩, -⟩ :=
    loneAsked.orderly.exits_goes loadsFresh running loneAsked.current 0
  have isExit := frame.isSyscall_calling 3 (by decide) (argumentRegisters 0 0 0)
  have second : initProgram.Step 1 files ⟨asked, .leave 0, false⟩ _ ⟨gone, .leave 0, true⟩ :=
    .call loneAsked.runs rfl ⟨isExit, rfl⟩ exits.2
      (.of_idle _ _ _ (by simp [Machine.running, looping]))
  have run : initProgram.Runs 1 files (Machine.ExecsWell files) ⟨m, .waitAny, false⟩
      ⟨gone, .leave 0, true⟩ :=
    ((Relation.ReflTransGen.single ⟨_, waits.1, first⟩).trans asks).tail ⟨_, exits.1, second⟩
  -- All that is left in the table is pid 1, which has exited.
  obtain ⟨-, followsGone, -⟩ := initProgram_follows run lone.orderly.valid follows
  obtain ⟨-, alone, recorded⟩ := followsGone.holds
  refine ⟨_, gone.kernel, run, orderlyGone.valid.ends looping fun pid process here => ?_⟩
  have exiting : (1 : UInt64) ∈ gone.tree.log.filterMap Event.exiting :=
    List.mem_filterMap.mpr ⟨_, recorded, rfl⟩
  have isInit := alone pid process here
  subst isInit
  exact (orderlyGone.valid.invariant.statuses.exited exiting).2 process here

/-- The small program is loaded as pid 1 and runs `init` to its end, with a child. -/
theorem wordsStart_initEnds : ∃ (boot : Machine) (last : Hosted InitPoint) (k : Kernel),
    Machine.Booted wordsFiles wordsStart boot ∧
      initProgram.Runs 1 wordsFiles (Machine.ExecsWell wordsFiles) ⟨boot, .identify, false⟩ last ∧
      last.machine.Step wordsFiles (.schedule false) (.error (.theEnd k)) := by
  -- The system boots, and init is alone in it until it forks once.
  obtain ⟨boot, m, init, frame, booted, goes, orderly, running, current, pidInit, parentInit, entries,
    nextPid⟩ := wordsStart_init 1 (by decide)
  have lone : m.Lone init 46 1 := ⟨orderly, ⟨frame, running⟩, current, pidInit, parentInit, entries⟩
  have loads : initProgram.Step 1 wordsFiles ⟨boot, .identify, false⟩ (.schedule false)
      ⟨m, .identify, false⟩ := .other (.scheduling false) goes.2 .ready
  have first : initProgram.Runs 1 wordsFiles (Machine.ExecsWell wordsFiles) ⟨boot, .identify, false⟩
      ⟨m, .identify, false⟩ := .single ⟨_, goes.1, loads⟩
  -- Init asks for its pid, forks, waits for the child and takes up the pid of its exit.
  obtain ⟨asked, known, loneAsked, samePid, asks⟩ := @Machine.Lone.asks _ _ _ _ _ lone
    wordsFiles_loadsFresh .identify fun _ isInfo => isInfo
  obtain ⟨left, waiting, child, orderlyLeft, pidWaiting, parentWaiting, waits, pidChild,
    parentChild, ⟨context, runningChild⟩, currentChild, entriesLeft, spawns⟩ :=
    loneAsked.spawns wordsFiles_loadsFresh (samePid.trans nextPid)
  obtain ⟨next, last, loneNext, reaps⟩ := initProgram_reaps orderlyLeft wordsFiles_loadsFresh
    pidWaiting parentWaiting waits pidChild parentChild runningChild currentChild entriesLeft
  have run := ((first.trans asks).trans spawns).trans reaps
  -- The whole run is followed from the boot, so its last machine is known to be one of init's.
  obtain ⟨validBoot, atStart⟩ := booted.follows
  have whole : initProgram.Runs 1 wordsFiles (Machine.ExecsWell wordsFiles)
      ⟨boot, .identify, false⟩ ⟨next, .waitAny, false⟩ := run
  obtain ⟨-, follows, -⟩ := initProgram_follows whole validBoot atStart
  -- Init waits once more, is told that there is nobody, and exits as the last process.
  obtain ⟨final, k, ends, theEnd⟩ := loneNext.ends wordsFiles_loadsFresh follows
  exact ⟨boot, final, k, booted, whole.trans ends, theEnd⟩

/--
In every run in which pid 1 runs `init`, it is the last process of all.

Its calls of `spawn` and `exit` never fail, it exits with 0, and nobody else is in the table from
the moment it decides to; the scheduler comes to its end only after that.
-/
theorem Machine.Booted.initExitsLast {start : Kernel} {boot : Machine}
    (booted : Machine.Booted files start boot)
    (run : initProgram.Runs 1 files (fun _ _ => True) ⟨boot, .identify, false⟩ s) :
    s.point ≠ .exec ∧ s.point ≠ .replaced ∧
    (∀ code, s.point = .exit code ∨ s.point = .leave code → code = 0 ∧
      ∀ slot process, s.machine.kernel.processTable slot = some process → process.pid = 1) ∧
    ∀ uartReady k, s.machine.Step files (.schedule uartReady) (.error (.theEnd k)) →
      .exited 1 0 ∈ k.log ∧ ∀ slot process, k.processTable slot = some process →
        process.pid = 1 ∧ process.state = .terminated := by
  -- The invariant that init follows its program says what it can be about to do.
  obtain ⟨validBoot, atStart⟩ := booted.follows
  obtain ⟨valid, follows, -⟩ := initProgram_follows run validBoot atStart
  have holds := follows.holds
  have onlyInit : s.machine.tree.OnlyInit → ∀ slot process,
      s.machine.kernel.processTable slot = some process → process.pid = 1 :=
    fun alone slot process there => alone _ _ (valid.entries_slot there)
  refine ⟨fun at_ => ?_, fun at_ => ?_, ?_, ?_⟩
  · rw [at_] at holds
    cases calling : s.calling <;> rw [calling] at holds <;> cases holds
  · rw [at_] at holds
    cases calling : s.calling <;> rw [calling] at holds <;> cases holds
  · -- It exits only with code 0, and only when it is alone.
    rintro code (exits | leaves)
    · rw [exits] at holds
      cases calling : s.calling <;> rw [calling] at holds
      · exact ⟨holds.1, onlyInit holds.2⟩
      · cases holds
    · rw [leaves] at holds
      cases calling : s.calling <;> rw [calling] at holds
      · exact ⟨holds.1, onlyInit holds.2⟩
      · exact ⟨holds.1, onlyInit holds.2.1⟩
  · intro uartReady k ends
    -- The system ends when all have terminated, and init has left as the last of them.
    obtain ⟨rfl, ended⟩ := (ends.outcome valid).theEnd_kernel
    obtain ⟨leaves, calling⟩ := follows.ended valid ended
    rw [leaves, calling] at holds
    exact ⟨holds.2.2, fun slot process there => ⟨onlyInit holds.2.1 slot process there,
      ended slot process there⟩⟩

/-- The small program runs `init` to its end, and is alone then. -/
theorem initExitsLast_words : ∃ (s : Hosted InitPoint) (k : Kernel),
    s.machine.Step wordsFiles (.schedule false) (.error (.theEnd k)) ∧ .exited 1 0 ∈ k.log ∧
      ∀ slot process, k.processTable slot = some process →
        process.pid = 1 ∧ process.state = .terminated := by
  obtain ⟨boot, last, k, booted, run, ends⟩ := wordsStart_initEnds
  exact ⟨last, k, ends, (booted.initExitsLast run.any).2.2.2 false k ends⟩

end AtOS
