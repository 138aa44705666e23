import AtOS.Processes.RoundRobin
import AtOS.Resources.Affording

/-! What programs can do while resources last: fork, wait, use up their time slices, and exit. -/

namespace AtOS

open SlotTable

variable {files : String → Option (List UInt8)} {m next : Machine} {k mid : Kernel}
  {self child : Process} {ctx frame : ExceptionContext} {devices : Devices} {size count : Nat}
  {lockHeld : Bool}

/-- Processes own what they hold, nobody sleeps inside the kernel, and some forks can be afforded. -/
structure Machine.Orderly (m : Machine) (size count : Nat) : Prop where
  valid : m.Valid
  owned : ∃ roots free managed, m.Owns roots free managed
  awake : m.suspended = fun _ => none
  affords : m.kernel.Affords size count

/-- The processes by their pids. -/
def Machine.entries (m : Machine) : UInt64 → Option Process := entriesOf m.kernel.processTable

/-- The program that runs is that of the current process. -/
theorem Machine.Valid.runs (valid : m.Valid) (running : m.control = .user frame)
    (current : m.kernel.getCurrentProcess = some self) : m.kernel.Runs m.inKernel self := by
  obtain ⟨process, runs⟩ := valid.user running
  have same : m.kernel.getCurrentProcess = some process := runs.current
  rw [current, Option.some.injEq] at same
  rwa [same]

/-- A step of a machine that goes on, in which no `exec` fails. -/
def Machine.Goes (files : String → Option (List UInt8)) (m : Machine) (action : Action)
    (next : Machine) : Prop :=
  m.ExecsWell files action ∧ m.Step files action (.ok next)

/-- A step that goes on is a run of one step. -/
theorem Machine.Goes.run {action : Action} (goes : m.Goes files action next) :
    Machine.Runs files (Machine.ExecsWell files) m next :=
  .single ⟨action, goes⟩

/-- A process has forked: its registers are saved, and it has a child that is ready. -/
structure Machine.HasForked (m next : Machine) (process saved child : Process) : Prop where
  running : ∃ context, next.control = .user context
  same : ∃ pctx, saved = { process with pctx }
  current : next.kernel.getCurrentProcess = some saved
  entries : next.entries =
    Function.update (Function.update m.entries saved.pid (some saved)) child.pid (some child)
  pid : child.pid = m.kernel.nextPid
  parent : child.parentPid = saved.pid
  ready : child.state = .ready
  nextPid : next.kernel.nextPid = m.kernel.nextPid + 1

/-- A process has left the CPU to the scheduler, with a new entry. -/
structure Machine.HasLeft (m next : Machine) (changed : Process) (lockHeld : Bool) : Prop where
  looping : ∃ context, next.control = .scheduling context lockHeld
  current : next.kernel.getCurrentProcess = some changed
  entries : next.entries = Function.update m.entries changed.pid (some changed)
  nextPid : next.kernel.nextPid = m.kernel.nextPid

/-- The scheduler has taken up a process. -/
structure Machine.HasLoaded (m next : Machine) (process : Process) : Prop where
  running : ∃ context, next.control = .user context
  current : next.kernel.getCurrentProcess = some { process with state := .running }
  entries : next.entries =
    Function.update m.entries process.pid (some { process with state := .running })
  nextPid : next.kernel.nextPid = m.kernel.nextPid
  resources : next.kernel.resources = m.kernel.resources
  holding : next.control.frame.holding = process.pctx.holding

/-- A step that is no `exec` lets none fail. -/
theorem Machine.execsWell_other {action : Action}
    (other : ∀ ctx devices, action = .trap ctx devices → ¬ ctx.IsSyscall 5) :
    m.ExecsWell files action :=
  fun isTrap _ _ _ _ _ _ isExec => absurd isExec (other _ _ isTrap)

/-- A call of a number other than that of `exec` lets no `exec` fail. -/
theorem ExceptionContext.IsSyscall.execsWell {number : Nat} (isSyscall : ctx.IsSyscall number)
    (other : number ≠ 5) (devices : Devices) : m.ExecsWell files (.trap ctx devices) := by
  refine Machine.execsWell_other fun asked devices same isExec => ?_
  cases same
  exact other (isSyscall.unique isExec)

/-- A machine goes on orderly if its step is no `exec`, and leaves nobody asleep. -/
theorem Machine.Orderly.step {action : Action} {left : Nat} (orderly : m.Orderly size count)
    (loadsFresh : ∀ path bytes, files path = some bytes → LoadsFresh bytes)
    (step : m.Step files action (.ok next)) (execsWell : m.ExecsWell files action)
    (awake : next.suspended = fun _ => none) (affords : next.kernel.Affords size left) :
    next.Orderly size left := by
  obtain ⟨roots, free, managed, owns⟩ := orderly.owned
  have outcome := step.outcome orderly.valid
  obtain ⟨rootsAfter, freeAfter, ownsAfter⟩ :=
    outcome.owns orderly.valid loadsFresh execsWell owns
  exact ⟨(outcome.turn orderly.valid rfl).1, ⟨rootsAfter, freeAfter, managed, ownsAfter⟩, awake,
    affords⟩

/-- What the handler of an exception finds in an orderly machine without input. -/
structure Machine.Finds (m : Machine) (mid : Kernel) (process : Process) (ctx : ExceptionContext)
    (size count : Nat) : Prop where
  runs : mid.Runs m.inKernel { process with pctx := .fromEctx ctx }
  owned : ∃ roots free managed stack, mid.resources.Sound roots free managed ∧
    mid.OnTop { process with pctx := .fromEctx ctx } stack
  affords : mid.Affords size count
  entries : entriesOf mid.processTable =
    Function.update m.entries process.pid (some { process with pctx := .fromEctx ctx })
  nextPid : mid.nextPid = m.kernel.nextPid

/-- The handler of an exception finds the registers of the process saved, and all else as before. -/
theorem Machine.Orderly.finds (orderly : m.Orderly size count) {handled : Handled}
    (current : m.kernel.getCurrentProcess = some self) (quiet : devices.uartReady = false)
    {process : Process} (traps : m.Traps files process ctx devices mid handled) :
    process = self ∧ m.Finds mid self ctx size count := by
  have same : m.kernel.getCurrentProcess = some process := traps.runs.current
  rw [current, Option.some.injEq] at same
  subst same
  obtain ⟨roots, free, managed, owns⟩ := orderly.owned
  obtain ⟨freed, sound, -⟩ := traps.sound owns
  obtain ⟨stack, onTop⟩ := traps.onTop owns
  obtain ⟨table, -, nextPid⟩ := traps.runs.entered_quiet traps.fromUser quiet traps.entry
  refine ⟨rfl, traps.entered.runs, ⟨roots, _, managed, stack, sound, onTop⟩,
    traps.affords owns quiet orderly.affords, ?_, nextPid⟩
  have saved := @Distinct.put_same _ m.kernel.currentProcess traps.runs.distinct self
    { self with pctx := .fromEctx ctx } traps.runs.current rfl
  rw [table]
  exact saved.2

/-- A program can fork as long as that can be afforded. -/
theorem Machine.Orderly.forks_goes (orderly : m.Orderly size (count + 1))
    (loadsFresh : ∀ path bytes, files path = some bytes → LoadsFresh bytes)
    (running : m.control = .user frame) (current : m.kernel.getCurrentProcess = some self) :
    ∃ next saved child, m.Goes files (.trap (frame.calling 4 frame.x) ⟨false, false, false⟩) next ∧
      next.Orderly size count ∧ m.HasForked next self saved child := by
  have isFork := frame.isSyscall_calling 4 (by decide) frame.x
  obtain ⟨process, mid, traps, -, step⟩ :=
    orderly.valid.calls running isFork rfl rfl files ⟨false, false, false⟩
  obtain ⟨rfl, finds⟩ := orderly.finds current rfl traps
  have runs := finds.runs
  obtain ⟨roots, free, managed, stack, sound, onTop⟩ := finds.owned
  have sysFork : mid.handleSyscall files (frame.calling 4 frame.x) =
      mid.sysFork (frame.calling 4 frame.x) := by
    rw [Kernel.handleSyscall, isFork.immediate]
    rfl
  have execsWell : m.ExecsWell files (.trap (frame.calling 4 frame.x) ⟨false, false, false⟩) :=
    isFork.execsWell (by decide) _
  -- With the frames, the slots and the pids at hand, the fork succeeds.
  obtain ⟨⟨_, _, can⟩, vacant, room⟩ := finds.affords.forks runs sound onTop
  rcases runs.sysFork_cases (frame.calling 4 frame.x) with
    ⟨stop, stopped, -⟩ | ⟨child, after, slot, forks, forked, found, returned⟩
  · exact absurd stopped (runs.sysFork_returns can room stop)
  rw [sysFork, returned] at step
  have empty := firstFree_some found
  have fresh := runs.fresh
  rw [← forked.pid] at fresh
  obtain ⟨alloc, kernelStacks, same⟩ := forked.same
  -- The child gets the empty slot and the next pid. The rest is the parent's trap.
  have table : after.processTable = mid.processTable := by rw [same]
  have nextPid : after.nextPid = mid.nextPid + 1 := by rw [same]
  have stays : after.currentProcess = mid.currentProcess := by rw [same]
  have added := (@Distinct.put_new _ slot runs.distinct
    { child with pctx := child.pctx.setX 0 0 } empty fresh).2
  have tableAfter : ((after.setEntry slot (some { child with pctx := child.pctx.setX 0 0 })).record
      (.created child.pid (child.pctx.setX 0 0))).processTable =
      put mid.processTable slot (some { child with pctx := child.pctx.setX 0 0 }) := by
    rw [← table]
    rfl
  refine ⟨_, { process with pctx := .fromEctx (frame.calling 4 frame.x) },
    { child with pctx := child.pctx.setX 0 0 }, ⟨execsWell, step⟩,
    orderly.step loadsFresh step execsWell orderly.awake ?_, ⟨_, rfl⟩, ⟨_, rfl⟩, ?_, ?_,
    forked.pid.trans finds.nextPid, forked.parent, forked.ready, ?_⟩
  · exact finds.affords.forked runs sound onTop forks empty tableAfter nextPid
      (runs.forked_resources forked found)
  · -- The slot of the child is not the one of its parent.
    have apart : mid.currentProcess ≠ slot := by
      rintro rfl
      rw [runs.current] at empty
      cases empty
    show put after.processTable slot _ after.currentProcess = _
    rw [table, stays, put_of_ne _ _ _ apart]
    exact runs.current
  · show entriesOf _ = _
    rw [tableAfter, added, finds.entries]
  · exact nextPid.trans (congrArg (· + 1) finds.nextPid)

/-- A fork is a run. -/
theorem Machine.Orderly.forks (orderly : m.Orderly size (count + 1))
    (loadsFresh : ∀ path bytes, files path = some bytes → LoadsFresh bytes)
    (running : m.control = .user frame) (current : m.kernel.getCurrentProcess = some self) :
    ∃ next saved child, Machine.Runs files (Machine.ExecsWell files) m next ∧
      next.Orderly size count ∧ m.HasForked next self saved child := by
  obtain ⟨next, saved, child, goes, orderlyNext, forked⟩ :=
    orderly.forks_goes loadsFresh running current
  exact ⟨next, saved, child, goes.run, orderlyNext, forked⟩

/-- When a handler only changes the entry of its process, the machine goes on orderly. -/
theorem Machine.Finds.leaves (finds : m.Finds mid self ctx size count)
    (orderly : m.Orderly size count)
    (loadsFresh : ∀ path bytes, files path = some bytes → LoadsFresh bytes)
    (execsWell : m.ExecsWell files (.trap ctx devices)) (changed : Process) (lock : Bool)
    (samePid : changed.pid = self.pid) (holding : changed.holding = some ctx.holding)
    (step : m.Step files (.trap ctx devices) (m.after (.scheduling
      ({ mid with processTableLock := lock }.setEntry mid.currentProcess (some changed)) ctx
      lockHeld))) :
    ∃ next, m.Goes files (.trap ctx devices) next ∧ next.Orderly size count ∧
      m.HasLeft next changed lockHeld := by
  have runs := finds.runs
  -- The process that is put aside holds what its frame has.
  have sameHolding :
      changed.holding = Process.holding { self with pctx := .fromEctx ctx } := by
    have alive : self.state ≠ .terminated := by
      have state : self.state = .running := runs.state
      rw [state]
      decide
    rw [holding, Process.holding, if_neg alive]
    rfl
  have resources := @Kernel.resources_setEntry { mid with processTableLock := lock } runs.distinct
    mid.currentProcess _ changed runs.current samePid sameHolding
  have put := @Distinct.put_same _ mid.currentProcess runs.distinct _ changed runs.current samePid
  refine ⟨_, ⟨execsWell, step⟩, orderly.step loadsFresh step execsWell orderly.awake ?_, ⟨_, rfl⟩,
    put_self .., ?_, finds.nextPid⟩
  · -- The new context changes no holding, so the process affords what it did.
    exact finds.affords.congr resources (Kernel.vacantSlots_replaced runs.current rfl) rfl
  · show entriesOf (SlotTable.put mid.processTable mid.currentProcess (some changed)) = _
    rw [put.2, finds.entries, samePid]
    exact Function.update_idem ..

/-- The entry of a process that waits. -/
def Process.waiting (process : Process) (pctx : ProcessContext) : Process :=
  { process with
    pctx
    state := .blocked
    blockReason := some .waitingForChild }

/-- A program can wait for a child, or for any, and is blocked while no child has terminated. -/
theorem Machine.Orderly.waits_goes (orderly : m.Orderly size count)
    (loadsFresh : ∀ path bytes, files path = some bytes → LoadsFresh bytes)
    (running : m.control = .user frame) (current : m.kernel.getCurrentProcess = some self)
    {pid target : UInt64} (there : m.entries pid = some child)
    (awaited : child.isAwaited self.pid target = true)
    (alive : ∀ other second, m.entries other = some second → second.state ≠ .terminated) :
    ∃ next pctx, m.Goes files
        (.trap (frame.calling 6 (argumentRegisters target 0 0)) ⟨false, false, false⟩) next ∧
      next.Orderly size count ∧ m.HasLeft next (self.waiting pctx) true ∧
      pctx.x.get 0 = target := by
  -- The call is number 6, with the target as its first argument.
  have isWait := frame.isSyscall_calling 6 (by decide) (argumentRegisters target 0 0)
  obtain ⟨process, mid, traps, -, step⟩ :=
    orderly.valid.calls running isWait rfl rfl files ⟨false, false, false⟩
  obtain ⟨rfl, finds⟩ := orderly.finds current rfl traps
  have asks : (frame.calling 6 (argumentRegisters target 0 0)).x.get 0 = target := rfl
  generalize frame.calling 6 (argumentRegisters target 0 0) = ctx at isWait asks step finds ⊢
  have runs := finds.runs
  have sysWait : mid.handleSyscall files ctx = mid.sysWait ctx := by
    rw [Kernel.handleSyscall, isWait.immediate]
    rfl
  have execsWell : m.ExecsWell files (.trap ctx ⟨false, false, false⟩) :=
    isWait.execsWell (by decide) _
  -- The child is still there, and so are all others but the process itself.
  have entry : ∀ {other second}, mid.processTable other = some second →
      second.state ≠ .terminated := by
    intro other second inSlot
    have here := runs.distinct.entriesOf_slot inSlot
    rw [finds.entries, Function.update_apply] at here
    split at here
    · cases here
      have state : process.state = .running := runs.state
      rw [state]
      decide
    · exact alive _ _ here
  rw [sysWait] at step
  -- `wait` finds a terminated child, finds no child at all, or waits.
  rcases runs.sysWait_cases ctx with
    ⟨slot, second, inSlot, -, ended, -⟩ | ⟨nobody, -⟩ | ⟨slot, second, -, -, -, waits⟩
  · exact absurd ended (entry inSlot)
  · have childThere : ∃ slot, mid.processTable slot = some child := by
      have distinct : pid ≠ process.pid := by
        -- No process is its own parent.
        rintro rfl
        have mine := orderly.valid.distinct.entriesOf_slot current
        have same : some child = some process := there.symm.trans mine
        cases same
        have isChild := (Process.isAwaited_iff.mp awaited).1
        exact traps.runs.invariant.formed.rooted.parent_ne traps.runs.here isChild
      have here : entriesOf mid.processTable pid = some child := by
        rw [finds.entries, Function.update_of_ne distinct]
        exact there
      obtain ⟨slot, inSlot, -⟩ := slot_of_entriesOf here
      exact ⟨slot, inSlot⟩
    obtain ⟨slot, inSlot⟩ := childThere
    have ignored := nobody slot child inSlot
    rw [asks] at ignored
    have found : child.isAwaited process.pid target = false := ignored
    rw [awaited] at found
    cases found
  · -- So it goes to sleep, which leaves the table but for its own entry as it was.
    rw [waits] at step
    obtain ⟨next, goes, orderlyNext, left⟩ := finds.leaves orderly loadsFresh execsWell
      (process.waiting (.fromEctx ctx)) true rfl rfl step
    exact ⟨next, _, goes, orderlyNext, left, asks⟩

/-- The time slice of a program can end. -/
theorem Machine.Orderly.usesUp (orderly : m.Orderly size count)
    (loadsFresh : ∀ path bytes, files path = some bytes → LoadsFresh bytes)
    (running : m.control = .user frame) (current : m.kernel.getCurrentProcess = some self) :
    ∃ next changed, m.Goes files (.trap frame.interrupted ⟨false, true, false⟩) next ∧
      next.Orderly size count ∧ m.HasLeft next changed false ∧
      ∃ pctx, changed = { self with pctx, state := .ready } := by
  -- The timer interrupt ends the slice.
  have fromUser : wasFromUserEl0 frame.interrupted = true := rfl
  obtain ⟨process, mid, traps, step⟩ :=
    orderly.valid.traps running fromUser rfl rfl files ⟨false, true, false⟩
  obtain ⟨rfl, finds⟩ := orderly.finds current rfl traps
  have execsWell : m.ExecsWell files (.trap frame.interrupted ⟨false, true, false⟩) := by
    refine Machine.execsWell_other fun ctx devices same isExec => ?_
    cases same
    cases isExec.sync
  rw [Kernel.entered_irq rfl files traps.entry] at step
  have ends : mid.handleIrqException true false frame.interrupted = .scheduling
      ({ mid with processTableLock := mid.processTableLock }.setEntry mid.currentProcess
        (some { process with pctx := .fromEctx frame.interrupted, state := .ready }))
      frame.interrupted false := by
    -- With its slice over, the process is ready.
    unfold Kernel.handleIrqException Kernel.timesliceUp
    rw [finds.runs.current]
    rfl
  rw [ends] at step
  obtain ⟨next, run, orderlyNext, left⟩ := finds.leaves orderly loadsFresh execsWell
    { process with pctx := .fromEctx frame.interrupted, state := .ready } mid.processTableLock
    rfl rfl step
  exact ⟨next, _, run, orderlyNext, left, _, rfl⟩

/-- The scheduler takes up a ready process, and the one that ran last only if it has to. -/
theorem Machine.Valid.schedules_ready (valid : m.Valid)
    (looping : m.control = .scheduling frame lockHeld) {slot : Fin maxProcesses}
    (here : m.kernel.processTable slot = some child) (isReady : child.state = .ready) :
    ∃ found second, m.kernel.processTable found = some second ∧ second.state = .ready ∧
      (found = m.kernel.currentProcess → slot = m.kernel.currentProcess) ∧
      m.Step files (.schedule false) (.ok (m.loaded found second frame)) := by
  have idles := valid.scheduling looping
  have step : m.Step files (.schedule false) _ := .schedule false looping
  unfold Machine.pass at step
  -- The pass finds a ready process, or there is none, or everything has terminated.
  rcases idles.schedulePass false frame with
    ⟨found, second, there, ready, loads⟩ | ⟨notReady, -⟩ | ⟨ended, -⟩
  · rw [loads] at step
    dsimp only at step
    rw [m.resume_loaded idles] at step
    refine ⟨found, second, there, ready, ?_, step⟩
    rintro rfl
    -- The scan takes the ready process that comes first after the current one.
    have readyAt : m.kernel.ReadyAt slot := ⟨child, here, isReady⟩
    obtain ⟨next, context, decides, near⟩ :=
      readyAt.decides (fun process there => idles.notRunning there) false frame
    rw [loads, Pass.loaded.injEq] at decides
    rw [← decides.1] at near
    -- Going once round is as far as one can go.
    have round : wayRound m.kernel.currentProcess m.kernel.currentProcess = maxProcesses := by
      unfold wayRound
      rw [if_neg (Nat.lt_irrefl _), Nat.add_sub_cancel_left]
    have near : wayRound m.kernel.currentProcess m.kernel.currentProcess ≤
        wayRound m.kernel.currentProcess slot := near
    have bound := wayRound_le m.kernel.currentProcess slot
    have same : wayRound m.kernel.currentProcess slot =
        wayRound m.kernel.currentProcess m.kernel.currentProcess := by omega
    exact wayRound_inj same
  · exact absurd isReady (notReady slot child here)
  · have terminated := ended slot child here
    rw [isReady] at terminated
    cases terminated

/-- The scheduler prefers any other process to the one that ran last. -/
theorem Machine.Valid.schedules_other (valid : m.Valid)
    (looping : m.control = .scheduling frame lockHeld) {slot : Fin maxProcesses}
    (here : m.kernel.processTable slot = some child) (isReady : child.state = .ready)
    (only : ∀ found second, m.kernel.processTable found = some second → second.state = .ready →
      found = slot ∨ (found = m.kernel.currentProcess ∧ slot ≠ m.kernel.currentProcess)) :
    m.Step files (.schedule false) (.ok (m.loaded slot child frame)) := by
  obtain ⟨found, second, there, ready, last, step⟩ := valid.schedules_ready looping here isReady
  rcases only found second there ready with rfl | ⟨isCurrent, other⟩
  · rw [here, Option.some.injEq] at there
    rwa [there]
  · exact absurd (last isCurrent) other

/-- A process that is ready is taken up if nobody else is, the last one that ran apart. -/
theorem Machine.Orderly.schedules (orderly : m.Orderly size count)
    (loadsFresh : ∀ path bytes, files path = some bytes → LoadsFresh bytes)
    (looping : m.control = .scheduling frame lockHeld) {pid : UInt64}
    (there : m.entries pid = some child) (isReady : child.state = .ready)
    (only : ∀ found second, m.entries found = some second → second.state = .ready →
      found = pid ∨ (m.kernel.getCurrentProcess = some second ∧ found ≠ pid)) :
    ∃ next, m.Goes files (.schedule false) next ∧ next.Orderly size count ∧
      m.HasLoaded next child := by
  have distinct := orderly.valid.distinct
  -- What is said about the entries is said about the slots.
  obtain ⟨slot, inSlot, rfl⟩ := slot_of_entriesOf there
  have step : m.Step files (.schedule false) (.ok (m.loaded slot child frame)) := by
    refine orderly.valid.schedules_other looping inSlot isReady fun found second inFound ready => ?_
    rcases only _ second (distinct.entriesOf_slot inFound) ready with same | ⟨current, other⟩
    · exact Or.inl (distinct.slot_eq inFound inSlot same)
    · have isCurrent := distinct.slot_eq inFound current rfl
      refine Or.inr ⟨isCurrent, ?_⟩
      rintro rfl
      rw [isCurrent, inSlot, Option.some.injEq] at inFound
      exact other (congrArg Process.pid inFound.symm)
  have execsWell : m.ExecsWell files (.schedule false) := fun same => nomatch same
  have awake : m.suspended child.pid = none := congrFun orderly.awake _
  have put := @Distinct.put_same _ slot distinct child { child with state := .running } inSlot rfl
  have resources := Machine.loaded_resources distinct inSlot isReady frame
  have control : (m.loaded slot child frame).control = .user (frame.updateFromPctx child.pctx) := by
    unfold Machine.loaded
    dsimp only
    rw [awake]
  refine ⟨_, ⟨execsWell, step⟩, orderly.step loadsFresh step execsWell ?_ ?_, ⟨⟨_, control⟩,
    put_self .., put.2, rfl, resources, ?_⟩⟩
  · -- Nobody had been suspended, so nobody is now.
    funext pid
    show Function.update m.suspended child.pid none pid = none
    rw [Function.update_apply, congrFun orderly.awake, ite_self]
  · refine orderly.affords.congr resources ?_ rfl
    exact Kernel.vacantSlots_replaced inSlot rfl
  · rw [control]
    rfl

/-- Two processes have changed places: one is ready now, and the other one runs. -/
structure Machine.HasYielded (m next : Machine) (process yielding other : Process) : Prop where
  running : ∃ context, next.control = .user context
  same : ∃ pctx, yielding = { process with pctx, state := .ready }
  current : next.kernel.getCurrentProcess = some { other with state := .running }
  entries : next.entries = Function.update (Function.update m.entries process.pid (some yielding))
    other.pid (some { other with state := .running })

/-- At the end of its time slice, a program makes room for the only one that is ready. -/
theorem Machine.Orderly.yields (orderly : m.Orderly size count)
    (loadsFresh : ∀ path bytes, files path = some bytes → LoadsFresh bytes)
    (running : m.control = .user frame) (current : m.kernel.getCurrentProcess = some self)
    (there : m.entries child.pid = some child) (isReady : child.state = .ready)
    (only : ∀ found second, m.entries found = some second → second.state = .ready →
      found = child.pid) :
    ∃ ended next yielding, m.Goes files (.trap frame.interrupted ⟨false, true, false⟩) ended ∧
      ended.Goes files (.schedule false) next ∧ next.Orderly size count ∧
      m.HasYielded next self yielding child := by
  -- The process is put aside as ready.
  have runs := orderly.valid.runs running current
  obtain ⟨ended, yielding, ends, orderlyEnded, hasLeft, pctx, isYielding⟩ :=
    orderly.usesUp loadsFresh running current
  obtain ⟨_, looping⟩ := hasLeft.looping
  have samePid : yielding.pid = self.pid := by rw [isYielding]
  have entries := hasLeft.entries
  rw [samePid] at entries
  have distinct : self.pid ≠ child.pid := by
    intro same
    have mine : m.entries self.pid = some self := runs.here
    rw [same, there, Option.some.injEq] at mine
    have state := runs.state
    rw [← mine, isReady] at state
    cases state
  -- But for it, only the other one is ready.
  have onlyOther : ∀ found second, ended.entries found = some second → second.state = .ready →
      found = child.pid ∨ (ended.kernel.getCurrentProcess = some second ∧ found ≠ child.pid) := by
    intro found second here ready
    rw [entries, Function.update_apply] at here
    split at here
    · rename_i isSelf
      rw [← here, isSelf]
      exact Or.inr ⟨hasLeft.current, distinct⟩
    · exact Or.inl (only found second here ready)
  have still : ended.entries child.pid = some child := by
    rw [entries, Function.update_of_ne distinct.symm]
    exact there
  obtain ⟨next, goes, orderlyNext, hasLoaded⟩ :=
    orderlyEnded.schedules loadsFresh looping still isReady onlyOther
  refine ⟨ended, next, yielding, ends, goes, orderlyNext, hasLoaded.running, ⟨pctx, isYielding⟩,
    hasLoaded.current, ?_⟩
  rw [hasLoaded.entries, entries]

/-- A process has exited: it stays in the table, and its children belong to pid 1. -/
structure Machine.HasExited (m next : Machine) (process gone : Process) : Prop where
  looping : ∃ context, next.control = .scheduling context false
  same : ∃ pctx code, gone = { process with pctx, exitCode := code, state := .terminated }
  entries : next.entries = fun pid =>
    (Function.update m.entries gone.pid (some gone) pid).map (Process.reparent gone.pid 1)

/-- A process that is on top of its stack can give up all it has. -/
theorem Machine.Finds.exits (finds : m.Finds mid self ctx size count)
    (isExit : ctx.IsSyscall 3) (files : String → Option (List UInt8)) :
    ∃ next, mid.handleSyscall files ctx = .scheduling next ctx false ∧
      mid.Exited m.inKernel { self with pctx := .fromEctx ctx } (ctx.x.get 0) next ∧
      next.Affords size 0 := by
  have runs := finds.runs
  obtain ⟨roots, free, managed, stack, sound, onTop⟩ := finds.owned
  have sysExit : mid.handleSyscall files ctx = mid.sysExit ctx := by
    rw [Kernel.handleSyscall, isExit.immediate]
    rfl
  have current : mid.getCurrentProcess = some { self with pctx := .fromEctx ctx } := runs.current
  -- A process that runs has a stack, so the exit goes through.
  rcases runs.exitProcess (ctx.x.get 0) with ⟨inactive, -⟩ | ⟨next, done, exited⟩
  · exact absurd onTop.allocated (Kernel.getActiveStackIndex_none.mp inactive stack)
  have exits : mid.sysExit ctx = .scheduling next ctx false := by
    rw [Kernel.sysExit, current]
    dsimp only
    rw [done]
  refine ⟨next, sysExit.trans exits, exited, ?_, by omega, Nat.zero_le _, Nat.zero_le _,
    next.nextPid.toNat_lt⟩
  -- What the other processes hold has been kept, and none of it is larger than it was.
  intro pid held holds
  have uses := runs.sysExit_uses files ctx isExit
  rw [exits] at uses
  cases uses with
  | scheduling _ same =>
    have alloc : next.alloc = mid.alloc := congrArg Resources.alloc same
    rw [same] at holds
    rw [alloc]
    exact finds.affords.spaces holds
  | @exited _ own _ active resources =>
    have alloc : next.alloc = freePageTable ctx.ttbr0.toNat mid.alloc :=
      congrArg Resources.alloc resources
    have others := congrFun (congrArg Resources.holding resources) pid
    rw [holds] at others
    dsimp only at others
    rw [Function.update_apply] at others
    split at others
    · cases others
    · rename_i distinct
      have mine := runs.holding
      have live : ctx.ttbr0.toNat ∈ roots := sound.assigned.live mine
      have apart : held.ttbr0.toNat ≠ ctx.ttbr0.toNat := by
        intro same
        have alone := sound.assigned.alone others.symm mine (UInt64.toNat_inj.mp same)
        exact distinct alone
      obtain ⟨-, -, -, -, kept⟩ := sound.accounted.freeSpace live
      have kept : Kept mid.alloc.mem (freePageTable ctx.ttbr0.toNat mid.alloc).mem
        (insert mid.kernelL1 roots \ {ctx.ttbr0.toNat}) := kept
      rw [alloc, kept.nodes ⟨Set.mem_insert_of_mem _ (sound.assigned.live others.symm), apart⟩]
      exact finds.affords.spaces others.symm

/-- A program can exit, and leaves the CPU to the scheduler. -/
theorem Machine.Orderly.exits_goes (orderly : m.Orderly size count)
    (loadsFresh : ∀ path bytes, files path = some bytes → LoadsFresh bytes)
    (running : m.control = .user frame) (current : m.kernel.getCurrentProcess = some self)
    (code : UInt64) : ∃ (next : Machine) (mid : Kernel) (pctx : ProcessContext), m.Goes files
        (.trap (frame.calling 3 (argumentRegisters code 0 0)) ⟨false, false, false⟩) next ∧
      next.Orderly size 0 ∧ (∃ context, next.control = .scheduling context false) ∧
      entriesOf mid.processTable = Function.update m.entries self.pid (some { self with pctx }) ∧
      mid.Exited m.inKernel { self with pctx } code next.kernel := by
  -- The call is number 3, with the exit code as its argument.
  have isExit := frame.isSyscall_calling 3 (by decide) (argumentRegisters code 0 0)
  have asks : (frame.calling 3 (argumentRegisters code 0 0)).x.get 0 = code := rfl
  obtain ⟨process, mid, traps, -, step⟩ :=
    orderly.valid.calls running isExit rfl rfl files ⟨false, false, false⟩
  obtain ⟨rfl, finds⟩ := orderly.finds current rfl traps
  generalize frame.calling 3 (argumentRegisters code 0 0) = ctx at isExit asks step finds traps ⊢
  have execsWell : m.ExecsWell files (.trap ctx ⟨false, false, false⟩) :=
    isExit.execsWell (by decide) _
  obtain ⟨after, exits, exited, affords⟩ := finds.exits isExit files
  rw [exits] at step
  rw [asks] at exited
  exact ⟨_, mid, _, ⟨execsWell, step⟩,
    orderly.step loadsFresh step execsWell orderly.awake affords, ⟨_, rfl⟩, finds.entries, exited⟩

/-- A program can exit, and stays in the table if its parent does not wait. -/
theorem Machine.Orderly.exits (orderly : m.Orderly size count)
    (loadsFresh : ∀ path bytes, files path = some bytes → LoadsFresh bytes)
    (running : m.control = .user frame) (current : m.kernel.getCurrentProcess = some self)
    {parent : Process} (above : m.entries self.parentPid = some parent)
    (busy : parent.state ≠ .blocked) :
    ∃ next gone, Machine.Runs files (Machine.ExecsWell files) m next ∧ next.Orderly size 0 ∧
      m.HasExited next self gone := by
  -- The parent is not blocked, so nobody is told.
  obtain ⟨next, mid, pctx, goes, orderlyNext, looping, entries, exited⟩ :=
    orderly.exits_goes loadsFresh running current 0
  refine ⟨next, { self with pctx, exitCode := (0 : UInt64).toInt64, state := .terminated },
    goes.run, orderlyNext, looping, ⟨pctx, _, rfl⟩, ?_⟩
  have plain : entriesOf next.kernel.processTable = fun pid =>
      (Function.update (entriesOf mid.processTable) self.pid (some { self with
        pctx, exitCode := (0 : UInt64).toInt64, state := .terminated }) pid).map
          (Process.reparent self.pid 1) := by
    rcases exited.exits with tree | ⟨second, there, waits, -⟩
    · exact congrArg ProcessTree.entries tree
    · obtain ⟨before, here, waitsBefore, -, distinct, -⟩ :=
        ProcessTree.terminated_waits there ⟨waits.blocked, waits.reason⟩
      have here : entriesOf mid.processTable self.parentPid = some before := here
      rw [entries, Function.update_of_ne distinct, above, Option.some.injEq] at here
      exact absurd (here ▸ waitsBefore.blocked) busy
  show entriesOf next.kernel.processTable = _
  rw [plain, entries, Function.update_idem]

/-- A process has forked and waits for any child, and its child has been scheduled. -/
structure Machine.Descends (files : String → Option (List UInt8)) (m next : Machine)
    (frame : ExceptionContext) (process child : Process) (pctx : ProcessContext) : Prop where
  steps : ∃ (forked waits : Machine) (context : ExceptionContext),
    m.Goes files (.trap (frame.calling 4 frame.x) ⟨false, false, false⟩) forked ∧
      forked.Goes files
        (.trap (context.calling 6 (argumentRegisters 0 0 0)) ⟨false, false, false⟩) waits ∧
      waits.Goes files (.schedule false) next
  running : ∃ context, next.control = .user context
  current : next.kernel.getCurrentProcess = some child
  pid : child.pid = m.kernel.nextPid
  parent : child.parentPid = process.pid
  entries : next.entries = Function.update
    (Function.update m.entries process.pid (some (process.waiting pctx))) child.pid (some child)
  nextPid : next.kernel.nextPid = m.kernel.nextPid + 1
  any : pctx.x.get 0 = 0

/-- The descent is a run. -/
theorem Machine.Descends.run {pctx : ProcessContext}
    (descends : m.Descends files next frame self child pctx) :
    Machine.Runs files (Machine.ExecsWell files) m next := by
  obtain ⟨forked, waits, context, forks, left, loads⟩ := descends.steps
  exact (forks.run.trans left.run).trans loads.run

/-- A program can fork and wait for its child, which runs then, if everybody else is blocked. -/
theorem Machine.Orderly.descends (orderly : m.Orderly size (count + 1))
    (loadsFresh : ∀ path bytes, files path = some bytes → LoadsFresh bytes)
    (running : m.control = .user frame) (current : m.kernel.getCurrentProcess = some self)
    (others : ∀ pid process, m.entries pid = some process →
      pid = self.pid ∨ process.state = .blocked) :
    ∃ next child pctx, next.Orderly size count ∧ m.Descends files next frame self child pctx := by
  -- First it forks, and the child gets a pid that is free.
  have runs := orderly.valid.runs running current
  obtain ⟨forked, saved, child, forks, orderlyForked, hasForked⟩ :=
    orderly.forks_goes loadsFresh running current
  obtain ⟨_, rfl⟩ := hasForked.same
  obtain ⟨frameForked, runningForked⟩ := hasForked.running
  have fresh : self.pid ≠ child.pid := by
    intro same
    have missing := runs.fresh
    rw [← hasForked.pid, ← same] at missing
    exact absurd (missing.symm.trans runs.here) (by simp)
  have there : forked.entries child.pid = some child := by
    rw [hasForked.entries, Function.update_self]
  -- Nobody in the table has terminated.
  have aliveForked : ∀ other second, forked.entries other = some second →
      second.state ≠ .terminated := by
    intro other second here
    rw [hasForked.entries, Function.update_apply, Function.update_apply] at here
    split at here
    · cases here
      simp [hasForked.ready]
    · split at here
      · cases here
        simp [runs.state]
      · rename_i notSelf
        simp [(others _ _ here).resolve_left notSelf]
  -- Its parent waits for any child, and none has terminated.
  obtain ⟨waits, pctx, left, orderlyWaits, hasLeft, any⟩ := orderlyForked.waits_goes loadsFresh
    runningForked hasForked.current there
    (Process.isAwaited_iff.mpr ⟨hasForked.parent, Or.inl rfl⟩) aliveForked
  obtain ⟨frameWaits, looping⟩ := hasLeft.looping
  have entries : waits.entries = Function.update (Function.update m.entries self.pid
      (some (self.waiting pctx))) child.pid (some child) := by
    have left : waits.entries = Function.update forked.entries self.pid
      (some (self.waiting pctx)) := hasLeft.entries
    rw [left, hasForked.entries, Function.update_comm fresh.symm, Function.update_idem]
  have childThere : waits.entries child.pid = some child := by
    rw [entries, Function.update_self]
  -- So only the child is ready.
  have only : ∀ found second, waits.entries found = some second → second.state = .ready →
      found = child.pid ∨ (waits.kernel.getCurrentProcess = some second ∧ found ≠ child.pid) := by
    intro found second here isReady
    rw [entries, Function.update_apply, Function.update_apply] at here
    split at here
    · exact Or.inl ‹_›
    · split at here
      · cases here
        cases isReady
      · rename_i notSelf
        rw [(others _ _ here).resolve_left notSelf] at isReady
        cases isReady
  obtain ⟨next, loads, orderlyNext, hasLoaded⟩ :=
    orderlyWaits.schedules loadsFresh looping childThere hasForked.ready only
  refine ⟨next, { child with state := .running }, pctx, orderlyNext,
    { steps := ⟨forked, waits, frameForked, forks, left, loads⟩
      running := hasLoaded.running
      current := hasLoaded.current
      pid := hasForked.pid
      parent := hasForked.parent
      entries := ?_
      nextPid := ?_
      any }⟩
  · rw [hasLoaded.entries, entries, Function.update_idem]
  · rw [hasLoaded.nextPid, hasLeft.nextPid, hasForked.nextPid]

/-- A program can exit, and its parent is ready then if it waited for any child. -/
theorem Machine.Orderly.wakesParent (orderly : m.Orderly size count)
    (loadsFresh : ∀ path bytes, files path = some bytes → LoadsFresh bytes)
    (running : m.control = .user frame) (current : m.kernel.getCurrentProcess = some self)
    {parent : Process} (above : m.entries self.parentPid = some parent) (waits : parent.Waits)
    (any : parent.pctx.x.get 0 = 0) (code : UInt64) :
    ∃ next woken, m.Goes files
        (.trap (frame.calling 3 (argumentRegisters code 0 0)) ⟨false, false, false⟩) next ∧
      next.Orderly size 0 ∧ next.entries self.parentPid = some woken ∧ woken.state = .ready := by
  -- The process is not its own parent.
  have runs := orderly.valid.runs running current
  have notSelf : self.parentPid ≠ self.pid := runs.invariant.formed.rooted.parent_ne runs.here
  obtain ⟨next, mid, pctx, goes, orderlyNext, -, entries, exited⟩ :=
    orderly.exits_goes loadsFresh running current code
  -- The exit leaves the parent waiting until it is handed the code.
  have found : ((mid.tree m.inKernel (some self.pid)).terminated { self with pctx } code).entries
      self.parentPid = some (parent.reparent self.pid 1) := by
    rw [ProcessTree.terminated_entries, if_neg notSelf]
    show (entriesOf mid.processTable self.parentPid).map _ = _
    rw [entries, Function.update_of_ne notSelf, above, Option.map_some]
  have pid : (parent.reparent self.pid 1).pid = self.parentPid := by
    obtain ⟨_, -, pid⟩ := slot_of_entriesOf above
    rw [Process.reparent_pid, pid]
  have isWaiting : (parent.reparent self.pid 1).IsWaitingFor self.pid := by
    rw [Process.reparent_eq]
    exact ⟨waits.blocked, waits.reason, Or.inl any⟩
  have handed := exited.heard found isWaiting
  refine ⟨next, { parent.reparent self.pid 1 with
    state := .ready
    pctx := (parent.reparent self.pid 1).pctx.deliver self.pid code }, goes, orderlyNext, ?_, rfl⟩
  show (next.kernel.tree m.inKernel none).entries self.parentPid = _
  rw [handed, ProcessTree.delivered_entries, if_neg notSelf, if_pos pid.symm]

/-- After boot, there is enough for 49 forks of the small program, and of larger ones too. -/
theorem wordsStart_orderly (size count : Nat) (large : 46 ≤ size) (few : count ≤ 49)
    (frames : count * (size + 6) ≤ 8138) :
    ∃ boot init, Machine.Booted wordsFiles wordsStart boot ∧ boot.Orderly size count ∧
      init.IsInit ∧ (∃ frame, boot.control = .scheduling frame false) ∧
      boot.entries = Function.update (fun _ => none) 1 (some init) ∧ boot.kernel.nextPid = 2 := by
  obtain ⟨boot, booted⟩ := wordsStart_boots
  -- After boot there is one process, with one stack and the frames of its image.
  obtain ⟨valid, -⟩ := booted.tree
  obtain ⟨process, stack, here, -, -, enough, small, kernelStacks⟩ := booted.holdsWords
  obtain ⟨roots, free, owns⟩ := booted.owns wordsStart_prepared wordsFiles_loadsFresh
  have fresh := booted.fresh
  obtain ⟨k, init, frame, -, spawned, rfl⟩ := booted.started
  -- The table was empty, and `init` is in the first slot.
  have empty : wordsStart.processTable = fun _ => none := funext fresh.table
  have table : k.processTable = put (fun _ => none) ⟨0, by decide⟩ (some init) := by
    rw [spawned.table, empty]
  have mine : k.processTable ⟨0, by decide⟩ = some process := here
  rw [table, put_self, Option.some.injEq] at mine
  subst mine
  have entries := (@Distinct.put_new (fun _ => none) ⟨0, by decide⟩
    ⟨fun there => by cases there⟩ init rfl rfl).2
  rw [spawned.isInit.pid] at entries
  refine ⟨_, init, booted, ⟨valid, ⟨roots, free, _, owns⟩, rfl, ?_⟩, spawned.isInit, ⟨frame, rfl⟩, ?_,
    spawned.nextPid⟩
  · constructor
    · -- What `init` holds is small.
      intro pid held holds
      have holds : k.resources.holding pid = some held := holds
      rw [spawned.holding fresh, Function.update_apply] at holds
      split at holds
      · cases holds
        exact le_trans small large
      · cases holds
    · -- What `init` does not own is free.
      have enough : 8184 ≤ k.alloc.freeFrameCount +
        (RadixForest.nodes (AtOS.child k.alloc.mem) 3 init.pctx.ttbr0.toNat).ncard := enough
      have small : (RadixForest.nodes (AtOS.child k.alloc.mem) 3 init.pctx.ttbr0.toNat).ncard ≤ 46 :=
        small
      show count * (size + 6) ≤ k.alloc.freeFrameCount
      omega
    · -- All stacks but the one of `init` are free.
      have kernelStacks : k.kernelStacks = Function.update (fun _ => .free) stack (.allocated 1) :=
        kernelStacks
      have subset : Finset.univ.erase stack ⊆ k.stacksIn StackState.isFree := by
        intro other member
        rw [Kernel.mem_stacksIn, kernelStacks, Function.update_of_ne (Finset.ne_of_mem_erase member)]
        rfl
      have less := Finset.card_le_card subset
      rw [Finset.card_erase_of_mem (Finset.mem_univ _), Finset.card_univ, Fintype.card_fin] at less
      have less : 50 - 1 ≤ (k.stacksIn StackState.isFree).card := less
      show count ≤ (k.stacksIn StackState.isFree).card
      omega
    · -- All slots but the first are empty.
      have subset : Finset.univ.erase ⟨0, by decide⟩ ⊆ k.vacantSlots := by
        intro other member
        rw [Kernel.mem_vacantSlots, table, put_of_ne _ _ _ (Finset.ne_of_mem_erase member)]
      have less := Finset.card_le_card subset
      rw [Finset.card_erase_of_mem (Finset.mem_univ _), Finset.card_univ, Fintype.card_fin] at less
      have less : 50 - 1 ≤ k.vacantSlots.card := less
      show count ≤ k.vacantSlots.card
      omega
    · have nextPid : k.nextPid = 2 := spawned.nextPid
      show k.nextPid.toNat + count < 2 ^ 64
      rw [nextPid]
      show 2 + count < 2 ^ 64
      omega
  · show entriesOf k.processTable = _
    rw [table, entries]
    rfl

/-- After boot, the small program runs as pid 1. -/
theorem wordsStart_init (count : Nat) (few : count ≤ 49) : ∃ (boot m : Machine) (init : Process)
    (frame : ExceptionContext), Machine.Booted wordsFiles wordsStart boot ∧
      boot.Goes wordsFiles (.schedule false) m ∧ m.Orderly 46 count ∧ m.control = .user frame ∧
      m.kernel.getCurrentProcess = some init ∧ init.pid = 1 ∧ init.parentPid = 0 ∧
      m.entries = Function.update (fun _ => none) 1 (some init) ∧ m.kernel.nextPid = 2 := by
  obtain ⟨boot, init, booted, orderly, isInit, ⟨frame, looping⟩, entries, nextPid⟩ :=
    wordsStart_orderly 46 count le_rfl few (by omega)
  -- After boot only `init` is in the table, and it is ready.
  have there : boot.entries 1 = some init := by
    rw [entries, Function.update_self]
  have only : ∀ found second, boot.entries found = some second → second.state = .ready →
      found = 1 ∨ (boot.kernel.getCurrentProcess = some second ∧ found ≠ 1) := by
    intro found second here isReady
    rw [entries, Function.update_apply] at here
    split at here
    · exact Or.inl ‹_›
    · cases here
  obtain ⟨m, goes, orderly, loaded⟩ :=
    orderly.schedules wordsFiles_loadsFresh looping there isInit.ready only
  obtain ⟨frame, running⟩ := loaded.running
  have pid := isInit.pid
  -- Its entry is the one that was there, but for the state.
  have here : m.entries = Function.update (fun _ => none) 1
      (some { init with state := .running }) := by
    rw [loaded.entries, entries]
    generalize some { init with state := ProcessState.running } = changed
    rw [pid, Function.update_idem]
  have nextPidLoaded := loaded.nextPid.trans nextPid
  exact ⟨boot, m, _, frame, booted, goes, orderly, running, loaded.current, isInit.pid,
    isInit.parentPid, here, nextPidLoaded⟩

/-- Of two processes, one of which is not ready, at most the other one is. -/
theorem only_ready {first second : Process} {one two : UInt64} (notReady : first.state ≠ .ready) :
    ∀ found process, Function.update (Function.update (fun _ => none) one (some first)) two
        (some second) found = some process → process.state = .ready → found = two := by
  intro found process here isReady
  rw [Function.update_apply, Function.update_apply] at here
  split at here
  · assumption
  · split at here
    · rw [← Option.some.inj here] at isReady
      exact absurd isReady notReady
    · cases here

end AtOS
