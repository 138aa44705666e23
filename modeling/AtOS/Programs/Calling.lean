import AtOS.Resources.Programs

/-! More that a program can do: ask for its pid, wait in vain, and exit to a parent that waits. -/

namespace AtOS

open SlotTable

variable {files : String → Option (List UInt8)} {m next : Machine} {k mid : Kernel}
  {self child parent : Process} {ctx frame : ExceptionContext} {size count : Nat}
  {lockHeld : Bool}

/-- A process is back in its program, with other registers. -/
structure Machine.HasReturned (m next : Machine) (process saved : Process) : Prop where
  running : ∃ context, next.control = .user context
  same : ∃ pctx, saved = { process with pctx }
  current : next.kernel.getCurrentProcess = some saved
  entries : next.entries = Function.update m.entries saved.pid (some saved)
  nextPid : next.kernel.nextPid = m.kernel.nextPid

/-- A handler that changes no process returns to an orderly machine. -/
theorem Machine.Finds.returns (finds : m.Finds mid self ctx size count)
    (orderly : m.Orderly size count)
    (loadsFresh : ∀ path bytes, files path = some bytes → LoadsFresh bytes) {devices : Devices}
    (execsWell : m.ExecsWell files (.trap ctx devices)) {context : ExceptionContext}
    (log : List Event)
    (step : m.Step files (.trap ctx devices) (m.after (.returned { mid with log } context))) :
    ∃ next, m.Goes files (.trap ctx devices) next ∧ next.Orderly size count ∧
      m.HasReturned next self { self with pctx := .fromEctx ctx } := by
  have affords : ({ mid with log } : Kernel).Affords size count :=
    finds.affords.congr rfl rfl rfl
  exact ⟨_, ⟨execsWell, step⟩, orderly.step loadsFresh step execsWell orderly.awake affords,
    ⟨_, rfl⟩, ⟨_, rfl⟩, finds.runs.current, finds.entries, finds.nextPid⟩

/-- A program can ask for its pid. -/
theorem Machine.Orderly.asks (orderly : m.Orderly size count)
    (loadsFresh : ∀ path bytes, files path = some bytes → LoadsFresh bytes)
    -- The call is number 10, and the kernel hands out two pids.
    (running : m.control = .user frame) (current : m.kernel.getCurrentProcess = some self) :
    ∃ next saved, m.Goes files (.trap (frame.calling 10 frame.x) ⟨false, false, false⟩) next ∧
      next.Orderly size count ∧ m.HasReturned next self saved := by
  have isInfo := frame.isSyscall_calling 10 (by decide) frame.x
  obtain ⟨process, mid, traps, -, step⟩ :=
    orderly.valid.calls running isInfo rfl rfl files ⟨false, false, false⟩
  obtain ⟨rfl, finds⟩ := orderly.finds current rfl traps
  generalize frame.calling 10 frame.x = ctx at isInfo step finds traps ⊢
  have answers : mid.handleSyscall files ctx =
      .returned { mid with log := mid.log }
        ((ctx.setX 0 process.pid).setX 1 process.parentPid) := by
    rw [Kernel.handleSyscall, isInfo.immediate]
    show mid.sysPInfo ctx = _
    unfold Kernel.sysPInfo Kernel.getCurrentProcess
    rw [finds.runs.current]
  -- The call returns with nothing changed but the registers.
  rw [answers] at step
  obtain ⟨next, goes, orderlyNext, returned⟩ :=
    finds.returns orderly loadsFresh (isInfo.execsWell (by decide) _) mid.log step
  exact ⟨next, _, goes, orderlyNext, returned⟩

/-- A program that has no child waits in vain. -/
theorem Machine.Orderly.waitsInVain (orderly : m.Orderly size count)
    (loadsFresh : ∀ path bytes, files path = some bytes → LoadsFresh bytes)
    (running : m.control = .user frame) (current : m.kernel.getCurrentProcess = some self)
    (target : UInt64)
    (childless : ∀ pid process, m.entries pid = some process → process.parentPid ≠ self.pid) :
    ∃ next saved, m.Goes files
        (.trap (frame.calling 6 (argumentRegisters target 0 0)) ⟨false, false, false⟩) next ∧
      next.Orderly size count ∧ m.HasReturned next self saved ∧
      ∃ context, next.control = .user context ∧ context.x.get 0 = failure := by
  -- The call is number 6, and its argument is the target.
  have isWait := frame.isSyscall_calling 6 (by decide) (argumentRegisters target 0 0)
  obtain ⟨process, mid, traps, -, step⟩ :=
    orderly.valid.calls running isWait rfl rfl files ⟨false, false, false⟩
  obtain ⟨rfl, finds⟩ := orderly.finds current rfl traps
  generalize frame.calling 6 (argumentRegisters target 0 0) = ctx at isWait step finds traps ⊢
  have runs := finds.runs
  have sysWait : mid.handleSyscall files ctx = mid.sysWait ctx := by
    rw [Kernel.handleSyscall, isWait.immediate]
    rfl
  -- Nobody in the table is a child, and the process is not its own.
  have nobody : ∀ {slot second}, mid.processTable slot = some second →
      second.isAwaited process.pid (ctx.x.get 0) = true → False := by
    intro slot second inSlot awaited
    have isChild := (Process.isAwaited_iff.mp awaited).1
    have here := runs.distinct.entriesOf_slot inSlot
    rw [finds.entries, Function.update_apply] at here
    split at here
    · cases here
      have mine : m.entries process.pid = some process :=
        orderly.valid.distinct.entriesOf_slot current
      exact childless _ _ mine isChild
    · exact childless _ _ here isChild
  rw [sysWait] at step
  -- The two outcomes with a matching child are out of the question.
  rcases runs.sysWait_cases ctx with
    ⟨slot, second, inSlot, awaited, -⟩ | ⟨none, fails⟩ | ⟨slot, second, inSlot, awaited, -⟩
  · exact (nobody inSlot awaited).elim
  · rw [fails] at step
    have affords : (mid.record (.notFound process.pid (ctx.x.get 0))).Affords size count :=
      finds.affords.congr rfl rfl rfl
    refine ⟨_, _, ⟨isWait.execsWell (by decide) _, step⟩,
      orderly.step loadsFresh step (isWait.execsWell (by decide) _) orderly.awake affords,
      ⟨⟨_, rfl⟩, ⟨_, rfl⟩, runs.current, finds.entries, finds.nextPid⟩, _, rfl, ?_⟩
    simp [ExceptionContext.setX, register_eq]
  · exact (nobody inSlot awaited).elim

/-- A process has handed its exit to a parent that waited for it, and is gone. -/
structure Machine.HasHandedOver (m next : Machine) (process parent : Process) (code : UInt64) :
    Prop where
  looping : ∃ context, next.control = .scheduling context false
  gone : next.entries process.pid = none
  woken : next.entries parent.pid = some
    { parent with state := .ready, pctx := parent.pctx.deliver process.pid code }
  back : ∀ pid later, next.entries pid = some later → ∃ before, m.entries pid = some before

/-- A program without children hands its exit over to a parent that waits for nobody else. -/
theorem Machine.Orderly.exitsTo (orderly : m.Orderly size count)
    (loadsFresh : ∀ path bytes, files path = some bytes → LoadsFresh bytes)
    (running : m.control = .user frame) (current : m.kernel.getCurrentProcess = some self)
    (code : UInt64) (above : m.entries self.parentPid = some parent) (waits : parent.Waits)
    (childless : ∀ pid process, m.entries pid = some process → process.parentPid ≠ self.pid)
    (only : ∀ pid process, m.entries pid = some process → process.parentPid = self.parentPid →
      pid = self.pid) :
    ∃ next, m.Goes files
        (.trap (frame.calling 3 (argumentRegisters code 0 0)) ⟨false, false, false⟩) next ∧
      next.Orderly size 0 ∧ m.HasHandedOver next self parent code := by
  -- The process exits, and its parent has been told or nobody has.
  obtain ⟨next, mid, pctx, goes, orderlyNext, looping, entries, exited⟩ :=
    orderly.exits_goes loadsFresh running current code
  refine ⟨next, goes, orderlyNext, ?_⟩
  have rooted := orderly.valid.invariant.formed.rooted
  have mine : m.entries self.pid = some self := orderly.valid.distinct.entriesOf_slot current
  have notSelf : self.parentPid ≠ self.pid := childless _ _ mine
  have parentPid : parent.pid = self.parentPid := rooted.key above
  -- Whoever else is in the table is there after the exit, with the same parent.
  have kept : ∀ {pid process}, pid ≠ self.pid →
      ((mid.tree m.inKernel (some self.pid)).terminated { self with pctx } code).entries pid =
        some process → m.entries pid = some process := by
    intro pid process other there
    rw [ProcessTree.terminated_entries, if_neg other] at there
    change (entriesOf mid.processTable pid).map _ = _ at there
    rw [entries, Function.update_of_ne other, Option.map_eq_some_iff] at there
    obtain ⟨before, here, rfl⟩ := there
    rw [Process.reparent, if_neg (childless pid before here)]
    exact here
  -- If nobody was told, the parent would wait for a child that is not there.
  rcases exited.exits with tree | ⟨second, there, -, tree⟩
  · exfalso
    have sameEntries : entriesOf next.kernel.processTable = _ := congrArg ProcessTree.entries tree
    have parentThere : next.tree.entries self.parentPid = some parent := by
      show entriesOf next.kernel.processTable self.parentPid = _
      rw [sameEntries, ProcessTree.terminated_entries, if_neg notSelf]
      change (entriesOf mid.processTable self.parentPid).map _ = _
      rw [entries, Function.update_of_ne notSelf, above, Option.map_some, Process.reparent,
        if_neg (childless _ _ above)]
    -- The parent still waits, and there is no living child for it.
    obtain ⟨child, childThere, awaited, living⟩ :=
      orderlyNext.valid.invariant.awaited.child parentThere waits
    change entriesOf next.kernel.processTable child.pid = _ at childThere
    rw [sameEntries] at childThere
    have isChild := (Process.isAwaited_iff.mp awaited).1
    by_cases other : child.pid = self.pid
    · rw [ProcessTree.terminated_entries, if_pos other, Option.map_some,
        Option.some.injEq] at childThere
      rw [← childThere, Process.reparent_state] at living
      exact living rfl
    · exact other (only _ _ (kept other childThere) isChild)
  · -- The parent that was told is the one above, and it is ready.
    have found := kept notSelf there
    rw [above, Option.some.injEq] at found
    subst found
    have sameEntries : entriesOf next.kernel.processTable = _ := congrArg ProcessTree.entries tree
    refine ⟨looping, ?_, ?_, fun pid later here => ?_⟩
    · show entriesOf next.kernel.processTable self.pid = none
      rw [sameEntries, ProcessTree.delivered_entries, if_pos rfl]
    · show entriesOf next.kernel.processTable parent.pid = _
      rw [sameEntries, ProcessTree.delivered_entries, if_neg (parentPid ▸ notSelf), if_pos rfl]
    · change entriesOf next.kernel.processTable pid = _ at here
      rw [sameEntries, ProcessTree.delivered_entries] at here
      split at here
      · cases here
      · rename_i other
        split at here
        · rename_i isParent
          exact ⟨parent, isParent ▸ parentPid ▸ above⟩
        · exact ⟨later, kept other here⟩

/-- When all have terminated, the scheduler comes to its end. -/
theorem Machine.Valid.ends (valid : m.Valid) (looping : m.control = .scheduling frame lockHeld)
    (ended : ∀ pid process, m.entries pid = some process → process.state = .terminated) :
    m.Step files (.schedule false) (.error (.theEnd m.kernel)) := by
  have step : m.Step files (.schedule false) (m.pass frame lockHeld false) := .schedule false looping
  have outcome := step.outcome valid
  -- Nobody is ready and nobody is blocked, so the scheduler ends the system.
  have slot : ∀ {slot process}, m.kernel.processTable slot = some process →
      process.state = .terminated := by
    intro slot process there
    exact ended _ _ (valid.distinct.entriesOf_slot there)
  generalize m.pass frame lockHeld false = result at step outcome
  cases outcome with
  | loaded uartReady looping idles there ready =>
    have state := slot there
    rw [ready] at state
    cases state
  | idle uartReady looping idles notReady blocked =>
    obtain ⟨found, process, there, asleep⟩ := blocked
    have state := slot there
    rw [asleep] at state
    cases state
  | theEnd uartReady looping idles ended => exact step

end AtOS
