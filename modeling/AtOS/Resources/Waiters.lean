import AtOS.Processes.Stranding
import AtOS.Resources.Programs

/-! No wakeup between `wait` and `exit` is lost, except for the orphans that pid 1 takes over. -/

namespace AtOS

variable {files : String → Option (List UInt8)} {m : Machine}

/--
In a run in which no exit strands an orphan, nobody waits while a child it looks for has terminated.

The next step keeps that up exactly if it does not strand an orphan.
-/
theorem Machine.Booted.wakesWaiters_iff_calm {start : Kernel} {boot : Machine}
    (booted : Machine.Booted files start boot) (run : Machine.Runs files Machine.Calm boot m) :
    m.WakesWaiters ∧ ∀ action next, m.Step files action (.ok next) →
      (next.WakesWaiters ↔ m.Calm action) := by
  obtain ⟨validBoot, init, isInit, initial⟩ := booted.tree
  have initially : boot.tree.Prompt := by
    rw [initial]
    exact isInit.prompt
  obtain ⟨valid, prompt⟩ := run.induction validBoot initially fun valid prompt calm outcome _ =>
    outcome.prompt valid calm prompt
  refine ⟨valid.wakesWaiters_iff.mpr prompt, fun action next step => ?_⟩
  have outcome := step.outcome valid
  rw [(outcome.turn valid rfl).1.wakesWaiters_iff]
  constructor
  · intro promptNext self ctx calls strands
    exact outcome.stranded valid calls strands promptNext
  · exact fun calm => outcome.prompt valid calm prompt

section Orphan

/-- A table with up to four processes. -/
def lineage (first second third fourth : Option Process) : UInt64 → Option Process :=
  Function.update (Function.update (Function.update (Function.update (fun _ => none) 1 first) 2
    second) 3 third) 4 fourth

section Lineage

variable {first second third fourth changed : Option Process} {process : Process} {pid : UInt64}

/-- Only the third of the four changes. -/
theorem lineage_update_third : Function.update (lineage first second third fourth) 3 changed =
    lineage first second changed fourth := by
  unfold lineage
  rw [Function.update_comm (by decide), Function.update_idem]

/-- Only the fourth of the four changes. -/
theorem lineage_update_fourth : Function.update (lineage first second third fourth) 4 changed =
    lineage first second third changed :=
  Function.update_idem ..

/-- Whoever is in the table is one of the four. -/
theorem lineage_eq_some (there : lineage first second third fourth pid = some process) :
    pid = 1 ∧ first = some process ∨ pid = 2 ∧ second = some process ∨
      pid = 3 ∧ third = some process ∨ pid = 4 ∧ fourth = some process := by
  simp only [lineage, Function.update_apply] at there
  grind

/-- Nothing changes when a process exits whose children are none of the four. -/
theorem lineage_reparent {gone newParentPid : UInt64}
    (childless : ∀ {pid process}, lineage first second third fourth pid = some process →
      process.parentPid ≠ gone) :
    (fun other => (lineage first second third fourth other).map
      (Process.reparent gone newParentPid)) = lineage first second third fourth := by
  funext other
  cases here : lineage first second third fourth other with
  | none => rfl
  | some process => rw [Option.map_some, Process.reparent, if_neg (childless here)]

end Lineage

/-- A machine in which pids 1 and 2 wait for any child, while the child of the second one runs. -/
structure Machine.Generations (m : Machine) (first second third : Process)
    (pctx saved : ProcessContext) : Prop where
  running : ∃ frame, m.control = .user frame
  current : m.kernel.getCurrentProcess = some third
  pids : first.pid = 1 ∧ second.pid = 2 ∧ third.pid = 3
  parents : first.parentPid = 0 ∧ second.parentPid = 1 ∧ third.parentPid = 2
  any : pctx.x.get 0 = 0
  entries : m.entries =
    lineage (some (first.waiting pctx)) (some (second.waiting saved)) (some third) none
  nextPid : m.kernel.nextPid = 4

/-- Pid 1 can fork and wait for any child, so that its child runs. -/
theorem wordsStart_descends (count : Nat) (few : count ≤ 48) : ∃ (boot m next : Machine)
    (first second : Process) (frame : ExceptionContext) (pctx : ProcessContext),
    Machine.Booted wordsFiles wordsStart boot ∧ boot.Goes wordsFiles (.schedule false) m ∧
      next.Orderly 46 count ∧ m.Descends wordsFiles next frame first second pctx ∧
      first.pid = 1 ∧ first.parentPid = 0 ∧ second.pid = 2 ∧ next.kernel.nextPid = 3 ∧
      next.entries = Function.update (Function.update (fun _ => none) 1
        (some (first.waiting pctx))) 2 (some second) := by
  obtain ⟨boot, m, first, frame, booted, goes, orderly, running, current, pidFirst, parentFirst, here,
    nextPid⟩ := wordsStart_init (count + 1) (by omega)
  -- Pid 1 is alone, so nobody else is ready.
  have others : ∀ pid process, m.entries pid = some process →
      pid = first.pid ∨ process.state = .blocked := by
    intro pid process inTable
    rw [here, Function.update_apply] at inTable
    split at inTable
    · rename_i isFirst
      exact Or.inl (isFirst.trans pidFirst.symm)
    · cases inTable
  obtain ⟨next, second, pctx, orderly, descends⟩ :=
    orderly.descends wordsFiles_loadsFresh running current others
  -- The second process has the pid after that of the first.
  have pidSecond : second.pid = 2 := descends.pid.trans nextPid
  have nextPidNext : next.kernel.nextPid = 3 := by
    rw [descends.nextPid, nextPid]
    rfl
  have entries := descends.entries
  rw [here, pidFirst, pidSecond, Function.update_idem] at entries
  exact ⟨boot, m, next, first, second, frame, pctx, booted, goes, orderly, descends, pidFirst,
    parentFirst, pidSecond, nextPidNext, entries⟩

/-- The small program can bring about three generations. -/
theorem wordsStart_generations : ∃ (boot m : Machine) (first second third : Process)
    (pctx saved : ProcessContext), Machine.Booted wordsFiles wordsStart boot ∧
      Machine.Runs wordsFiles (Machine.ExecsWell wordsFiles) boot m ∧ m.Orderly 46 1 ∧
      m.Generations first second third pctx saved := by
  obtain ⟨boot, _, middle, first, second, _, pctx, booted, goes, orderly, toSecond, pidFirst,
    parentFirst, pidSecond, nextPidSecond, entriesSecond⟩ := wordsStart_descends 2 (by decide)
  obtain ⟨frame, running⟩ := toSecond.running
  -- The first process waits, so the second one does the same.
  have othersSecond : ∀ pid process, middle.entries pid = some process →
      pid = second.pid ∨ process.state = .blocked := by
    intro pid process inTable
    rw [entriesSecond, Function.update_apply, Function.update_apply] at inTable
    split at inTable
    · rename_i isSecond
      exact Or.inl (isSecond.trans pidSecond.symm)
    · split at inTable
      · cases inTable
        exact Or.inr rfl
      · cases inTable
  obtain ⟨last, third, saved, orderly, toThird⟩ :=
    orderly.descends wordsFiles_loadsFresh running toSecond.current othersSecond
  have pidThird := toThird.pid
  have nextPidThird := toThird.nextPid
  have entriesThird := toThird.entries
  rw [nextPidSecond] at pidThird nextPidThird
  rw [entriesSecond, pidSecond, pidThird, Function.update_idem] at entriesThird
  have entriesLast : last.entries =
      lineage (some (first.waiting pctx)) (some (second.waiting saved)) (some third) none := by
    rw [entriesThird]
    exact (Function.update_eq_self (4 : UInt64) _).symm
  exact ⟨boot, last, first, second, third, pctx, saved, booted,
    (goes.run.trans toSecond.run).trans toThird.run, orderly, toThird.running, toThird.current,
    ⟨pidFirst, pidSecond, pidThird⟩,
    ⟨parentFirst, toSecond.parent.trans pidFirst, toThird.parent.trans pidSecond⟩, toSecond.any,
    entriesLast, nextPidThird⟩

/-- The child of the third process can exit first, so that the exit of its parent strands it. -/
theorem Machine.Generations.bereaves {m : Machine} {first second third : Process}
    {pctx saved : ProcessContext} (family : m.Generations first second third pctx saved)
    (orderly : m.Orderly 46 1) :
    ∃ back process frame, Machine.Runs wordsFiles (Machine.ExecsWell wordsFiles) m back ∧
      back.Orderly 46 0 ∧ back.control = .user frame ∧
      back.kernel.getCurrentProcess = some process ∧ back.tree.Strands process := by
  -- The three processes have their pids and parents by construction.
  obtain ⟨frame, running⟩ := family.running
  obtain ⟨pidFirst, pidSecond, pidThird⟩ := family.pids
  obtain ⟨parentFirst, parentSecond, parentThird⟩ := family.parents
  -- The third process has a child, which is scheduled when the time slice of its parent ends.
  obtain ⟨forked, parent, fourth, runForks, orderly, hasForked⟩ :=
    orderly.forks wordsFiles_loadsFresh running family.current
  obtain ⟨frame, running⟩ := hasForked.running
  obtain ⟨_, isParent⟩ := hasForked.same
  -- The fourth process has the pid that is free.
  have pidParent : parent.pid = 3 := by
    rw [isParent]
    exact pidThird
  have pidFourth : fourth.pid = 4 := hasForked.pid.trans family.nextPid
  have parentFourth : fourth.parentPid = 3 := hasForked.parent.trans pidParent
  have entriesForked := hasForked.entries
  rw [family.entries, pidParent, pidFourth, lineage_update_third, lineage_update_fourth]
    at entriesForked
  have hereFourth : forked.entries fourth.pid = some fourth := by
    rw [entriesForked, pidFourth]
    rfl
  -- Only the fourth one is ready.
  have onlyFourth : ∀ found process, forked.entries found = some process →
      process.state = .ready → found = fourth.pid := by
    intro found process here isReady
    rw [entriesForked] at here
    rcases lineage_eq_some here with ⟨-, same⟩ | ⟨-, same⟩ | ⟨-, same⟩ | ⟨rfl, -⟩
    · cases same
      cases isReady
    · cases same
      cases isReady
    · have state := (orderly.valid.runs running hasForked.current).state
      rw [Option.some.inj same, isReady] at state
      cases state
    · exact pidFourth.symm
  obtain ⟨ended, loaded, yielding, ends, loads, orderly, hasYielded⟩ := orderly.yields
    wordsFiles_loadsFresh running hasForked.current hereFourth hasForked.ready onlyFourth
  obtain ⟨frame, running⟩ := hasYielded.running
  obtain ⟨_, isYielding⟩ := hasYielded.same
  -- The third process is put aside, and the fourth is loaded.
  have pidYielding : yielding.pid = 3 := by
    rw [isYielding]
    exact pidParent
  have readyYielding : yielding.state = .ready := by
    rw [isYielding]
  have entriesLoaded := hasYielded.entries
  rw [entriesForked, pidParent, pidFourth, lineage_update_third, lineage_update_fourth]
    at entriesLoaded
  -- That child exits, which nobody waits for.
  have above : loaded.entries fourth.parentPid = some yielding := by
    rw [entriesLoaded, parentFourth]
    rfl
  obtain ⟨exited, gone, runExits, orderly, hasExited⟩ := orderly.exits wordsFiles_loadsFresh running
    hasYielded.current above (by rw [readyYielding]; decide)
  obtain ⟨frame, looping⟩ := hasExited.looping
  obtain ⟨_, _, isGone⟩ := hasExited.same
  -- The entry of the fourth process stays, as one that has terminated.
  have pidGone : gone.pid = 4 := by
    rw [isGone]
    exact pidFourth
  have entriesExited := hasExited.entries
  rw [entriesLoaded, pidGone, lineage_update_fourth] at entriesExited
  have parentYielding : yielding.parentPid = 2 := by
    rw [isYielding, isParent]
    exact parentThird
  have parentGone : gone.parentPid = 3 := by
    rw [isGone]
    exact parentFourth
  -- The fourth process has no child that could be given to pid 1.
  rw [lineage_reparent fun {pid process} here => ?childless] at entriesExited
  case childless =>
    rcases lineage_eq_some here with ⟨-, same⟩ | ⟨-, same⟩ | ⟨-, same⟩ | ⟨-, same⟩
    · rw [← Option.some.inj same]
      show first.parentPid ≠ 4
      rw [parentFirst]
      decide
    · rw [← Option.some.inj same]
      show second.parentPid ≠ 4
      rw [parentSecond]
      decide
    · rw [← Option.some.inj same, parentYielding]
      decide
    · rw [← Option.some.inj same, parentGone]
      decide
  -- Only the third one is ready.
  have onlyThird : ∀ found process, exited.entries found = some process →
      process.state = .ready →
      found = 3 ∨ (exited.kernel.getCurrentProcess = some process ∧ found ≠ 3) := by
    intro found process here isReady
    rw [entriesExited] at here
    rcases lineage_eq_some here with ⟨-, same⟩ | ⟨-, same⟩ | ⟨rfl, same⟩ | ⟨-, same⟩
    · cases same
      cases isReady
    · cases same
      cases isReady
    · exact Or.inl rfl
    · rw [← Option.some.inj same, isGone] at isReady
      cases isReady
  have hereThird : exited.entries 3 = some yielding := by
    rw [entriesExited]
    rfl
  obtain ⟨back, goesOn, orderly, hasLoaded⟩ :=
    orderly.schedules wordsFiles_loadsFresh looping hereThird readyYielding onlyThird
  obtain ⟨frame, running⟩ := hasLoaded.running
  have entriesBack := hasLoaded.entries
  rw [entriesExited, pidYielding, lineage_update_third] at entriesBack
  refine ⟨back, { yielding with state := .running }, frame,
    ((((runForks.trans ends.run).trans loads.run).trans runExits).trans goesOn.run), orderly, running,
    hasLoaded.current, ?_, first.waiting pctx, gone, ?_, ⟨rfl, rfl⟩, family.any, ?_, ?_, ?_⟩
  · -- Its parent is not pid 1, and pid 1 waits for any child of its own.
    show yielding.parentPid ≠ 1
    rw [parentYielding]
    decide
  · show back.entries 1 = _
    rw [entriesBack]
    rfl
  · show back.entries gone.pid = _
    rw [entriesBack, pidGone]
    rfl
  · show gone.parentPid = yielding.pid
    rw [parentGone, pidYielding]
  · rw [isGone]

/-- Some run of the small program strands an orphan, so that pid 1 waits in vain. -/
theorem stranded_counterexample : ∃ m, Machine.Reachable wordsFiles m ∧ ¬ m.WakesWaiters := by
  obtain ⟨boot, m, first, second, third, pctx, saved, booted, run, orderly, family⟩ :=
    wordsStart_generations
  -- The third process comes back, with a child that has terminated.
  obtain ⟨back, process, frame, runBack, orderly, running, current, strands⟩ :=
    family.bereaves orderly
  -- Now it exits as well.
  have isExit := frame.isSyscall_calling 3 (by decide) (argumentRegisters 0 0 0)
  obtain ⟨caller, mid, traps, -, step⟩ :=
    orderly.valid.calls running isExit rfl rfl wordsFiles ⟨false, false, false⟩
  obtain ⟨rfl, finds⟩ := orderly.finds current rfl traps
  obtain ⟨after, exits, -⟩ := finds.exits isExit wordsFiles
  rw [exits] at step
  have outcome := step.outcome orderly.valid
  have inVain := outcome.stranded orderly.valid ⟨⟨_, rfl⟩, current, isExit⟩
    (orderly.valid.strands_iff.mpr strands)
  -- All of this is one run from the boot.
  have whole : Machine.Runs wordsFiles (fun _ _ => True) boot back :=
    Machine.Runs.weaken (run.trans runBack) fun _ _ _ => trivial
  refine ⟨_, ⟨wordsStart, boot, booted, whole.tail ⟨_, trivial, step⟩⟩, ?_⟩
  rwa [(outcome.turn orderly.valid rfl).1.wakesWaiters_iff]

/-- A step that is no `exit` is calm. -/
theorem Machine.calm_other {action : Action}
    (other : ∀ ctx devices, action = .trap ctx devices → ¬ ctx.IsSyscall 3) : m.Calm action := by
  intro self ctx calls
  obtain ⟨⟨devices, isTrap⟩, -, isExit⟩ := calls
  exact absurd isExit (other ctx devices isTrap)

/-- Nobody exits while a process forks and starts to wait. -/
theorem Machine.Descends.calm {next : Machine} {frame : ExceptionContext} {process child : Process}
    {pctx : ProcessContext} (descends : m.Descends files next frame process child pctx) :
    Machine.Runs files Machine.Calm m next := by
  have calls : ∀ {m : Machine} (context : ExceptionContext) (number : Nat)
      (registers : Vector UInt64 31),
      number < 2 ^ 16 → number ≠ 3 →
        m.Calm (.trap (context.calling number registers) ⟨false, false, false⟩) :=
    fun context number registers fits other => Machine.calm_other fun ctx devices same isExit => by
      cases same
      exact other ((context.isSyscall_calling number fits registers).unique isExit)
  obtain ⟨forked, waits, context, forks, left, loads⟩ := descends.steps
  exact ((Relation.ReflTransGen.single
    ⟨_, calls _ 4 _ (by decide) (by decide), forks.2⟩).tail
    ⟨_, calls _ 6 _ (by decide) (by decide), left.2⟩).tail
    ⟨_, Machine.calm_other (by simp), loads.2⟩

/-- Pid 1 does not wait in vain when its child exits. -/
theorem wakesWaiters_words : ∃ (boot m next : Machine) (frame : ExceptionContext),
    Machine.Booted wordsFiles wordsStart boot ∧
    Machine.Runs wordsFiles Machine.Calm boot m ∧
    m.Step wordsFiles (.trap (frame.calling 3 (argumentRegisters 7 0 0)) ⟨false, false, false⟩)
      (.ok next) ∧
    m.WakesWaiters ∧ next.WakesWaiters := by
  obtain ⟨boot, first, m, init, child, _, pctx, booted, goes, orderly, descends, pid, -, -, -,
    entries⟩ := wordsStart_descends 0 (by decide)
  obtain ⟨frame, running⟩ := descends.running
  obtain ⟨next, _, _, step, -⟩ :=
    orderly.exits_goes wordsFiles_loadsFresh running descends.current 7
  have run : Machine.Runs wordsFiles Machine.Calm boot m :=
    (Relation.ReflTransGen.single ⟨_, Machine.calm_other (by simp), goes.2⟩).trans descends.calm
  -- The parent of the child that exits is pid 1 itself, so it strands nobody.
  have calm : m.Calm (.trap (frame.calling 3 (argumentRegisters 7 0 0)) ⟨false, false, false⟩) := by
    intro self ctx calls strands
    obtain ⟨-, current, -⟩ := calls
    have same : self = child := Option.some.inj (current.symm.trans descends.current)
    exact strands.1 (by rw [same, descends.parent, pid])
  obtain ⟨wakes, wakesNext⟩ := booted.wakesWaiters_iff_calm run
  exact ⟨boot, m, next, frame, booted, run, step.2, wakes, (wakesNext _ _ step.2).mpr calm⟩

end Orphan

end AtOS
