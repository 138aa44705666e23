import AtOS.Programs.Ending
import AtOS.Resources.FrameAccount

/-! What is left in memory when `init` has exited: its own kernel stack, and nothing else. -/

namespace AtOS

open SlotTable

variable {files : String → Option (List UInt8)} {k next : Kernel} {inKernel : UInt64 → Bool}
  {self : Process} {m after : Machine} {action : Action} {ctx : ExceptionContext}
  {devices : Devices} {handled : Handled} {pid : UInt64}

section Stacks

/-- A process has given up no kernel stack that is still queued. -/
def Resources.KeepsStacks (r : Resources) (pid : UInt64) : Prop :=
  ∀ stack, r.kernelStacks stack ≠ .queuedToFree pid

/-- Only `exit` and `exec` give up a kernel stack, and only that of the process that calls them. -/
theorem Kernel.Uses.keepsStacks (uses : k.Uses files self ctx handled) (runs : k.Runs inKernel self)
    (owned : k.resources.SlotsOwned) (keeps : k.resources.KeepsStacks pid)
    (noGiving : self.pid = pid → ¬ ctx.IsSyscall 3 ∧ ¬ ctx.IsSyscall 5)
    (goesOn : handled.kernel = some next) : next.resources.KeepsStacks pid := by
  -- An `exec` gives up the stack of its own caller only.
  have executes : ∀ {bytes : List UInt8} {args : List String} {result : Except String Unit}
      {last : Kernel}, ctx.IsSyscall 5 →
      k.exec k.currentProcess self bytes args = .ok (result, last) →
      last.resources.KeepsStacks pid := by
    intro bytes args result last isExec done stack
    have other : self.pid ≠ pid := fun same => (noGiving same).2 isExec
    rcases (Kernel.exec_ends done).stacks with same | ⟨image, alloc, old, -, active, queued |
      ⟨fresh, free, allocated⟩⟩
    · rw [show last.resources.kernelStacks = k.resources.kernelStacks from same]
      exact keeps stack
    · intro here
      rw [show last.resources.kernelStacks = _ from queued, Function.update_apply] at here
      split at here
      · exact other (StackState.queuedToFree.inj here)
      · exact keeps stack here
    · -- The stack that is allocated is no queued one.
      intro here
      rw [show last.resources.kernelStacks = _ from allocated, Function.update_apply] at here
      split at here
      · cases here
      · rw [Function.update_apply] at here
        split at here
        · exact other (StackState.queuedToFree.inj here)
        · exact keeps stack here
  -- Each use of the kernel is an `exit`, an `exec`, a `fork` or leaves the stacks alone.
  cases uses with
  | stopped unwraps => cases goesOn
  | returned same holding =>
    cases goesOn
    rw [same]
    exact keeps
  | scheduling lockHeld same =>
    cases goesOn
    rw [same]
    exact keeps
  | inSyscall =>
    cases goesOn
    exact keeps
  | exited isExit active resources =>
    cases goesOn
    -- An exit queues the stack of the process that exits.
    intro stack here
    rw [resources] at here
    dsimp only at here
    rw [Function.update_apply] at here
    split at here
    · exact (noGiving (StackState.queuedToFree.inj here)).1 isExit
    · exact keeps stack here
  | @forked _ mid child slot isFork forks free next_eq resources =>
    cases goesOn
    obtain ⟨fresh, vacant, slots⟩ :=
      Kernel.forkProcess_stacks forks (runs.child_inactive owned forks)
    -- The child takes a stack that was free.
    intro stack here
    rw [resources] at here
    rw [show mid.resources.kernelStacks = _ from slots, Function.update_apply] at here
    split at here
    · cases here
    · exact keeps stack here
  | executed isExec reads file done entry resources =>
    cases goesOn
    rw [resources]
    exact executes isExec done
  | notExecuted isExec reads file fails =>
    cases goesOn
    exact executes isExec fails

/-- A process keeps its kernel stacks in a step in which it calls neither `exit` nor `exec`. -/
theorem Machine.Outcome.keepsStacks (outcome : m.Outcome files action (.ok after))
    (owned : m.kernel.resources.SlotsOwned) (keeps : m.kernel.resources.KeepsStacks pid)
    (noExit : ∀ self ctx, m.Calls action self ctx 3 → self.pid ≠ pid)
    (noExec : ∀ self ctx, m.Calls action self ctx 5 → self.pid ≠ pid) :
    after.kernel.resources.KeepsStacks pid := by
  rcases outcome.uses rfl with ⟨self, ctx, devices, mid, handled, isTrap, traps, done⟩ |
    ⟨slots, -⟩
  · obtain ⟨slots, alive⟩ := traps.runs.entered_stacks traps.fromUser traps.entry
    have calls : ∀ {number}, ctx.IsSyscall number → m.Calls action self ctx number :=
      fun isSyscall => ⟨⟨devices, isTrap⟩, traps.runs.current, isSyscall⟩
    -- Entering the exception only frees what others have queued.
    have kept : mid.resources.KeepsStacks pid := by
      intro stack queued
      have here : mid.kernelStacks stack = .queuedToFree pid := queued
      rw [slots] at here
      exact keeps stack (StackState.queued_afterFreeing.mp here).1
    refine traps.uses.keepsStacks traps.entered.runs (owned.freed slots alive) kept ?_
      (Machine.after_kernel done)
    intro same
    exact ⟨fun isExit => noExit self ctx (calls isExit) same,
      fun isExec => noExec self ctx (calls isExec) same⟩
  · -- Outside a trap the stacks are as they were.
    intro stack queued
    have here : after.kernel.kernelStacks stack = .queuedToFree pid := queued
    rw [slots] at here
    exact keeps stack here

/-- When pid 1 exits alone, the kernel stack that it gives up is the only one in use. -/
theorem Machine.Outcome.exit_stacks (outcome : m.Outcome files (.trap ctx devices) (.ok after))
    (valid : m.Valid) (running : m.running = some 1) (isExit : ctx.IsSyscall 3)
    (alone : m.tree.OnlyInit) (owned : m.kernel.resources.SlotsOwned)
    (keeps : m.kernel.resources.KeepsStacks 1) : after.kernel.stacksInUse.card = 1 := by
  obtain ⟨self, mid, handled, traps, done⟩ := outcome.traps
  -- The process that exits is pid 1.
  have isInit : self.pid = 1 := by
    obtain ⟨frame, isUser, -⟩ := traps.running
    have same := m.running_eq traps.runs (by simp [isUser])
    rw [running, Option.some.injEq] at same
    exact same.symm
  obtain ⟨slots, alive⟩ := traps.runs.entered_stacks traps.fromUser traps.entry
  have kernel := Machine.after_kernel done.symm
  -- Pid 1 holds nothing after its exit.
  have gives : after.kernel.resources.holding 1 = none := by
    have validAfter := (outcome.turn valid rfl).1
    have exiting : (1 : UInt64) ∈ after.tree.log.filterMap Event.exiting :=
      List.mem_filterMap.mpr ⟨_, outcome.exits_trap running isExit, rfl⟩
    show (after.tree.entries 1).bind Process.holding = none
    cases here : after.tree.entries 1 with
    | none => rfl
    | some init =>
      exact Process.holding_terminated
        ((validAfter.invariant.statuses.exited exiting).2 init here)
  have held : (mid.resources.holding 1).isSome := by
    rw [alive, ← isInit, traps.runs.holding]
    rfl
  -- A use after which pid 1 holds nothing is its exit.
  have uses := traps.uses
  cases uses with
  | stopped unwraps => cases kernel
  | returned same holding =>
    cases kernel
    rw [← same, gives] at held
    cases held
  | scheduling lockHeld same =>
    cases kernel
    rw [← same, gives] at held
    cases held
  | inSyscall =>
    cases kernel
    rw [gives] at held
    cases held
  | @exited next stack isExit active resources =>
    cases kernel
    have gaveUp : after.kernel.kernelStacks =
        Function.update mid.kernelStacks stack (.queuedToFree self.pid) :=
      congrArg Resources.kernelStacks resources
    -- The stack that pid 1 has given up is in use, and no other one is.
    rw [Finset.card_eq_one]
    refine ⟨stack, Finset.ext fun other => ?_⟩
    rw [Kernel.stacksInUse, Kernel.mem_stacksIn, Finset.mem_singleton, gaveUp, Function.update_apply]
    by_cases same : other = stack
    · simp [same, StackState.isQueued]
    · rw [if_neg same]
      -- No other stack is allocated, since pid 1 has one only, and none was queued.
      have mine : m.kernel.kernelStacks stack = .allocated 1 := by
        have here : mid.kernelStacks stack = .allocated self.pid :=
          Kernel.getActiveStackIndex_some active
        rw [slots, isInit] at here
        exact StackState.allocated_afterFreeing.mp here
      cases state : mid.kernelStacks other with
      | free => simp [same, StackState.isAllocated, StackState.isQueued]
      | allocated owner =>
        exfalso
        rw [slots] at state
        have here := StackState.allocated_afterFreeing.mp state
        have holds := owned.alive here
        obtain ⟨held, holds⟩ := Option.isSome_iff_exists.mp holds
        obtain ⟨slot, process, there, isOwner, -⟩ := Kernel.slot_of_holding holds
        have isOne := alone _ _ (valid.entries_slot there)
        rw [← isOwner, isOne] at here
        exact same (owned.alone here mine)
      | queuedToFree owner =>
        exfalso
        rw [slots] at state
        obtain ⟨here, isSelf⟩ := StackState.queued_afterFreeing.mp state
        rw [isSelf, isInit] at here
        exact keeps other here
  | forked isFork forks free next_eq resources =>
    cases isExit.unique isFork
  | executed isExec reads file executes entry resources =>
    cases isExit.unique isExec
  | notExecuted isExec reads file fails =>
    cases isExit.unique isExec

end Stacks

section Shutdown

variable {s next : Hosted InitPoint} {start : Kernel} {boot : Machine} {first limit : Nat}
  {point : InitPoint} {calling : Bool}

/-- `init` has exited. -/
def Hosted.IsOver (s : Hosted InitPoint) : Prop := s.point = .leave 0 ∧ s.calling = true

/-- Pid 1 keeps its kernel stack until it exits, and that is the only one in use from then on. -/
structure Hosted.KeepsStack (s : Hosted InitPoint) : Prop where
  owned : s.machine.kernel.resources.SlotsOwned
  before : ¬ s.IsOver → s.machine.kernel.resources.KeepsStacks 1
  after : s.IsOver → s.machine.kernel.stacksInUse.card = 1

/-- Going on ends no program. -/
theorem initProgram_over (resumes : initProgram.Resumes 1 m point calling next)
    (isOver : next.IsOver) : point = .leave 0 ∧ calling = true := by
  cases resumes with
  | ready => exact isOver
  | away elsewhere => exact isOver
  | back control running goes => cases isOver.2

/-- Once `init` has exited, nobody runs. -/
theorem Hosted.FollowsInit.idle (follows : s.FollowsInit) (valid : s.machine.Valid)
    (isOver : s.IsOver) : s.machine.running = none := by
  have holds := follows.holds
  rw [isOver.1, isOver.2] at holds
  obtain ⟨-, alone, recorded⟩ := holds
  rw [Option.eq_none_iff_forall_ne_some]
  intro pid running
  obtain ⟨process, here⟩ := valid.invariant.formed.one.present running
  have isInit := alone pid process here
  subst isInit
  exact valid.not_exited running recorded

/-- Nothing happens to the kernel stacks while nobody runs. -/
theorem Machine.Outcome.idle_stacks (outcome : m.Outcome files action (.ok after))
    (idle : m.running = none) : after.kernel.stacksInUse = m.kernel.stacksInUse := by
  rcases outcome.uses rfl with ⟨self, ctx, devices, mid, handled, -, traps, -⟩ | ⟨slots, -⟩
  · obtain ⟨frame, isUser, -⟩ := traps.running
    have running := m.running_eq traps.runs (by simp [isUser])
    rw [idle] at running
    cases running
  · unfold Kernel.stacksInUse Kernel.stacksIn
    rw [slots]

/-- Every step leaves pid 1 its kernel stack, until it exits. -/
theorem initProgram_keepsStack_step (step : initProgram.Step 1 files s action next)
    (valid : s.machine.Valid) (follows : s.FollowsInit) (keeps : s.KeepsStack) :
    next.KeepsStack := by
  obtain ⟨m, point, calling⟩ := s
  cases step with
  -- Pid 1 makes the call, or somebody else moves.
  | @call ctx devices last next running ready calls step resumes =>
    have isReady : calling = false := ready
    subst isReady
    have outcome := step.outcome valid
    have kept := keeps.before fun isOver => Bool.false_ne_true isOver.2
    have owned : last.kernel.resources.SlotsOwned := outcome.slotsOwned rfl keeps.owned
    -- A call that is neither `exit` nor `exec` gives up no stack.
    have goesOn : ∀ {number}, ctx.IsSyscall number → number ≠ 3 → number ≠ 5 → point ≠ .leave 0 →
        next.KeepsStack := by
      intro number isSyscall notExit notExec notLeaving
      refine ⟨?_, fun _ => ?_, fun isOver => absurd (initProgram_over resumes isOver).1 notLeaving⟩
      · rw [resumes.machine_eq]
        exact owned
      · rw [resumes.machine_eq]
        exact outcome.keepsStacks keeps.owned kept
          (fun self asked made _ => notExit (made.unique isSyscall).symm)
          fun self asked made _ => notExec (made.unique isSyscall).symm
    have holds := follows.holds
    cases point with
    | identify => exact goesOn calls (by decide) (by decide) (by decide)
    | fork => exact goesOn calls (by decide) (by decide) (by decide)
    | exec => cases holds
    | waitShell child => exact goesOn calls.1 (by decide) (by decide) (by simp)
    | waitAny => exact goesOn calls.1 (by decide) (by decide) (by decide)
    | exit code => exact goesOn calls (by decide) (by decide) (by simp)
    -- The last exit gives up the one stack that is left.
    | leave code =>
      obtain ⟨zero, alone⟩ := holds
      obtain ⟨isExit, -⟩ := calls
      refine ⟨?_, fun notOver => ?_, fun _ => ?_⟩
      · rw [resumes.machine_eq]
        exact owned
      · -- Pid 1 has exited, so it does not come back to its program.
        obtain ⟨validAfter, -⟩ := outcome.turn valid rfl
        have idle : last.running ≠ some 1 := fun runs =>
          validAfter.not_exited runs (outcome.exits_trap running isExit)
        have isZero : code = 0 := zero
        rw [resumes.away_eq idle, isZero] at notOver
        exact absurd ⟨rfl, rfl⟩ notOver
      · rw [resumes.machine_eq]
        exact outcome.exit_stacks valid running isExit alone keeps.owned kept
    | replaced => cases holds
  | @other action last next quiet step resumes =>
    have outcome := step.outcome valid
    have owned : last.kernel.resources.SlotsOwned := outcome.slotsOwned rfl keeps.owned
    refine ⟨?_, fun notOver => ?_, fun isOver => ?_⟩
    · -- Any other step gives up the stacks of others.
      rw [resumes.machine_eq]
      exact owned
    · rw [resumes.machine_eq]
      refine outcome.keepsStacks keeps.owned (keeps.before fun wasOver => ?_)
        (quiet.noCalls outcome (by decide)) (quiet.noCalls outcome (by decide))
      -- What is over stays over.
      have recorded := outcome.keeps_log (show Event.exited 1 0 ∈ m.kernel.log by
        have holds := follows.holds
        rw [wasOver.1, wasOver.2] at holds
        exact holds.2.2)
      have idle : last.running ≠ some 1 := fun runs =>
        (outcome.turn valid rfl).1.not_exited runs recorded
      rw [resumes.away_eq idle] at notOver
      exact notOver wasOver
    · have wasOver : Hosted.IsOver ⟨m, point, calling⟩ := initProgram_over resumes isOver
      rw [resumes.machine_eq, outcome.idle_stacks (follows.idle valid wasOver)]
      exact keeps.after wasOver

/-- At boot, no kernel stack is queued. -/
theorem Machine.Booted.keepsStack (booted : Machine.Booted files start boot) :
    Hosted.KeepsStack ⟨boot, .identify, false⟩ := by
  refine ⟨booted.slots.1, fun _ => ?_, fun isOver => by cases isOver.1⟩
  have fresh := booted.fresh
  obtain ⟨k, init, frame, bytes, root, loaded, last, stack, mid, -, spawned, takes, rfl⟩ :=
    booted.takes
  obtain ⟨entry, sp, -, top, allocated, -⟩ := takes.loads
  have slots : k.resources.kernelStacks =
      Function.update start.kernelStacks stack (.allocated start.nextPid) :=
    takes.kernelStacks.trans allocated.kernelStacks
  intro other queued
  rw [show _ = k.resources.kernelStacks other from rfl, slots, Function.update_apply] at queued
  split at queued
  · cases queued
  · rw [fresh.kernelStacks] at queued
    cases queued

/--
When `init` has run to its end and no `exec` has failed, all memory is free again but eight frames.

These are the six of the kernel stack of pid 1, which only another process could free, and the two
tables that map kernel stacks.
-/
theorem Machine.Booted.returnsMemory (booted : Machine.Booted files start boot)
    (prepared : start.Prepared first limit)
    (loadsFresh : ∀ path bytes, files path = some bytes → LoadsFresh bytes)
    (run : initProgram.Runs 1 files (Machine.ExecsWell files) ⟨boot, .identify, false⟩ s)
    {uartReady : Bool} {k : Kernel}
    (ends : s.machine.Step files (.schedule uartReady) (.error (.theEnd k))) :
    k.alloc.freeFrameCount + 8 = k.alloc.totalFrameCount ∧
      k.alloc.totalFrameCount = (managedFrames first limit).ncard := by
  -- The whole run follows init's program, and its stacks are followed along with it.
  obtain ⟨validBoot, atStart⟩ := booted.follows
  obtain ⟨valid, ⟨follows, keeps⟩, whole⟩ := run.induction
    (motive := fun s => s.FollowsInit ∧ s.KeepsStack) validBoot ⟨atStart, booted.keepsStack⟩
    fun valid both _ step _ =>
      ⟨initProgram_follows_step step valid both.1,
        initProgram_keepsStack_step step valid both.1 both.2⟩
  obtain ⟨rfl, ended⟩ := (ends.outcome valid).theEnd_kernel
  -- The frames of the pool are those of address spaces and stacks, and those that are free.
  obtain ⟨-, roots, free, owns, tallied⟩ := whole.tallied booted prepared loadsFresh
  obtain ⟨balance, total⟩ := owns.framesBalance valid prepared tallied
  have one := keeps.after (follows.ended valid ended)
  -- Nobody is alive, so there is no address space left.
  have nobody : s.machine.kernel.living = ∅ := by
    rw [Finset.eq_empty_iff_forall_notMem]
    intro slot living
    cases there : s.machine.kernel.processTable slot with
    | none => simp [Kernel.living, there] at living
    | some process =>
      have state := ended slot process there
      simp [Kernel.living, there, state] at living
  -- One stack is left, which is worth eight frames.
  rw [nobody, Finset.sum_empty, one] at balance
  exact ⟨by omega, total⟩

/-- The small program returns all memory but eight frames when it runs `init` to its end. -/
theorem returnsMemory_words : ∃ (boot : Machine) (s : Hosted InitPoint) (k : Kernel),
    Machine.Booted wordsFiles wordsStart boot ∧
      s.machine.Step wordsFiles (.schedule false) (.error (.theEnd k)) ∧
      k.alloc.freeFrameCount + 8 = k.alloc.totalFrameCount := by
  obtain ⟨boot, last, k, booted, run, ends⟩ := wordsStart_initEnds
  exact ⟨boot, last, k, booted, ends,
    (booted.returnsMemory wordsStart_prepared wordsFiles_loadsFresh run ends).1⟩

end Shutdown

end AtOS
