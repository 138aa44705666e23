import AtOS.Programs.Program

/-! The program `init`, which runs as pid 1: it starts the shell, and waits until nobody is left. -/

namespace AtOS

open SlotTable

/-- Where `init` is in its program: the system call that it makes next, printing apart. -/
inductive InitPoint where
  /-- `get_p_info`, to see whether it is pid 1. -/
  | identify
  /-- The `fork` of `spawn`. -/
  | fork
  /-- The `exec` of `spawn`, in the child. -/
  | exec
  /-- The `wait` of `spawn` for the shell. -/
  | waitShell (child : UInt64)
  /-- The `wait` of the loop, for any child. -/
  | waitAny
  /-- The wrapper `exit` was called, which asks for the pid before it leaves. -/
  | exit (code : UInt64)
  /-- The system call of `exit`. -/
  | leave (code : UInt64)
  /-- The shell runs in its place. -/
  | replaced
  deriving DecidableEq, Repr

/-- The system call that the program makes at a point, with its arguments. -/
def InitPoint.Calls : InitPoint → ExceptionContext → Prop
  | .identify, ctx => ctx.IsSyscall 10
  | .fork, ctx => ctx.IsSyscall 4
  | .exec, ctx => ctx.IsSyscall 5
  | .waitShell child, ctx => ctx.IsSyscall 6 ∧ ctx.x.get 0 = child
  | .waitAny, ctx => ctx.IsSyscall 6 ∧ ctx.x.get 0 = 0
  | .exit _, ctx => ctx.IsSyscall 10
  | .leave code, ctx => ctx.IsSyscall 3 ∧ ctx.x.get 0 = code
  | .replaced, _ => True

/--
Where the program goes with the result of its call in `x0`, as `main` and `spawn` say.

The `expect` of a `spawn` that fails panics, and the panic handler exits with 1.
-/
def InitPoint.after : InitPoint → UInt64 → InitPoint
  | .identify, pid => if pid ≠ 1 then .exit 1 else .fork
  | .fork, child => if child = failure then .exit 1 else if child = 0 then .exec else .waitShell child
  | .exec, result => if result = failure then .exit 1 else .replaced
  | .waitShell _, result => if result = failure then .exit 1 else .waitAny
  | .waitAny, result => if result = failure then .exit 0 else .waitAny
  | .exit code, _ => .leave code
  | .leave code, _ => .leave code
  | .replaced, _ => .replaced

/-- `init`, as the kernel sees it. -/
def initProgram : UserProgram InitPoint where
  Calls := InitPoint.Calls
  Goes point frame next := next = point.after (frame.x.get 0)

/-- What holds of the machine while pid 1 is at a point of its program, or in the call of it. -/
def InitPoint.Holds (m : Machine) : InitPoint → Bool → Prop
  | .identify, false => m.tree.OnlyInit
  | .fork, false => m.tree.OnlyInit
  | .waitShell child, false =>
    (∃ shell, m.tree.entries child = some shell ∧ shell.parentPid = 1) ∧
      ∀ init, m.tree.entries 1 = some init → ¬ init.Waits
  | .waitShell _, true => m.Succeeds 1
  | .waitAny, false => True
  | .waitAny, true => m.Succeeds 1
  | .exit code, false => code = 0 ∧ m.tree.OnlyInit
  | .leave code, false => code = 0 ∧ m.tree.OnlyInit
  | .leave code, true => code = 0 ∧ m.tree.OnlyInit ∧ .exited 1 0 ∈ m.kernel.log
  | _, _ => False

/-- Pid 1 is where its program can be, and has exited only if it is at the end of it. -/
structure Hosted.FollowsInit (s : Hosted InitPoint) : Prop where
  holds : s.point.Holds s.machine s.calling
  alive : s.machine.IsAlive 1 ∨ s.point = .leave 0 ∧ s.calling = true

variable {files : String → Option (List UInt8)} {m after : Machine} {action : Action}
  {pid : UInt64} {ctx : ExceptionContext} {devices : Devices} {number : Nat}

section Following

variable {s next : Hosted InitPoint}

/-- Nobody comes into the table while pid 1 is alone there and does not fork. -/
theorem Machine.Outcome.onlyInit (outcome : m.Outcome files action (.ok after)) (valid : m.Valid)
    (alone : m.tree.OnlyInit) (noFork : ∀ self ctx, m.Calls action self ctx 4 → self.pid ≠ 1) :
    after.tree.OnlyInit := by
  obtain ⟨-, turn⟩ := outcome.turn valid rfl
  intro pid process here
  rcases turn.newcomer valid.invariant here with ⟨before, there⟩ | born
  · exact alone pid before there
  · exfalso
    rcases outcome.births with same | ⟨self, ctx, calls⟩
    · exact List.cons_ne_self _ _ (born.symm.trans same)
    · -- Who forks is in the table, so it is pid 1.
      have isInit : self.pid ≠ 1 := noFork self ctx calls
      obtain ⟨-, current, -⟩ := calls
      exact isInit (alone _ _ (valid.entries_slot current))

/-- Back in its program after a call, pid 1 goes on with the result in `x0`. -/
theorem initProgram_back {point : InitPoint} {frame : ExceptionContext}
    (resumes : initProgram.Resumes 1 m point true next) (control : m.control = .user frame)
    (running : m.running = some 1) : next = ⟨m, point.after (frame.x.get 0), false⟩ := by
  obtain ⟨last, goes, isNext⟩ := resumes.back_eq control running
  have isLast : last = point.after (frame.x.get 0) := goes
  rw [isNext, isLast]

/-- Pid 1 can go on with the result in `x0`. -/
theorem initProgram_returns (point : InitPoint) {frame : ExceptionContext} {value : UInt64}
    (control : m.control = .user frame) (running : m.running = some 1)
    (result : frame.x.get 0 = value) :
    initProgram.Resumes 1 m point true ⟨m, point.after value, false⟩ := by
  subst result
  exact .back control running rfl

/-- Pid 1 waits, and comes back with the pid of a child, or because there is none. -/
theorem InitPoint.waits (point : InitPoint) {target : UInt64}
    (outcome : m.Outcome files (.trap ctx devices) (.ok after)) (valid : m.Valid)
    (running : m.running = some 1) (isWait : ctx.IsSyscall 6) (asks : ctx.x.get 0 = target)
    (proper : target ≠ failure) (alive : m.IsAlive 1)
    (asleep : point.Holds after true ↔ after.Succeeds 1)
    (succeeds : ∀ result, result ≠ failure → point.after result = .waitAny)
    (fails : (∀ other child, m.tree.entries other = some child →
      child.isAwaited 1 target = false) → (point.after failure).Holds after false)
    (resumes : initProgram.Resumes 1 after point true next) : next.FollowsInit := by
  -- Pid 1 made the call, and `wait` does not make it exit.
  have isAlive : after.IsAlive 1 := outcome.isAlive valid alive fun self asked calls => by
    cases calls.unique isWait
  -- The call returns at once, or pid 1 is put to sleep by it.
  rcases outcome.wait_trap valid running isWait with ⟨frame, control, stays, none⟩ |
    ⟨idle, awake, process, here, registers⟩
  · rw [initProgram_back resumes control stays]
    refine ⟨?_, Or.inl isAlive⟩
    by_cases failed : frame.x.get 0 = failure
    · dsimp only
      rw [failed]
      exact fails (asks ▸ none failed)
    · dsimp only
      rw [succeeds _ failed]
      exact trivial
  · rw [resumes.away_eq idle]
    refine ⟨asleep.mpr ⟨idle, awake, process, here, ?_⟩, Or.inl isAlive⟩
    -- The registers of a process that waits still hold the pid it waits for.
    rw [registers]
    exact fun same => proper (asks.symm.trans same)

/-- When pid 1 makes the call of its point, it is where its program goes. -/
theorem initProgram_follows_call {point : InitPoint}
    (outcome : m.Outcome files (.trap ctx devices) (.ok after)) (valid : m.Valid)
    (running : m.running = some 1) (calls : point.Calls ctx)
    (follows : Hosted.FollowsInit ⟨m, point, false⟩)
    (resumes : initProgram.Resumes 1 after point true next) : next.FollowsInit := by
  obtain ⟨holds, alive⟩ := follows
  have isAlive : m.IsAlive 1 := by
    rcases alive with alive | ⟨-, ready⟩
    · exact alive
    · cases ready
  -- A call other than `exit` leaves pid 1 alive, and one other than `fork` leaves it alone.
  have lives : ∀ {number}, ctx.IsSyscall number → number ≠ 3 → after.IsAlive 1 := by
    intro number isSyscall other
    exact outcome.isAlive valid isAlive fun self asked made _ =>
      other (made.unique isSyscall).symm
  -- Only `fork` brings somebody else into the tree.
  have stays : ∀ {number}, ctx.IsSyscall number → number ≠ 4 → m.tree.OnlyInit →
      after.tree.OnlyInit := by
    intro number isSyscall other alone
    exact outcome.onlyInit valid alone fun self asked made _ =>
      other (made.unique isSyscall).symm
  -- Each point of init makes its own call, and its result decides the next point.
  cases point with
  | identify =>
    obtain ⟨frame, control, runs, result⟩ := outcome.info_trap running calls
    rw [initProgram_back resumes control runs, result]
    exact ⟨stays calls (by decide) holds, Or.inl (lives calls (by decide))⟩
  | fork =>
    obtain ⟨frame, child, control, runs, there, isChild, result, positive, proper⟩ :=
      outcome.fork_trap valid running calls
    obtain ⟨validAfter, -⟩ := outcome.turn valid rfl
    rw [initProgram_back resumes control runs, result]
    refine ⟨?_, Or.inl (lives calls (by decide))⟩
    simp only [InitPoint.after, if_neg proper, if_neg positive]
    exact ⟨⟨child, there, isChild⟩, fun init here => validAfter.running_busy runs here⟩
  | exec => cases holds
  | waitShell child =>
    obtain ⟨⟨shell, there, isChild⟩, -⟩ := holds
    have proper := valid.invariant.formed.rooted.pid_ne_failure there
    refine InitPoint.waits (.waitShell child) outcome valid running calls.1 calls.2 proper isAlive Iff.rfl
      (fun result other => if_neg other) (fun none => ?_) resumes
    -- The shell is a child of pid 1, so the call finds it.
    exfalso
    have awaited := none child shell there
    have pid := valid.invariant.formed.rooted.key there
    rw [Process.isAwaited, isChild, pid] at awaited
    simp at awaited
  | waitAny =>
    refine InitPoint.waits .waitAny outcome valid running calls.1 calls.2 (by decide) isAlive Iff.rfl
      (fun result other => if_neg other) (fun none => ?_) resumes
    -- Pid 1 has no child, so nobody else is there.
    have alone := stays calls.1 (by decide) (valid.invariant.formed.rooted.onlyInit none)
    exact ⟨rfl, alone⟩
  | exit code =>
    obtain ⟨frame, control, runs, -⟩ := outcome.info_trap running calls
    rw [initProgram_back resumes control runs]
    exact ⟨⟨holds.1, stays calls (by decide) holds.2⟩, Or.inl (lives calls (by decide))⟩
  | leave code =>
    obtain ⟨zero, alone⟩ := holds
    obtain ⟨isExit, result⟩ := calls
    obtain ⟨validAfter, -⟩ := outcome.turn valid rfl
    have recorded := outcome.exits_trap running isExit
    rw [result, zero] at recorded
    -- Pid 1 has exited, so it does not come back.
    have idle : after.running ≠ some 1 := fun runs => validAfter.not_exited runs recorded
    rw [resumes.away_eq idle, zero]
    exact ⟨⟨rfl, stays isExit (by decide) alone, recorded⟩, Or.inr ⟨rfl, rfl⟩⟩
  | replaced => cases holds

/-- When pid 1 makes no call, it is where its program goes, whatever others do. -/
theorem initProgram_follows_other {point : InitPoint} {calling : Bool}
    (outcome : m.Outcome files action (.ok after)) (valid : m.Valid)
    (quiet : m.IsQuiet 1 action) (follows : Hosted.FollowsInit ⟨m, point, calling⟩)
    (resumes : initProgram.Resumes 1 after point calling next) : next.FollowsInit := by
  obtain ⟨holds, alive⟩ := follows
  obtain ⟨validAfter, -⟩ := outcome.turn valid rfl
  -- Pid 1 is in the table of every valid machine.
  have present : ∀ {m : Machine}, m.Valid → ∃ init, m.tree.entries 1 = some init := by
    intro m valid
    obtain ⟨init, here, -⟩ := valid.invariant.formed.rooted.init
    exact ⟨init, here⟩
  have stays : m.tree.OnlyInit → after.tree.OnlyInit := fun alone =>
    outcome.onlyInit valid alone (quiet.noCalls outcome (by decide))
  have lives : m.IsAlive 1 → after.IsAlive 1 := fun isAlive =>
    outcome.isAlive valid isAlive (quiet.noCalls outcome (by decide))
  -- Pid 1 is at a point of its program, or away in a call.
  cases calling with
  | false =>
    rw [resumes.ready_eq]
    have isAlive : m.IsAlive 1 := by
      rcases alive with alive | ⟨-, ready⟩
      · exact alive
      · cases ready
    refine ⟨?_, Or.inl (lives isAlive)⟩
    cases point with
    | identify => exact stays holds
    | fork => exact stays holds
    | exec => cases holds
    | waitShell child =>
      obtain ⟨⟨shell, there, isChild⟩, busy⟩ := holds
      -- The shell may exit meanwhile, but it stays in the table until pid 1 waits for it.
      obtain ⟨init, isInit⟩ := present valid
      refine ⟨?_, fun later here waits => ?_⟩
      · exact outcome.keeps_orphan valid there isChild isInit (busy init isInit)
          (quiet.noCalls outcome (by decide))
      · rcases outcome.startsWaiting valid isInit here waits with waited |
          ⟨self, ctx, calls, isPid⟩
        · exact busy init isInit waited
        · exact quiet.noCalls outcome (by decide) self ctx calls isPid
    | waitAny => exact trivial
    | exit code => exact ⟨holds.1, stays holds.2⟩
    | leave code => exact ⟨holds.1, stays holds.2⟩
    | replaced => cases holds
  | true =>
    -- Pid 1 sleeps in `wait`, or has exited.
    have sleeps : ∀ point : InitPoint, (∀ m, point.Holds m true ↔ m.Succeeds 1) →
        point ≠ .leave 0 → (∀ result, result ≠ failure → point.after result = .waitAny) →
        m.Succeeds 1 → m.IsAlive 1 ∨ point = .leave 0 ∧ true = true →
        initProgram.Resumes 1 after point true next → next.FollowsInit := by
      intro point asleep other goesOn rests alive resumes
      have isAlive : after.IsAlive 1 := lives (alive.resolve_right fun ends => other ends.1)
      rcases outcome.succeeds valid rests (present validAfter) with still | ⟨frame, control, runs,
        -- The call is over, so pid 1 goes on with waiting for any child.
        succeeds⟩
      · rw [resumes.away_eq still.idle]
        exact ⟨(asleep after).mpr still, Or.inl isAlive⟩
      · rw [initProgram_back resumes control runs, goesOn _ succeeds]
        exact ⟨trivial, Or.inl isAlive⟩
    cases point with
    | identify => cases holds
    | fork => cases holds
    | exec => cases holds
    | waitShell child =>
      exact sleeps (.waitShell child) (fun _ => Iff.rfl) (by simp) (fun result other => if_neg other) holds alive
        resumes
    | waitAny =>
      exact sleeps .waitAny (fun _ => Iff.rfl) (by simp) (fun result other => if_neg other) holds alive
        resumes
    | exit code => cases holds
    | leave code =>
      -- Pid 1 has exited, and no later step brings it back.
      obtain ⟨zero, alone, recorded⟩ := holds
      have kept := outcome.keeps_log recorded
      have idle : after.running ≠ some 1 := fun runs => validAfter.not_exited runs kept
      rw [resumes.away_eq idle, zero]
      exact ⟨⟨rfl, stays alone, kept⟩, Or.inr ⟨rfl, rfl⟩⟩
    | replaced => cases holds

/-- Every step leaves pid 1 where its program goes. -/
theorem initProgram_follows_step (step : initProgram.Step 1 files s action next)
    (valid : s.machine.Valid) (follows : s.FollowsInit) : next.FollowsInit := by
  obtain ⟨m, point, calling⟩ := s
  cases step with
  | call running ready calls step resumes =>
    have isReady : calling = false := ready
    subst isReady
    exact initProgram_follows_call (step.outcome valid) valid running calls follows resumes
  | other quiet step resumes =>
    exact initProgram_follows_other (step.outcome valid) valid quiet follows resumes

/-- At boot, pid 1 is alone, at the start of its program. -/
theorem Machine.Booted.follows {start : Kernel} {boot : Machine}
    (booted : Machine.Booted files start boot) :
    boot.Valid ∧ Hosted.FollowsInit ⟨boot, .identify, false⟩ := by
  obtain ⟨valid, init, isInit, tree⟩ := booted.tree
  refine ⟨valid, ?_, Or.inl fun code recorded => ?_⟩
  · intro pid process here
    have found : boot.tree.entries pid = some process := here
    rw [tree] at found
    change Function.update (fun _ => none) 1 (some init) pid = some process at found
    rw [Function.update_apply] at found
    split at found
    · assumption
    · cases found
  · have log : boot.kernel.log = [.created 1 init.pctx] := congrArg ProcessTree.log tree
    rw [log, List.mem_singleton] at recorded
    cases recorded

/-- A run keeps pid 1 where its program goes, and is a run of the machine. -/
theorem initProgram_follows {allowed : Machine → Action → Prop}
    (run : initProgram.Runs 1 files allowed s next) (valid : s.machine.Valid)
    (start : s.FollowsInit) :
    next.machine.Valid ∧ next.FollowsInit ∧ Machine.Runs files allowed s.machine next.machine :=
  run.induction valid start fun valid follows _ step _ =>
    initProgram_follows_step step valid follows

/-- The machine comes to its end when all have terminated. -/
theorem Machine.Outcome.theEnd_kernel {uartReady : Bool} {k : Kernel}
    (outcome : m.Outcome files (.schedule uartReady) (.error (.theEnd k))) :
    k = m.kernel ∧ ∀ slot process, m.kernel.processTable slot = some process →
      process.state = .terminated := by
  generalize ends : (.error (.theEnd k) : Except Stop Machine) = result at outcome
  cases outcome with
  | loaded uartReady looping idles there ready => cases ends
  | idle uartReady looping idles notReady blocked => cases ends
  | theEnd uartReady looping idles ended =>
    cases ends
    exact ⟨rfl, ended⟩

/-- When everybody has terminated, pid 1 has left with 0, and nobody else is there. -/
theorem Hosted.FollowsInit.ended (follows : s.FollowsInit) (valid : s.machine.Valid)
    (ended : ∀ slot process, s.machine.kernel.processTable slot = some process →
      process.state = .terminated) :
    s.point = .leave 0 ∧ s.calling = true := by
  rcases follows.alive with alive | left
  · obtain ⟨init, here, -⟩ := valid.invariant.formed.rooted.init
    obtain ⟨slot, there, -⟩ := Machine.slot_of_entries here
    exact absurd (valid.invariant.statuses.code here (ended slot init there)) (alive _)
  · exact left

end Following

end AtOS
