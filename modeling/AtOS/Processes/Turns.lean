import AtOS.Processes.Outcomes

/-! Each step of the machine is a turn of the tree of processes, and keeps it clear who runs. -/

namespace AtOS

open SlotTable

variable {files : String → Option (List UInt8)} {m next : Machine} {t : ProcessTree}

/-- What comes before the move of a step: registers are saved, and readers of the UART woken. -/
inductive ProcessTree.Prelude (t : ProcessTree) : ProcessTree → Prop
  | nothing : Prelude t t
  | awoken (uartReady : Bool) : Prelude t (t.awoken uartReady)
  | saved {self : Process} (runs : t.running = some self.pid)
      (here : t.entries self.pid = some self) (pctx : ProcessContext) (uartReady : Bool) :
      Prelude t ((t.saved self pctx).awoken uartReady)

/-- What one step of the machine does to the tree: at most one move, after a prelude. -/
inductive ProcessTree.Turn (t : ProcessTree) : ProcessTree → Prop
  | rest {mid : ProcessTree} (prelude : t.Prelude mid) : Turn t mid
  | move {mid next : ProcessTree} (prelude : t.Prelude mid) (move : mid.Move next) : Turn t next

/-- A prelude is made of moves, none of which changes who runs. -/
theorem ProcessTree.Prelude.induction {motive : ProcessTree → Prop} {mid : ProcessTree}
    (prelude : t.Prelude mid) (start : motive t)
    (step : ∀ {before after : ProcessTree}, before.running = t.running → motive before →
      before.Move after → after.running = t.running → motive after) : motive mid := by
  have wake : ∀ {before : ProcessTree} (uartReady : Bool), before.running = t.running →
      motive before → motive (before.awoken uartReady) := by
    intro before uartReady runs holds
    unfold ProcessTree.awoken
    split
    · exact step runs holds (.wakeup (by decide)) runs
    · exact holds
  cases prelude with
  | nothing => exact start
  | awoken uartReady => exact wake uartReady rfl start
  | saved runs here pctx uartReady =>
    exact wake uartReady rfl (step rfl start (.save runs here pctx) rfl)

/-- A prelude changes nobody's turn. -/
theorem ProcessTree.Prelude.running {mid : ProcessTree} (prelude : t.Prelude mid) :
    mid.running = t.running :=
  prelude.induction (motive := fun mid => mid.running = t.running) rfl fun _ _ _ same => same

/-- What comes before a move keeps the invariant. -/
theorem ProcessTree.Prelude.invariant {mid : ProcessTree} (prelude : t.Prelude mid)
    (invariant : t.Invariant) : mid.Invariant :=
  prelude.induction invariant fun _ before move _ => move.invariant before

/-- A turn keeps the invariant. -/
theorem ProcessTree.Turn.invariant {after : ProcessTree} (turn : t.Turn after)
    (invariant : t.Invariant) : after.Invariant := by
  cases turn with
  | rest prelude => exact prelude.invariant invariant
  | move prelude move => exact move.invariant (prelude.invariant invariant)

/-- The process the CPU works for, if the scheduler does not look for one. -/
def Machine.running (m : Machine) : Option UInt64 :=
  match m.control with
  | .user _ => m.kernel.currentPid
  | .syscall _ => m.kernel.currentPid
  | .scheduling _ _ => none

/-- The tree of processes a machine stands for. -/
def Machine.tree (m : Machine) : ProcessTree := m.kernel.tree m.inKernel m.running

/-- The processes of a valid machine have different pids. -/
theorem Machine.Valid.distinct (valid : m.Valid) : Distinct m.kernel.processTable := by
  unfold Machine.Valid at valid
  split at valid
  · obtain ⟨self, runs⟩ := valid
    exact runs.distinct
  · obtain ⟨self, runs⟩ := valid
    exact runs.distinct
  · exact valid.distinct

/-- The tree while the CPU works for a process. -/
theorem Machine.tree_runs {self : Process} (runs : m.kernel.Runs m.inKernel self)
    (busy : ∀ frame lockHeld, m.control ≠ .scheduling frame lockHeld) :
    m.tree = m.kernel.tree m.inKernel (some self.pid) := by
  unfold Machine.tree Machine.running
  cases control : m.control with
  | user frame => simp only [runs.currentPid]
  | syscall suspension => simp only [runs.currentPid]
  | scheduling frame lockHeld => exact absurd control (busy frame lockHeld)

/-- Between two processes the tree has nobody running. -/
theorem Machine.tree_scheduling {frame : ExceptionContext} {lockHeld : Bool}
    (looping : m.control = .scheduling frame lockHeld) :
    m.tree = m.kernel.tree m.inKernel none := by
  unfold Machine.tree Machine.running
  rw [looping]

/-- The tree of a valid machine keeps all that the moves keep. -/
theorem Machine.Valid.invariant (valid : m.Valid) : m.tree.Invariant := by
  cases control : m.control with
  | user frame =>
    obtain ⟨self, runs⟩ := valid.user control
    rw [m.tree_runs runs (by simp [control])]
    exact runs.invariant
  | syscall suspension =>
    obtain ⟨self, runs⟩ := valid.syscall control
    rw [m.tree_runs runs (by simp [control])]
    exact runs.invariant
  | scheduling frame lockHeld =>
    rw [m.tree_scheduling control]
    exact (valid.scheduling control).invariant

/-- A machine whose CPU works for a process. -/
theorem Machine.Valid.ofRuns {self : Process} (runs : m.kernel.Runs m.inKernel self)
    (busy : ∀ frame lockHeld, m.control ≠ .scheduling frame lockHeld) : m.Valid := by
  unfold Machine.Valid
  cases control : m.control with
  | user frame => exact ⟨self, runs⟩
  | syscall suspension => exact ⟨self, runs⟩
  | scheduling frame lockHeld => exact absurd control (busy frame lockHeld)

/-- A machine between two processes is valid when its kernel idles. -/
theorem Machine.Valid.ofIdles {frame : ExceptionContext} {lockHeld : Bool}
    (idles : m.kernel.Idles m.inKernel lockHeld) (looping : m.control = .scheduling frame lockHeld) :
    m.Valid := by
  unfold Machine.Valid
  rw [looping]
  exact idles

/-- Waking up who sleeps on a channel leaves the running process alone. -/
theorem Kernel.Runs.wakeup {k : Kernel} {inKernel : UInt64 → Bool} {self : Process}
    (runs : k.Runs inKernel self) {channel : UInt64} (proper : channel ≠ 0) :
    (k.wakeup channel).Runs inKernel self ∧
      (k.tree inKernel (some self.pid)).Move ((k.wakeup channel).tree inKernel (some self.pid)) := by
  have tree := @Kernel.tree_wakeup k inKernel (some self.pid) runs.distinct channel
  have move : (k.tree inKernel (some self.pid)).Move
      ((k.wakeup channel).tree inKernel (some self.pid)) := by
    rw [tree]
    exact .wakeup proper
  -- The process that wakes others up is running, so it is not one of them.
  have awake : self.wakeup channel = self := by
    rw [Process.wakeup, if_neg]
    rw [runs.state]
    rintro ⟨blocked, -⟩
    cases blocked
  refine ⟨⟨(runs.distinct.modifyAll (Process.wakeup_pid _)).1, move.invariant runs.invariant, ?_,
    runs.currentPid, runs.lock⟩, move⟩
  show (k.processTable k.currentProcess).map _ = some self
  rw [runs.current, Option.map_some, awake]

/-- Who sleeps inside the kernel after one process went to sleep, or came back. -/
theorem Machine.inKernel_update (suspended : UInt64 → Option Suspension) (pid : UInt64)
    (suspension : Option Suspension) :
    (fun other => (Function.update suspended pid suspension other).isSome) =
      Function.update (fun other => (suspended other).isSome) pid suspension.isSome := by
  funext other
  simp only [Function.update_apply]
  split <;> rfl

/-- A step during which the CPU works for processes. -/
theorem Machine.turn_runs {self after : Process} (runs : m.kernel.Runs m.inKernel self)
    (busy : ∀ frame lockHeld, m.control ≠ .scheduling frame lockHeld)
    (runsAfter : next.kernel.Runs next.inKernel after)
    (busyAfter : ∀ frame lockHeld, next.control ≠ .scheduling frame lockHeld)
    (turn : (m.kernel.tree m.inKernel (some self.pid)).Turn
      (next.kernel.tree next.inKernel (some after.pid))) :
    next.Valid ∧ m.tree.Turn next.tree := by
  rw [m.tree_runs runs busy, next.tree_runs runsAfter busyAfter]
  exact ⟨.ofRuns runsAfter busyAfter, turn⟩

/-- A step in which the running process goes to sleep. -/
theorem Machine.turn_slept {self : Process} (runs : m.kernel.Runs m.inKernel self)
    (busy : ∀ frame lockHeld, m.control ≠ .scheduling frame lockHeld) {channel : UInt64}
    (proper : channel ≠ 0) {reason : BlockReason} (other : reason ≠ .waitingForChild)
    (ctx : ExceptionContext) (uartReady : Bool) (suspension : Suspension) :
    (m.slept self channel reason ctx uartReady suspension).Valid ∧
      m.tree.Turn (m.slept self channel reason ctx uartReady suspension).tree := by
  obtain ⟨idles, move⟩ := runs.asleep proper other (.fromEctx ctx) uartReady
  have inKernel : (m.slept self channel reason ctx uartReady suspension).inKernel =
      Function.update m.inKernel self.pid true :=
    Machine.inKernel_update m.suspended self.pid (some suspension)
  rw [m.tree_runs runs busy,
    (m.slept self channel reason ctx uartReady suspension).tree_scheduling rfl, inKernel]
  refine ⟨.ofIdles ?_ rfl, .move (.awoken uartReady) move⟩
  rw [inKernel]
  exact idles

/-- A step in which a process is loaded. -/
theorem Machine.turn_loaded {frame : ExceptionContext} {lockHeld : Bool}
    (looping : m.control = .scheduling frame lockHeld)
    (idles : m.kernel.Idles m.inKernel lockHeld) {slot : Fin maxProcesses} {process : Process}
    (there : m.kernel.processTable slot = some process) (ready : process.state = .ready) :
    (m.loaded slot process frame).Valid ∧ m.tree.Turn (m.loaded slot process frame).tree := by
  obtain ⟨runs, move⟩ := idles.load there ready
  have inKernel : (m.loaded slot process frame).inKernel =
      Function.update m.inKernel process.pid false :=
    Machine.inKernel_update m.suspended process.pid none
  -- A process that is loaded goes on in its program or in its call.
  have busy : ∀ frame' lockHeld, (m.loaded slot process frame).control ≠
      .scheduling frame' lockHeld := by
    intro frame' lockHeld
    unfold Machine.loaded
    dsimp only
    split <;> simp
  rw [← inKernel] at runs move
  rw [m.tree_scheduling looping, (m.loaded slot process frame).tree_runs runs busy]
  exact ⟨.ofRuns runs busy, .move .nothing move⟩

/-- A store changes no process. -/
theorem Kernel.storeByte_same (k : Kernel) (root va : Nat) (byte : UInt8) :
    k.SameProcesses (k.storeByte root va byte) := by
  unfold Kernel.storeByte
  split
  · exact ⟨_, _, rfl⟩
  · exact .refl k

/-- A change of frames and kernel stacks alone is no turn. -/
theorem Machine.turn_same (valid : m.Valid) {k : Kernel} (same : m.kernel.SameProcesses k) :
    { m with kernel := k }.Valid ∧ m.tree.Turn { m with kernel := k }.tree := by
  obtain ⟨alloc, states, rfl⟩ := same
  constructor
  · cases control : m.control with
    | user frame =>
      obtain ⟨self, runs⟩ := valid.user control
      exact .ofRuns (runs.same ⟨alloc, states, rfl⟩).1 (by simp)
    | syscall suspension =>
      obtain ⟨self, runs⟩ := valid.syscall control
      exact .ofRuns (runs.same ⟨alloc, states, rfl⟩).1 (by simp)
    | scheduling frame lockHeld =>
      have idles := valid.scheduling control
      exact .ofIdles ⟨idles.distinct, idles.invariant, idles.lock⟩ rfl
  · exact .rest .nothing

/-- A step that goes on keeps the machine valid, and is a turn of the tree. -/
theorem Machine.Outcome.turn {action : Action} {result : Except Stop Machine}
    (outcome : m.Outcome files action result) (valid : m.Valid) (goesOn : result = .ok next) :
    next.Valid ∧ m.tree.Turn next.tree := by
  cases outcome with
  | @trap frame ctx devices self mid running runs fromUser stack table entered leads reports =>
    -- The tree before the trap has the process running.
    have tree := m.tree_runs runs (by simp [running])
    have prelude : (m.kernel.tree m.inKernel (some self.pid)).Prelude
        (mid.tree m.inKernel (some self.pid)) := by
      rw [entered.tree]
      exact .saved rfl runs.here _ _
    rw [tree]
    cases handled : m.kernel.handleExceptionEl1 files devices ctx with
    | returned k ctx =>
      rw [handled] at goesOn leads
      cases goesOn
      obtain ⟨-, after, pid, runsAfter, moved⟩ := leads
      have treeAfter := @Machine.tree_runs { m with kernel := k, control := .user ctx } after
        runsAfter (by simp)
      refine ⟨.ofRuns runsAfter (by simp), ?_⟩
      rw [treeAfter, pid]
      -- A call may leave the tree as it is, or make one move in it.
      rcases moved with same | move
      · have treeSame : k.tree m.inKernel (some self.pid) = mid.tree m.inKernel (some self.pid) :=
          same
        show ProcessTree.Turn _ (k.tree m.inKernel (some self.pid))
        rw [treeSame]
        exact .rest prelude
      · exact .move prelude move
    | scheduling k ctx lockHeld =>
      rw [handled] at goesOn leads
      cases goesOn
      obtain ⟨-, idles, move⟩ := leads
      exact ⟨.ofIdles idles rfl, .move prelude move⟩
    -- An exception in a call changes nothing but what the entry saves.
    | inSyscall k ctx =>
      rw [handled] at goesOn leads
      cases goesOn
      cases leads
      have treeAfter := @Machine.tree_runs { m with kernel := mid, control := .syscall ⟨ctx, none⟩ } _
        entered.runs (by simp)
      refine ⟨.ofRuns entered.runs (by simp), ?_⟩
      rw [treeAfter]
      exact .rest prelude
    | stopped stop =>
      rw [handled] at goesOn
      cases goesOn
  -- Going to sleep is a move, and so is waking others up. The rest changes no process.
  | @sleep outer ctx devices self inside runs isFrame =>
    cases goesOn
    exact m.turn_slept runs (by simp [inside]) (by decide) (by simp) ctx _ _
  | @acquired outer ctx devices mutex retry self isMutex inside runs sought guard lock =>
    cases goesOn
    exact m.turn_runs runs (by simp [inside]) (runs.setMutex mutex _) (by simp) (.rest .nothing)
  | @acquireSleeps outer ctx devices mutex retry self isMutex inside runs sought isFrame guard lock =>
    cases goesOn
    exact m.turn_slept runs (by simp [inside]) isMutex.ne_zero (by simp) ctx _ _
  | acquireFails isMutex guard => cases goesOn
  | @released outer mutex self isMutex inside runs held guard lock owner =>
    cases goesOn
    obtain ⟨runsAfter, move⟩ := runs.wakeup isMutex.ne_zero
    exact m.turn_runs runs (by simp [inside]) (runsAfter.setMutex mutex _) (by simp [inside])
      (.move .nothing move)
  | releaseFails isMutex runs held improper panics => cases goesOn
  | finish result inside runs =>
    cases goesOn
    exact m.turn_runs runs (by simp [inside]) runs (by simp) (.rest .nothing)
  | @loaded frame lockHeld slot process uartReady looping idles there ready =>
    cases goesOn
    exact m.turn_loaded looping idles there ready
  | @idle frame lockHeld uartReady looping idles notReady blocked =>
    -- Waiting for an interrupt wakes UART sleepers up, and nobody runs before or after it.
    cases goesOn
    obtain ⟨idlesAfter, tree⟩ := idles.awake uartReady
    refine ⟨.ofIdles idlesAfter looping, ?_⟩
    have treeAfter := @Machine.tree_scheduling
      { m with kernel := m.kernel.awakeCommonChans uartReady } frame lockHeld looping
    rw [m.tree_scheduling looping, treeAfter]
    show ProcessTree.Turn _ ((m.kernel.awakeCommonChans uartReady).tree m.inKernel none)
    rw [tree]
    exact .rest (.awoken uartReady)
  | theEnd uartReady looping idles ended => cases goesOn
  | store byte low busy =>
    cases goesOn
    exact m.turn_same valid (m.kernel.storeByte_same ..)
  | stackStore byte slot inside =>
    cases goesOn
    exact m.turn_same valid (m.kernel.storeByte_same ..)

/-- The stops that remain: memory, pids, unwrapped errors, misuse of mutexes, and the end. -/
inductive Stop.Possible : Stop → Prop
  | excused {stop : Stop} (excused : stop.Excused) : Possible stop
  | guard : Possible (.failed (.acquire "guard"))
  | unlocked (mutex : UInt64) : Possible (.failed (.mutexUnlocked mutex))
  | owner (mutex : UInt64) (owner : Option UInt64) (pid : UInt64) :
      Possible (.failed (.mutexOwner mutex owner pid))
  | theEnd {k : Kernel} (ended : ∀ slot process, k.processTable slot = some process →
      process.state = .terminated) : Possible (.theEnd k)

/-- What a step of a valid machine can stop with. -/
theorem Machine.Outcome.stops {action : Action} {result : Except Stop Machine} {stop : Stop}
    (outcome : m.Outcome files action result) (stopped : result = .error stop) :
    stop.Possible := by
  -- A kernel entry, a lock operation and the scheduler can stop the system.
  cases outcome with
  | @trap frame ctx devices self mid running runs fromUser stack table entered leads reports =>
    cases handled : m.kernel.handleExceptionEl1 files devices ctx with
    | stopped other =>
      rw [handled] at leads stopped
      cases stopped
      exact .excused leads
    | returned k ctx =>
      rw [handled] at stopped
      cases stopped
    | scheduling k ctx lockHeld =>
      rw [handled] at stopped
      cases stopped
    | inSyscall k ctx =>
      rw [handled] at stopped
      cases stopped
  | acquireFails isMutex guard =>
    cases stopped
    exact .guard
  | releaseFails isMutex runs held improper panics =>
    cases stopped
    -- The three panics of `release` are a taken guard, a free lock and another owner.
    rcases panics with rfl | rfl | rfl
    · exact .guard
    · exact .unlocked _
    · exact .owner ..
  | theEnd uartReady looping idles ended =>
    cases stopped
    exact .theEnd ended
  | sleep inside runs isFrame => cases stopped
  | acquired isMutex inside runs sought guard lock => cases stopped
  | acquireSleeps isMutex inside runs sought isFrame guard lock => cases stopped
  | released isMutex inside runs held guard lock owner => cases stopped
  | finish result inside runs => cases stopped
  | loaded uartReady looping idles there ready => cases stopped
  | idle uartReady looping idles notReady blocked => cases stopped
  | store byte low busy => cases stopped
  | stackStore byte slot inside => cases stopped

end AtOS
