import AtOS.Processes.Rooted

/-! Every move keeps the tree of processes and the one that runs. -/

namespace AtOS

variable {t next : ProcessTree} {self : Process}

/-- The running process is alive. -/
theorem ProcessTree.WellFormed.living (formed : t.WellFormed) (runs : t.running = some self.pid)
    (here : t.entries self.pid = some self) : self.state ≠ .terminated := by
  rw [formed.one.state runs here]
  decide

/-- The pid of a process that is there. -/
theorem ProcessTree.WellFormed.pid_eq (formed : t.WellFormed) {pid : UInt64} {process : Process}
    (here : t.entries pid = some process) : process.pid = pid := formed.rooted.key here

/-- A child is not pid 1, which has no parent. -/
theorem ProcessTree.Rooted.child_ne_init (rooted : t.Rooted) {child parent : Process}
    (there : t.entries child.pid = some child) (above : t.entries child.parentPid = some parent) :
    child.pid ≠ 1 := by
  intro first
  obtain ⟨root, rootThere, orphan⟩ := rooted.init
  rw [first, rootThere, Option.some.injEq] at there
  subst there
  have positive := rooted.positive above
  rw [orphan] at positive
  exact absurd positive (by decide)

/-- The entry of a process that has terminated. -/
theorem ProcessTree.Rooted.terminated_self (rooted : t.Rooted)
    (here : t.entries self.pid = some self) (code : UInt64) :
    (t.terminated self code).entries self.pid =
      some { self with exitCode := code.toInt64, state := .terminated } := by
  rw [ProcessTree.terminated_entries, if_pos rfl, Option.map_some, Process.reparent_eq,
    if_neg (rooted.parent_ne here)]

/-- What a pid holds after the exit of a process was handed to its parent. -/
theorem ProcessTree.delivered_entries (t : ProcessTree) (parent : Process)
    (child code other : UInt64) :
    (t.delivered parent child code).entries other =
      if other = child then none
      else if other = parent.pid then
        some { parent with state := .ready, pctx := parent.pctx.deliver child code }
      else t.entries other := by
  simp only [ProcessTree.delivered, ProcessTree.set_entries]

/-- Handing the exit of a process to its parent leaves a tree. -/
theorem ProcessTree.Rooted.delivered (rooted : t.Rooted) (here : t.entries self.pid = some self)
    {code : UInt64} {parent : Process}
    (above : (t.terminated self code).entries self.parentPid = some parent)
    (waits : parent.IsWaitingFor self.pid) :
    ((t.terminated self code).delivered parent self.pid code).Rooted := by
  -- The tree after the exit is rooted, and the delivery only changes the parent and removes the
  -- child.
  have after := rooted.terminated here code
  have distinct := rooted.parent_ne here
  have pid := after.key above
  have selfThere := rooted.terminated_self here code
  -- The parent becomes ready in its place, and the child goes.
  have woken : ((t.terminated self code).set parent.pid (some
      { parent with state := .ready, pctx := parent.pctx.deliver self.pid code })).Rooted :=
    after.ofSet (pid ▸ above) rfl rfl (Process.place_eq.mpr ⟨rfl, rfl, by simp [waits.blocked]⟩)
  have notInit : self.pid ≠ 1 := @Rooted.child_ne_init _ after
    { self with exitCode := code.toInt64, state := .terminated } parent selfThere above
  refine @Rooted.remove _ _ woken { self with exitCode := code.toInt64, state := .terminated }
    ?_ rfl notInit rfl rfl
  rw [ProcessTree.set_entries, if_neg (pid ▸ distinct.symm), selfThere]

/-- Every move keeps the tree. -/
theorem ProcessTree.Move.rooted (move : t.Move next) (formed : t.WellFormed) : next.Rooted := by
  -- Only `fork` and the reaping of a child move a place. All others keep it.
  have rooted := formed.rooted
  cases move with
  | save runs here pctx => exact rooted.ofSet here rfl rfl rfl
  | wakeup proper => exact rooted.mapAll (Process.wakeup_place _)
  | preempt runs here saved =>
    have living := formed.living runs here
    exact rooted.ofSet here rfl rfl (Process.place_eq.mpr ⟨rfl, rfl, by simp [living]⟩)
  | exec runs here pctx name => exact rooted.ofSet here rfl rfl rfl
  | fork runs here room pid parent ready awake =>
    exact rooted.fork here (formed.living runs here) room pid parent rfl rfl
  | exit runs here code unheard => exact rooted.terminated here code
  | exitDelivered runs here code above waits => exact rooted.delivered here above waits
  | reap runs here target there awaited ended =>
    -- A child that is reaped is not pid 1, since pid 1 is nobody's child.
    refine rooted.remove there ended ?_ rfl rfl
    simp only [Process.isAwaited, Bool.and_eq_true, beq_iff_eq] at awaited
    exact rooted.child_ne_init there (awaited.1 ▸ here)
  | notFound runs here target none => exact rooted.congr rfl rfl
  | await runs here saved there awaited alive =>
    have living := formed.living runs here
    exact rooted.ofSet here rfl rfl (Process.place_eq.mpr ⟨rfl, rfl, by simp [living]⟩)
  | sleep runs here proper other pctx =>
    have living := formed.living runs here
    exact rooted.ofSet here rfl rfl (Process.place_eq.mpr ⟨rfl, rfl, by simp [living]⟩)
  | load idle here ready =>
    exact rooted.ofSet here rfl rfl (Process.place_eq.mpr ⟨rfl, rfl, by simp [ready]⟩)

/-- The running process stops, and is not in the running state any more. -/
theorem ProcessTree.OneRunning.stop (one : t.OneRunning) (runs : t.running = some self.pid)
    {changed : Process} (entries : next.entries = Function.update t.entries self.pid (some changed))
    (running : next.running = none) (state : changed.state ≠ .running) : next.OneRunning := by
  refine one.update entries ?_ ?_ ?_
  · intro other distinct
    simp [running, runs, distinct.symm]
  · rintro _ ⟨rfl⟩
    simp [running, state]
  · intro still
    rw [running] at still
    cases still

/-- When a process terminates, nobody runs. -/
theorem ProcessTree.OneRunning.terminated (one : t.OneRunning) (runs : t.running = some self.pid)
    (code : UInt64) : (t.terminated self code).OneRunning := by
  have stopped : OneRunning { t.set self.pid (some
      { self with exitCode := code.toInt64, state := .terminated }) with running := none } :=
    one.stop runs rfl rfl (by simp)
  exact (stopped.mapAll fun process => by rw [Process.reparent_state]).congr rfl rfl

/-- Handing the exit of a process to its parent makes nobody run. -/
theorem ProcessTree.OneRunning.delivered (one : t.OneRunning) (idle : t.running = none)
    (parent : Process) (child code : UInt64) : (t.delivered parent child code).OneRunning := by
  have woken : (t.set parent.pid (some
      { parent with state := .ready, pctx := parent.pctx.deliver child code })).OneRunning := by
    refine one.update rfl (fun _ _ => Iff.rfl) ?_ (fun _ => rfl)
    rintro _ ⟨rfl⟩
    simp [ProcessTree.set, idle]
  refine woken.update rfl (fun _ _ => Iff.rfl) ?_ ?_
  · intro _ none
    cases none
  · intro runs
    cases idle.symm.trans runs

/-- Every move keeps that only the running process is in the running state. -/
theorem ProcessTree.Move.one (move : t.Move next) (formed : t.WellFormed) : next.OneRunning := by
  -- Each move changes the one entry that the running pid names, if any.
  have one := formed.one
  cases move with
  | save runs here pctx =>
    refine one.update rfl (fun _ _ => Iff.rfl) ?_ (fun _ => rfl)
    -- The context of the running process is not its state.
    rintro _ ⟨rfl⟩
    have running := one.running here
    exact running
  | wakeup proper =>
    -- A wakeup turns blocked into ready, and neither of them is running.
    refine one.mapAll fun process => ?_
    unfold Process.wakeup
    split
    · rename_i asleep
      simp [asleep.1]
    · rfl
  | preempt runs here saved => exact one.stop runs rfl rfl (by simp)
  | exec runs here pctx name =>
    refine one.update rfl (fun _ _ => Iff.rfl) ?_ (fun _ => rfl)
    rintro _ ⟨rfl⟩
    have running := one.running here
    exact running
  | @fork self child runs here room pid parent ready awake =>
    refine one.update rfl (fun _ _ => Iff.rfl) ?_ (fun _ => rfl)
    rintro _ ⟨rfl⟩
    -- The pid of the child is new, so it is not the one that runs.
    have below := formed.rooted.below here
    have distinct : self.pid ≠ child.pid := by
      intro same
      rw [same, pid] at below
      exact absurd below (Nat.lt_irrefl _)
    simp [ProcessTree.set, ready, runs, distinct]
  | exit runs here code unheard => exact one.terminated runs code
  | exitDelivered runs here code above waits => exact (one.terminated runs code).delivered rfl _ _ _
  | reap runs here target there awaited ended =>
    refine one.update rfl (fun _ _ => Iff.rfl) ?_ ?_
    · intro _ none
      cases none
    · -- The child has terminated, so it is not the one that runs.
      intro childRuns
      have state := (one.running there).mpr childRuns
      rw [ended] at state
      cases state
  | notFound runs here target none => exact one.congr rfl rfl
  | await runs here saved there awaited alive => exact one.stop runs rfl rfl (by simp)
  | sleep runs here proper other pctx => exact one.stop runs rfl rfl (by simp)
  | load idle here ready =>
    refine one.update rfl ?_ ?_ (fun _ => rfl)
    · -- Nobody was running, so everybody else is still not.
      intro other distinct
      simp [idle, distinct.symm]
    · rintro _ ⟨rfl⟩
      simp

/-- Every move keeps the tree and the one that runs. -/
theorem ProcessTree.Move.wellFormed (move : t.Move next) (formed : t.WellFormed) :
    next.WellFormed :=
  ⟨move.rooted formed, move.one formed⟩

end AtOS
