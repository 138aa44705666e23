import AtOS.Processes.Moves

/-! Why processes are blocked: on a channel inside the kernel, or in `wait` for a child. -/

namespace AtOS

variable {t next : ProcessTree} {self : Process}

/-- State, channel and reason of a process agree with whether it sleeps inside the kernel. -/
structure Process.BlocksProperly (process : Process) (inKernel : Bool) : Prop where
  channel : process.chan ≠ 0 ↔ process.state = .blocked ∧ inKernel = true
  reason : process.state = .blocked →
    (process.blockReason = some .waitingForChild ↔ inKernel = false)
  inside : inKernel = true → process.state = .blocked ∨ process.state = .ready

/-- A process that is not blocked and not inside the kernel has no channel. -/
theorem Process.BlocksProperly.ofActive {process : Process} (channel : process.chan = 0)
    (active : process.state ≠ .blocked) : process.BlocksProperly false :=
  ⟨by simp [channel], fun blocked => absurd blocked active, fun inside => by cases inside⟩

/-- The running process has no channel and is not asleep inside the kernel. -/
theorem Process.BlocksProperly.running {process : Process} {inKernel : Bool}
    (proper : process.BlocksProperly inKernel) (runs : process.state = .running) :
    process.chan = 0 ∧ inKernel = false := by
  constructor
  · by_contra channel
    have asleep := (proper.channel.mp channel).1
    rw [runs] at asleep
    cases asleep
  · cases inKernel with
    | false => rfl
    | true =>
      rcases proper.inside rfl with blocked | ready
      · rw [runs] at blocked
        cases blocked
      · rw [runs] at ready
        cases ready

/-- Waking up keeps state, channel and reason in agreement. -/
theorem Process.BlocksProperly.wakeup {process : Process} {inKernel : Bool}
    (proper : process.BlocksProperly inKernel) (channel : UInt64) :
    (process.wakeup channel).BlocksProperly inKernel := by
  unfold Process.wakeup
  split
  · rename_i woken
    constructor
    · simp
    · intro blocked
      cases blocked
    · exact fun _ => Or.inr rfl
  · exact proper

/-- All processes agree with who sleeps inside the kernel, and nobody else does. -/
structure ProcessTree.Blocking (t : ProcessTree) : Prop where
  proper : ∀ {pid process}, t.entries pid = some process →
    process.BlocksProperly (t.inKernel pid)
  inside : ∀ {pid}, t.inKernel pid = true → (t.entries pid).isSome

/-- One process may change if it agrees afterwards. -/
theorem ProcessTree.Blocking.update (blocking : t.Blocking) {pid : UInt64}
    {process : Option Process}
    (entries : next.entries = Function.update t.entries pid process)
    (others : ∀ other, other ≠ pid → next.inKernel other = t.inKernel other)
    (proper : ∀ changed, process = some changed → changed.BlocksProperly (next.inKernel pid))
    (present : process = none → next.inKernel pid = false) : next.Blocking := by
  -- Nobody but the changed process is looked at again.
  constructor
  case proper =>
    intro other changed here
    rw [entries, Function.update_apply] at here
    split at here
    · rename_i same
      rw [same]
      exact proper changed here
    · rename_i distinct
      rw [others other distinct]
      exact blocking.proper here
  case inside =>
    intro other asleep
    rw [entries, Function.update_apply]
    split
    · rename_i same
      rw [same] at asleep
      cases process with
      | none =>
        rw [present rfl] at asleep
        cases asleep
      | some changed => rfl
    · rename_i distinct
      rw [others other distinct] at asleep
      exact blocking.inside asleep

/-- All processes may change if they agree afterwards. -/
theorem ProcessTree.Blocking.mapAll (blocking : t.Blocking) {change : Process → Process}
    (proper : ∀ process inKernel, Process.BlocksProperly process inKernel →
      (change process).BlocksProperly inKernel) : (t.mapAll change).Blocking := by
  constructor
  case proper =>
    intro pid changed here
    obtain ⟨process, there, rfl⟩ := Option.map_eq_some_iff.mp here
    exact proper process _ (blocking.proper there)
  case inside =>
    intro pid asleep
    rw [ProcessTree.mapAll_entries, Option.isSome_map]
    exact blocking.inside asleep

/-- Only the processes and who sleeps inside the kernel matter. -/
theorem ProcessTree.Blocking.congr (blocking : t.Blocking) (entries : next.entries = t.entries)
    (inKernel : next.inKernel = t.inKernel) : next.Blocking :=
  ⟨fun here => by rw [inKernel]; exact blocking.proper (entries ▸ here),
    fun asleep => by rw [entries]; exact blocking.inside (inKernel ▸ asleep)⟩

/-- The running process has no channel and is not asleep inside the kernel. -/
theorem ProcessTree.Blocking.running (blocking : t.Blocking) (formed : t.WellFormed)
    (runs : t.running = some self.pid) (here : t.entries self.pid = some self) :
    self.chan = 0 ∧ t.inKernel self.pid = false :=
  (blocking.proper here).running (formed.one.state runs here)

/-- The running process may become another one that is not blocked. -/
theorem ProcessTree.Blocking.setActive (blocking : t.Blocking) (formed : t.WellFormed)
    (runs : t.running = some self.pid) (here : t.entries self.pid = some self) {changed : Process}
    (entries : next.entries = Function.update t.entries self.pid (some changed))
    (inKernel : next.inKernel = t.inKernel) (channel : changed.chan = self.chan)
    (active : changed.state ≠ .blocked) : next.Blocking := by
  obtain ⟨noChannel, outside⟩ := blocking.running formed runs here
  refine blocking.update entries (fun _ _ => by rw [inKernel]) ?_ (fun none => by cases none)
  rintro _ ⟨rfl⟩
  rw [inKernel, outside]
  exact .ofActive (channel.trans noChannel) active

/-- A process that terminates was active, and re-parenting changes no state. -/
theorem ProcessTree.Blocking.terminated (blocking : t.Blocking) (formed : t.WellFormed)
    (runs : t.running = some self.pid) (here : t.entries self.pid = some self) (code : UInt64) :
    (t.terminated self code).Blocking := by
  have gone : (t.set self.pid (some
      { self with exitCode := code.toInt64, state := .terminated })).Blocking :=
    blocking.setActive formed runs here rfl rfl rfl (by simp)
  refine (gone.mapAll fun process inKernel proper => ?_).congr rfl rfl
  rw [Process.reparent_eq]
  exact ⟨proper.channel, proper.reason, proper.inside⟩

/-- A waiting process is not asleep inside the kernel, and has no channel. -/
theorem Process.IsWaitingFor.outside {parent : Process} {child : UInt64} {inKernel : Bool}
    (waits : parent.IsWaitingFor child) (proper : parent.BlocksProperly inKernel) :
    parent.chan = 0 ∧ inKernel = false := by
  have outside := (proper.reason waits.blocked).mp waits.reason
  subst outside
  refine ⟨?_, rfl⟩
  by_contra channel
  cases (proper.channel.mp channel).2

/-- Every move keeps the agreement. -/
theorem ProcessTree.Move.blocking (move : t.Move next) (formed : t.WellFormed)
    (blocking : t.Blocking) : next.Blocking := by
  -- Only `fork`, a settled exit and the two context switches change who sleeps in the kernel.
  cases move with
  | save runs here pctx =>
    have state := formed.one.state runs here
    exact blocking.setActive formed runs here rfl rfl rfl (by simp [state])
  | wakeup proper => exact blocking.mapAll fun _ _ before => before.wakeup _
  | preempt runs here saved => exact blocking.setActive formed runs here rfl rfl rfl (by simp)
  | exec runs here pctx name =>
    have state := formed.one.state runs here
    exact blocking.setActive formed runs here rfl rfl rfl (by simp [state])
  | @fork self child runs here room pid parent ready awake =>
    refine blocking.update rfl (fun _ _ => rfl) ?_ (fun none => by cases none)
    rintro _ ⟨rfl⟩
    -- The pid is new, so nobody of that pid sleeps inside the kernel.
    have outside : t.inKernel child.pid = false := by
      by_contra asleep
      rw [Bool.not_eq_false] at asleep
      obtain ⟨other, there⟩ := Option.isSome_iff_exists.mp (blocking.inside asleep)
      have below := formed.rooted.below there
      rw [pid] at below
      exact absurd below (Nat.lt_irrefl _)
    show child.BlocksProperly (t.inKernel child.pid)
    rw [outside]
    exact .ofActive awake (by simp [ready])
  | exit runs here code unheard => exact blocking.terminated formed runs here code
  | @exitDelivered self parent runs here code above waits =>
    have after := blocking.terminated formed runs here code
    -- A parent that waits in `wait` is not asleep in the kernel, so waking it up is enough.
    obtain ⟨noChannel, outside⟩ := waits.outside (after.proper above)
    have pid := (formed.rooted.terminated here code).key above
    have woken : ((t.terminated self code).set parent.pid (some
        { parent with state := .ready, pctx := parent.pctx.deliver self.pid code })).Blocking := by
      refine after.update rfl (fun _ _ => rfl) ?_ (fun none => by cases none)
      rintro _ ⟨rfl⟩
      show Process.BlocksProperly _ ((t.terminated self code).inKernel parent.pid)
      rw [pid, outside]
      exact .ofActive noChannel (by simp)
    -- The child that leaves was running, so it is not asleep in the kernel either.
    refine woken.update rfl (fun _ _ => rfl) (fun _ none => by cases none) fun _ => ?_
    exact (blocking.running formed runs here).2
  | @reap self child runs here target there awaited ended =>
    refine blocking.update rfl (fun _ _ => rfl) (fun _ none => by cases none) fun _ => ?_
    -- A terminated process is not asleep, neither blocked nor ready.
    show t.inKernel child.pid = false
    by_contra asleep
    rw [Bool.not_eq_false] at asleep
    rcases (blocking.proper there).inside asleep with blocked | ready
    · simp [ended] at blocked
    · simp [ended] at ready
  | notFound runs here target none => exact blocking.congr rfl rfl
  | @await self child runs here saved there awaited alive =>
    -- The process stays in `wait` and not in `sleep`, so it has no channel.
    obtain ⟨noChannel, outside⟩ := blocking.running formed runs here
    refine blocking.update rfl (fun _ _ => rfl) ?_ (fun none => by cases none)
    rintro _ ⟨rfl⟩
    show Process.BlocksProperly _ (t.inKernel self.pid)
    rw [outside]
    exact ⟨by simp [noChannel], by simp, by simp⟩
  | @sleep self runs here channel proper reason other pctx =>
    refine blocking.update rfl ?_ ?_ (fun none => by cases none)
    · -- Nobody else goes to sleep.
      intro pid distinct
      exact Function.update_of_ne distinct ..
    · rintro _ ⟨rfl⟩
      simp only [Function.update_self]
      exact ⟨by simp [proper], by simp [other], by simp⟩
  | @load self idle here ready =>
    refine blocking.update rfl ?_ ?_ (fun none => by cases none)
    · -- Nobody else wakes up.
      intro pid distinct
      exact Function.update_of_ne distinct ..
    · rintro _ ⟨rfl⟩
      simp only [Function.update_self]
      -- The process leaves the kernel, and being ready it has no channel.
      refine .ofActive ?_ (by simp)
      by_contra channel
      have blocked := ((blocking.proper here).channel.mp channel).1
      simp [ready] at blocked

end AtOS
