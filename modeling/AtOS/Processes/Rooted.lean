import AtOS.Processes.ProcessTree

/-! Parent links never dangle, and the running process is one: what every move keeps. -/

namespace AtOS

variable {t next : ProcessTree}

/-- The process of a pid after one pid was changed. -/
theorem ProcessTree.set_entries (t : ProcessTree) (pid other : UInt64) (process : Option Process) :
    (t.set pid process).entries other = if other = pid then process else t.entries other :=
  Function.update_apply ..

/-- The process of a pid after all were changed. -/
theorem ProcessTree.mapAll_entries (t : ProcessTree) (change : Process → Process) (pid : UInt64) :
    (t.mapAll change).entries pid = (t.entries pid).map change := rfl

/-- What decides the place of a process in the tree. -/
def Process.place (process : Process) : UInt64 × UInt64 × Bool :=
  (process.pid, process.parentPid, process.state == .terminated)

/-- Two processes have the same place exactly when pid, parent and being alive agree. -/
theorem Process.place_eq {process other : Process} : process.place = other.place ↔
    process.pid = other.pid ∧ process.parentPid = other.parentPid ∧
      (process.state = .terminated ↔ other.state = .terminated) := by
  simp only [Process.place, Prod.mk.injEq]
  cases process.state <;> cases other.state <;> simp

/-- Every process keeps its place, and no pid is taken. -/
structure ProcessTree.SamePlaces (t next : ProcessTree) : Prop where
  nextPid : next.nextPid = t.nextPid
  places : ∀ pid, (next.entries pid).map Process.place = (t.entries pid).map Process.place

/-- A process that is there afterwards was there before, in the same place. -/
theorem ProcessTree.SamePlaces.back (same : t.SamePlaces next) {pid : UInt64} {process : Process}
    (here : next.entries pid = some process) :
    ∃ before, t.entries pid = some before ∧ process.place = before.place := by
  have places := same.places pid
  rw [here, Option.map_some, eq_comm, Option.map_eq_some_iff] at places
  obtain ⟨before, there, equal⟩ := places
  exact ⟨before, there, equal.symm⟩

/-- Places can be compared in both directions. -/
theorem ProcessTree.SamePlaces.symm (same : t.SamePlaces next) : next.SamePlaces t :=
  ⟨same.nextPid.symm, fun pid => (same.places pid).symm⟩

/-- One process that keeps its place is no change of places. -/
theorem ProcessTree.SamePlaces.ofSet {self changed : Process} (here : t.entries self.pid = some self)
    (entries : next.entries = Function.update t.entries self.pid (some changed))
    (nextPid : next.nextPid = t.nextPid) (place : changed.place = self.place) :
    t.SamePlaces next := by
  refine ⟨nextPid, fun pid => ?_⟩
  rw [entries, Function.update_apply]
  split
  · rename_i same
    rw [same, here, Option.map_some, Option.map_some, place]
  · rfl

/-- Changing every process without changing its place is no change of places. -/
theorem ProcessTree.SamePlaces.mapAll {change : Process → Process}
    (place : ∀ process, (change process).place = process.place) : t.SamePlaces (t.mapAll change) := by
  refine ⟨rfl, fun pid => ?_⟩
  rw [ProcessTree.mapAll, Option.map_map]
  exact congrArg (Option.map · _) (funext place)

/-- Waking up is no change of place. -/
theorem Process.wakeup_place (channel : UInt64) (process : Process) :
    (process.wakeup channel).place = process.place := by
  unfold Process.wakeup
  split
  · rename_i asleep
    simp [Process.place, asleep.1]
  · rfl

/--
The processes form a tree under pid 1: every other process has a parent that is older than it.

Only pid 1 may have terminated before its children.
-/
structure ProcessTree.Rooted (t : ProcessTree) : Prop where
  key : ∀ {pid process}, t.entries pid = some process → process.pid = pid
  positive : ∀ {pid process}, t.entries pid = some process → 0 < pid.toNat
  below : ∀ {pid process}, t.entries pid = some process → pid.toNat < t.nextPid.toNat
  init : ∃ process, t.entries 1 = some process ∧ process.parentPid = 0
  older : ∀ {pid process}, t.entries pid = some process → pid ≠ 1 →
    process.parentPid.toNat < pid.toNat
  parent : ∀ {pid process}, t.entries pid = some process → pid ≠ 1 →
    ∃ above, t.entries process.parentPid = some above ∧
      (above.state ≠ .terminated ∨ process.parentPid = 1)

/-- Whether the processes form a tree depends on their places alone. -/
theorem ProcessTree.SamePlaces.rooted (same : t.SamePlaces next) (rooted : t.Rooted) :
    next.Rooted := by
  -- Everyone keeps pid and parent, and terminated processes stay terminated.
  constructor
  case key =>
    intro pid process here
    obtain ⟨before, there, place⟩ := same.back here
    rw [(Process.place_eq.mp place).1, rooted.key there]
  case positive =>
    intro pid process here
    obtain ⟨before, there, -⟩ := same.back here
    exact rooted.positive there
  case below =>
    intro pid process here
    obtain ⟨before, there, -⟩ := same.back here
    rw [same.nextPid]
    exact rooted.below there
  case init =>
    obtain ⟨first, there, orphan⟩ := rooted.init
    obtain ⟨after, here, place⟩ := same.symm.back there
    exact ⟨after, here, (Process.place_eq.mp place).2.1 ▸ orphan⟩
  case older =>
    intro pid process here other
    obtain ⟨before, there, place⟩ := same.back here
    rw [(Process.place_eq.mp place).2.1]
    exact rooted.older there other
  case parent =>
    intro pid process here other
    obtain ⟨before, there, place⟩ := same.back here
    obtain ⟨above, found, alive⟩ := rooted.parent there other
    obtain ⟨after, foundAfter, placeAbove⟩ := same.symm.back found
    rw [(Process.place_eq.mp place).2.1]
    refine ⟨after, foundAfter, alive.imp_left fun living gone => living ?_⟩
    exact (Process.place_eq.mp placeAbove).2.2.mpr gone

section Rooted

variable {self : Process}

/-- One process that keeps its place leaves a tree. -/
theorem ProcessTree.Rooted.ofSet (rooted : t.Rooted) {changed : Process}
    (here : t.entries self.pid = some self)
    (entries : next.entries = Function.update t.entries self.pid (some changed))
    (nextPid : next.nextPid = t.nextPid) (place : changed.place = self.place) : next.Rooted :=
  (ProcessTree.SamePlaces.ofSet here entries nextPid place).rooted rooted

/-- Changing every process without changing its place leaves a tree. -/
theorem ProcessTree.Rooted.mapAll (rooted : t.Rooted) {change : Process → Process}
    (place : ∀ process, (change process).place = process.place) : (t.mapAll change).Rooted :=
  (ProcessTree.SamePlaces.mapAll place).rooted rooted

/-- Only the processes and the next pid matter. -/
theorem ProcessTree.Rooted.congr (rooted : t.Rooted) (entries : next.entries = t.entries)
    (nextPid : next.nextPid = t.nextPid) : next.Rooted := by
  have same : t.SamePlaces next := ⟨nextPid, fun pid => by rw [entries]⟩
  exact same.rooted rooted

/-- No process is its own parent. -/
theorem ProcessTree.Rooted.parent_ne (rooted : t.Rooted) {pid : UInt64} {process : Process}
    (here : t.entries pid = some process) : process.parentPid ≠ pid := by
  by_cases first : pid = 1
  · obtain ⟨root, there, orphan⟩ := rooted.init
    rw [first, there, Option.some.injEq] at here
    subst here
    rw [orphan, first]
    decide
  · have older := rooted.older here first
    rintro rfl
    exact absurd older (Nat.lt_irrefl _)

/-- A new process under the running one fits into the tree. -/
theorem ProcessTree.Rooted.fork (rooted : t.Rooted) (here : t.entries self.pid = some self)
    (living : self.state ≠ .terminated) (room : t.nextPid.toNat + 1 < 2 ^ 64) {child : Process}
    (pid : child.pid = t.nextPid) (parent : child.parentPid = self.pid)
    (entries : next.entries = (t.set child.pid child).entries)
    (nextPid : next.nextPid = t.nextPid + 1) : next.Rooted := by
  -- The counter does not wrap around, by `room`.
  have succ : next.nextPid.toNat = t.nextPid.toNat + 1 := by
    rw [nextPid, UInt64.toNat_add]
    exact Nat.mod_eq_of_lt room
  have selfBelow := rooted.below here
  -- The new pid is larger than all others, so no entry is replaced.
  have vacant : ∀ {other process}, t.entries other = some process → other ≠ child.pid := by
    intro other process there
    have below := rooted.below there
    rintro rfl
    rw [pid] at below
    exact absurd below (Nat.lt_irrefl _)
  have kept : ∀ {other process}, t.entries other = some process →
      next.entries other = some process := by
    intro other process there
    rw [entries, ProcessTree.set_entries, if_neg (vacant there), there]
  -- An entry of the new table is the child's or an old one.
  have cases : ∀ {other process}, next.entries other = some process →
      (other = child.pid ∧ process = child) ∨ t.entries other = some process := by
    intro other process found
    rw [entries, ProcessTree.set_entries] at found
    split at found
    · rename_i same
      exact Or.inl ⟨same, (Option.some.inj found).symm⟩
    · exact Or.inr found
  -- The child is the youngest, and its parent is alive.
  constructor
  case key =>
    intro other process found
    rcases cases found with ⟨rfl, rfl⟩ | old
    · rfl
    · exact rooted.key old
  case positive =>
    intro other process found
    rcases cases found with ⟨rfl, rfl⟩ | old
    · rw [pid]
      omega
    · exact rooted.positive old
  case below =>
    intro other process found
    rcases cases found with ⟨rfl, rfl⟩ | old
    · rw [pid]
      omega
    · have below := rooted.below old
      omega
  case init =>
    obtain ⟨root, there, orphan⟩ := rooted.init
    exact ⟨root, kept there, orphan⟩
  case older =>
    intro other process found notInit
    rcases cases found with ⟨rfl, rfl⟩ | old
    · rw [parent, pid]
      exact selfBelow
    · exact rooted.older old notInit
  case parent =>
    intro other process found notInit
    -- The child's parent is alive, since it is running. Everybody else's is where it was.
    rcases cases found with ⟨rfl, rfl⟩ | old
    · rw [parent]
      exact ⟨self, kept here, Or.inl living⟩
    · obtain ⟨above, there, alive⟩ := rooted.parent old notInit
      exact ⟨above, kept there, alive⟩

/-- A terminated process whose parent is someone else can be taken out, as it has no children. -/
theorem ProcessTree.Rooted.remove (rooted : t.Rooted) {gone : Process}
    (there : t.entries gone.pid = some gone) (ended : gone.state = .terminated)
    (notInit : gone.pid ≠ 1)
    (entries : next.entries = (t.set gone.pid none).entries) (nextPid : next.nextPid = t.nextPid) :
    next.Rooted := by
  -- Nothing is added, and everybody but the one that goes stays.
  have old : ∀ {other process}, next.entries other = some process →
      t.entries other = some process := by
    intro other process found
    rw [entries, ProcessTree.set_entries] at found
    split at found
    · cases found
    · exact found
  have kept : ∀ {other process}, t.entries other = some process → other ≠ gone.pid →
      next.entries other = some process := by
    intro other process found distinct
    rw [entries, ProcessTree.set_entries, if_neg distinct, found]
  constructor
  case key => exact fun found => rooted.key (old found)
  case positive => exact fun found => rooted.positive (old found)
  case below =>
    rw [nextPid]
    exact fun found => rooted.below (old found)
  case init =>
    obtain ⟨root, found, orphan⟩ := rooted.init
    exact ⟨root, kept found (Ne.symm notInit), orphan⟩
  case older => exact fun found => rooted.older (old found)
  case parent =>
    intro other process found other1
    obtain ⟨above, foundAbove, alive⟩ := rooted.parent (old found) other1
    refine ⟨above, kept foundAbove ?_, alive⟩
    -- The parent of another process is alive or pid 1, and the one that goes is neither.
    intro same
    rw [same] at foundAbove alive
    rw [there, Option.some.injEq] at foundAbove
    subst foundAbove
    exact alive.elim (absurd ended) (absurd · notInit)

/-- What a pid holds after a process has terminated. -/
theorem ProcessTree.terminated_entries (t : ProcessTree) (self : Process) (code other : UInt64) :
    (t.terminated self code).entries other =
      ((if other = self.pid then
          some { self with exitCode := code.toInt64, state := .terminated }
        else t.entries other).map (Process.reparent self.pid 1)) := by
  simp only [ProcessTree.terminated, ProcessTree.mapAll, ProcessTree.set_entries]

/-- Re-parenting changes the parent of the children only. -/
theorem Process.reparent_eq (pid newParent : UInt64) (process : Process) :
    process.reparent pid newParent =
      { process with
        parentPid := if process.parentPid = pid then newParent else process.parentPid } := by
  unfold Process.reparent
  split <;> rfl

/-- A process keeps its pid when its parent exits. -/
@[simp] theorem Process.reparent_pid (pid newParent : UInt64) (process : Process) :
    (process.reparent pid newParent).pid = process.pid := by
  rw [Process.reparent_eq]

/-- A process keeps its state when its parent exits. -/
@[simp] theorem Process.reparent_state (pid newParent : UInt64) (process : Process) :
    (process.reparent pid newParent).state = process.state := by
  rw [Process.reparent_eq]

/-- Giving the children of a process that terminates to pid 1 leaves a tree. -/
theorem ProcessTree.Rooted.terminated (rooted : t.Rooted) (here : t.entries self.pid = some self)
    (code : UInt64) : (t.terminated self code).Rooted := by
  -- Every process that is left comes from one with the same pid, which may have had another parent.
  have back : ∀ {other process}, (t.terminated self code).entries other = some process →
      ∃ before, t.entries other = some before ∧ process.pid = before.pid ∧
        process.parentPid = (if before.parentPid = self.pid then 1 else before.parentPid) ∧
        (process.state ≠ .terminated → process.state = before.state) ∧
        (other ≠ self.pid → process.state = before.state) := by
    intro other process found
    rw [ProcessTree.terminated_entries] at found
    split at found
    · rename_i same
      rw [Option.map_some, Option.some.injEq, Process.reparent_eq] at found
      refine ⟨self, same ▸ here, ?_⟩
      rw [← found]
      exact ⟨rfl, rfl, fun living => absurd rfl living, fun distinct => absurd same distinct⟩
    · obtain ⟨before, there, changed⟩ := Option.map_eq_some_iff.mp found
      rw [Process.reparent_eq] at changed
      refine ⟨before, there, ?_⟩
      rw [← changed]
      exact ⟨rfl, rfl, fun _ => rfl, fun _ => rfl⟩
  -- Everybody is left, and whoever is no child of the one that exits keeps its parent.
  have kept : ∀ {other before}, t.entries other = some before → ∃ process,
      (t.terminated self code).entries other = some process ∧
        (other ≠ self.pid → process.state = before.state) ∧
        (before.parentPid ≠ self.pid → process.parentPid = before.parentPid) := by
    intro other before there
    rw [ProcessTree.terminated_entries]
    split
    · rename_i same
      rw [same, here, Option.some.injEq] at there
      subst there
      refine ⟨_, rfl, fun distinct => absurd same distinct, fun notChild => ?_⟩
      rw [Process.reparent_eq, if_neg notChild]
    · refine ⟨_, by rw [there, Option.map_some], fun _ => Process.reparent_state .., ?_⟩
      intro notChild
      rw [Process.reparent_eq, if_neg notChild]
  obtain ⟨root, rootThere, orphan⟩ := rooted.init
  -- Pid 1 has parent 0, and no process has pid 0, so it is not re-parented.
  have positive := rooted.positive here
  constructor
  case key =>
    intro other process found
    obtain ⟨before, there, pid, -⟩ := back found
    rw [pid, rooted.key there]
  case positive =>
    intro other process found
    obtain ⟨before, there, -⟩ := back found
    exact rooted.positive there
  case below =>
    intro other process found
    obtain ⟨before, there, -⟩ := back found
    exact rooted.below there
  case init =>
    obtain ⟨process, found, -, parentKept⟩ := kept rootThere
    refine ⟨process, found, ?_⟩
    rw [parentKept ?_, orphan]
    rw [orphan]
    intro zero
    rw [← zero] at positive
    exact absurd positive (by decide)
  case older =>
    intro other process found notInit
    obtain ⟨before, there, -, parent, -⟩ := back found
    have older := rooted.older there notInit
    have otherPositive := rooted.positive there
    rw [parent]
    split
    · -- The new parent is pid 1, and everyone else has a larger pid.
      have one : (1 : UInt64).toNat = 1 := rfl
      have distinct : other.toNat ≠ (1 : UInt64).toNat := fun same => notInit (UInt64.toNat_inj.mp same)
      omega
    · exact older
  case parent =>
    intro other process found notInit
    obtain ⟨before, there, -, parent, -⟩ := back found
    rw [parent]
    -- The new parent is pid 1, which is always there, or the old one, which is alive as before.
    split
    · obtain ⟨process, foundRoot, -⟩ := kept rootThere
      exact ⟨process, foundRoot, Or.inr rfl⟩
    · rename_i notChild
      obtain ⟨above, foundAbove, alive⟩ := rooted.parent there notInit
      obtain ⟨process, foundAfter, stateKept, -⟩ := kept foundAbove
      refine ⟨process, foundAfter, alive.imp_left fun living => ?_⟩
      rw [stateKept notChild]
      exact living

end Rooted

/-- Only the running process is in the running state. -/
structure ProcessTree.OneRunning (t : ProcessTree) : Prop where
  running : ∀ {pid process}, t.entries pid = some process →
    (process.state = .running ↔ t.running = some pid)
  present : ∀ {pid}, t.running = some pid → ∃ process, t.entries pid = some process

section OneRunning

variable {self : Process}

/-- The process that is noted as running is in the running state. -/
theorem ProcessTree.OneRunning.state (one : t.OneRunning) (runs : t.running = some self.pid)
    (here : t.entries self.pid = some self) : self.state = .running :=
  (one.running here).mpr runs

/-- A process may change when it is in the running state afterwards exactly if it runs then. -/
theorem ProcessTree.OneRunning.update (one : t.OneRunning) {pid : UInt64} {process : Option Process}
    (entries : next.entries = Function.update t.entries pid process)
    (others : ∀ other, other ≠ pid → (next.running = some other ↔ t.running = some other))
    (state : ∀ changed, process = some changed →
      (changed.state = .running ↔ next.running = some pid))
    (present : next.running = some pid → process.isSome) : next.OneRunning := by
  -- The changed entry is checked by `state`, and the others by what held before.
  constructor
  case running =>
    intro other changed here
    rw [entries, Function.update_apply] at here
    split at here
    · rename_i same
      rw [same]
      exact state changed here
    · rename_i distinct
      rw [others other distinct]
      exact one.running here
  case present =>
    intro other runs
    rw [entries, Function.update_apply]
    split
    · rename_i same
      exact Option.isSome_iff_exists.mp (present (same ▸ runs))
    · rename_i distinct
      exact one.present ((others other distinct).mp runs)

/-- Every process may change as long as its being in the running state does not. -/
theorem ProcessTree.OneRunning.mapAll (one : t.OneRunning) {change : Process → Process}
    (state : ∀ process, (change process).state = .running ↔ process.state = .running) :
    (t.mapAll change).OneRunning := by
  constructor
  case running =>
    intro pid changed here
    obtain ⟨process, there, rfl⟩ := Option.map_eq_some_iff.mp here
    rw [state]
    exact one.running there
  case present =>
    intro pid runs
    obtain ⟨process, there⟩ := one.present runs
    exact ⟨change process, by rw [ProcessTree.mapAll_entries, there, Option.map_some]⟩

/-- Only the processes and who runs matter. -/
theorem ProcessTree.OneRunning.congr (one : t.OneRunning) (entries : next.entries = t.entries)
    (running : next.running = t.running) : next.OneRunning :=
  ⟨fun here => by rw [running]; exact one.running (entries ▸ here),
    fun runs => by rw [entries]; exact one.present (running ▸ runs)⟩

/-- What a tree of processes keeps up: the parents, and who runs. -/
structure ProcessTree.WellFormed (t : ProcessTree) : Prop where
  rooted : t.Rooted
  one : t.OneRunning

end OneRunning

end AtOS
