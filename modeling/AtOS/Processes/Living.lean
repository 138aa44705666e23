import AtOS.Processes.Calling

/-! Who is alive: only the process that runs can lose its life in a step, and nobody comes back. -/

namespace AtOS

open SlotTable

variable {t next : ProcessTree} {pid : UInt64}

/-- There is a process of a pid that has not terminated. -/
def ProcessTree.living (t : ProcessTree) (pid : UInt64) : Bool :=
  (t.entries pid).any fun process => process.state != .terminated

/-- A change of the entry of another process decides about nobody else's life. -/
theorem ProcessTree.living_update {other : UInt64} {value : Option Process} (distinct : pid ≠ other)
    (entries : next.entries = Function.update t.entries other value) :
    next.living pid = t.living pid := by
  rw [ProcessTree.living, entries, Function.update_of_ne distinct]
  rfl

/-- No move takes the life of a process that does not run, or brings one back to life. -/
theorem ProcessTree.Move.living (move : t.Move next) (formed : t.WellFormed)
    (below : pid < t.nextPid) (idle : t.running ≠ some pid) : next.living pid = t.living pid := by
  -- A process that runs is not this one, so changing it changes nothing here.
  have other : ∀ {changed : Process}, t.running = some changed.pid → pid ≠ changed.pid := by
    rintro changed runs rfl
    exact idle runs
  -- A process that exits is not the one asked about, and reparenting is no matter here.
  have terminated : ∀ {self : Process} (code : UInt64), t.running = some self.pid →
      (t.terminated self code).living pid = t.living pid := by
    intro self code runs
    rw [ProcessTree.living, ProcessTree.terminated_entries, if_neg (other runs)]
    cases here : t.entries pid with
    | none => simp [ProcessTree.living, here]
    | some process => simp [ProcessTree.living, here, Process.reparent_eq]
  cases move with
  | save runs _ pctx => exact ProcessTree.living_update (other runs) rfl
  | @wakeup channel proper =>
    -- A wakeup makes ready what was blocked, and both count as living.
    rw [ProcessTree.living, ProcessTree.mapAll_entries]
    cases here : t.entries pid with
    | none => simp [ProcessTree.living, here]
    | some process =>
      simp only [ProcessTree.living, here, Option.map_some, Option.any_some, Process.wakeup]
      split
      · rename_i asleep
        rw [asleep.1]
        rfl
      · rfl
  | preempt runs _ saved => exact ProcessTree.living_update (other runs) rfl
  | exec runs _ pctx name => exact ProcessTree.living_update (other runs) rfl
  | @fork self child runs _ room childPid parent ready awake =>
    -- The child is newer than the pid asked about.
    refine ProcessTree.living_update ?_ rfl
    rintro rfl
    rw [childPid] at below
    exact absurd below (UInt64.lt_irrefl _)
  | exit runs _ code unheard => exact terminated code runs
  | @exitDelivered self parent runs here code above waits =>
    -- The parent that is told is blocked before and ready after, so it lives throughout.
    have isParent := (formed.rooted.terminated here code).key above
    rw [← terminated code runs, ProcessTree.living, ProcessTree.delivered_entries,
      if_neg (other runs)]
    split
    · rename_i same
      rw [ProcessTree.living, same, isParent, above]
      simp only [Option.any_some, waits.blocked]
      rfl
    · rfl
  | @reap self child runs here target there awaited ended =>
    -- A reaped child has terminated before, so it did not live.
    by_cases same : pid = child.pid
    · subst same
      rw [ProcessTree.living, ProcessTree.living, there]
      show (Function.update t.entries child.pid none child.pid).any _ = _
      rw [Function.update_self]
      simp [ended]
    · exact ProcessTree.living_update same rfl
  | notFound runs _ target none => rfl
  | await runs _ saved there awaited alive => exact ProcessTree.living_update (other runs) rfl
  | sleep runs _ proper reason pctx => exact ProcessTree.living_update (other runs) rfl
  | @load self nobody here ready =>
    -- A process that is loaded lives, as it did when it was ready.
    by_cases same : pid = self.pid
    · subst same
      rw [ProcessTree.living, ProcessTree.living, here]
      show (Function.update t.entries self.pid _ self.pid).any _ = _
      rw [Function.update_self]
      simp only [Option.any_some, ready]
      rfl
    · exact ProcessTree.living_update same rfl

/-- Pids are given out in order. -/
theorem ProcessTree.Move.nextPid_le (move : t.Move next) : t.nextPid ≤ next.nextPid := by
  cases move with
  | @fork self child runs here room childPid parent ready awake =>
    show t.nextPid ≤ t.nextPid + 1
    rw [UInt64.le_iff_toNat_le, UInt64.toNat_add, UInt64.toNat_one, Nat.mod_eq_of_lt room]
    omega
  | _ => exact UInt64.le_refl _

/-- The prelude of an exception changes nobody else's life, and gives out no pids. -/
theorem ProcessTree.Prelude.living {mid : ProcessTree} (prelude : t.Prelude mid)
    (invariant : t.Invariant) (below : pid < t.nextPid) (idle : t.running ≠ some pid) :
    t.nextPid ≤ mid.nextPid ∧ mid.living pid = t.living pid := by
  refine (prelude.induction (motive := fun mid => mid.Invariant ∧ t.nextPid ≤ mid.nextPid ∧
    mid.living pid = t.living pid) ⟨invariant, UInt64.le_refl _, rfl⟩ ?_).2
  rintro before after runs ⟨holds, above, same⟩ move -
  exact ⟨move.invariant holds, UInt64.le_trans above move.nextPid_le,
    (move.living holds.formed (UInt64.lt_of_lt_of_le below above) (runs ▸ idle)).trans same⟩

/-- A turn keeps who is alive, the process that runs apart. -/
theorem ProcessTree.Turn.living (turn : t.Turn next) (invariant : t.Invariant)
    (below : pid < t.nextPid) (idle : t.running ≠ some pid) : next.living pid = t.living pid := by
  cases turn with
  | rest prelude => exact (prelude.living invariant below idle).2
  | move prelude move =>
    obtain ⟨above, same⟩ := prelude.living invariant below idle
    exact (move.living (prelude.invariant invariant).formed (UInt64.lt_of_lt_of_le below above)
      (prelude.running ▸ idle)).trans same

/-- A step never takes a pid back. -/
theorem ProcessTree.Turn.nextPid_le (turn : t.Turn next) : t.nextPid ≤ next.nextPid := by
  -- The prelude is a list of moves, and no move takes a pid back.
  have before : ∀ {mid}, t.Prelude mid → t.nextPid ≤ mid.nextPid := fun prelude =>
    prelude.induction (motive := fun mid => t.nextPid ≤ mid.nextPid) (UInt64.le_refl _)
      fun _ above move _ => UInt64.le_trans above move.nextPid_le
  cases turn with
  | rest prelude => exact before prelude
  | move prelude move => exact UInt64.le_trans (before prelude) move.nextPid_le

/-- Whoever is alive after a turn was alive before, unless the pid is new. -/
theorem ProcessTree.Turn.living_back (turn : t.Turn next) (invariant : t.Invariant)
    (below : pid < t.nextPid) (alive : next.living pid = true) : t.living pid = true := by
  by_cases runs : t.running = some pid
  · obtain ⟨process, here⟩ := invariant.formed.one.present runs
    have state := (invariant.formed.one.running here).mpr runs
    rw [ProcessTree.living, here, Option.any_some, state]
    rfl
  · rwa [← turn.living invariant below runs]

end AtOS
