import AtOS.Processes.Waiting

/-! What the record says: registers are loaded as they were saved, and exits are reported once. -/

namespace AtOS

variable {t next : ProcessTree} {self : Process}

/-- Who a record entry loads, if anyone. -/
def Event.IsLoad (event : Event) : Prop := ∃ pid pctx, event = .loaded pid pctx

/-- Whoever is loaded gets the registers it was saved with, and so will whoever waits its turn. -/
structure ProcessTree.Faithful (t : ProcessTree) : Prop where
  saved : ∀ {pid process}, t.entries pid = some process → process.state ≠ .terminated →
    process.state ≠ .running → lastContext pid t.log = some process.pctx
  loaded : ∀ {pid pctx earlier}, .loaded pid pctx :: earlier <:+ t.log →
    lastContext pid earlier = some pctx

/-- What was loaded before an event that loads nobody. -/
theorem suffix_of_cons {event : Event} {pid : UInt64} {pctx : ProcessContext}
    {earlier log : List Event} (other : ¬ event.IsLoad)
    (suffix : .loaded pid pctx :: earlier <:+ event :: log) :
    .loaded pid pctx :: earlier <:+ log := by
  rcases List.suffix_cons_iff.mp suffix with same | inside
  · rw [List.cons.injEq] at same
    exact absurd ⟨pid, pctx, same.1.symm⟩ other
  · exact inside

/-- A change of the processes alone keeps the record faithful if their registers agree with it. -/
theorem ProcessTree.Faithful.keep (faithful : t.Faithful) (log : next.log = t.log)
    (saved : ∀ {pid process}, next.entries pid = some process → process.state ≠ .terminated →
      process.state ≠ .running → ∃ before, t.entries pid = some before ∧
        before.state ≠ .terminated ∧ before.state ≠ .running ∧ before.pctx = process.pctx) :
    next.Faithful := by
  constructor
  case saved =>
    intro pid process here living idle
    obtain ⟨before, there, lived, rested, same⟩ := saved here living idle
    rw [log, ← same]
    exact faithful.saved there lived rested
  case loaded =>
    intro pid pctx earlier suffix
    exact faithful.loaded (log ▸ suffix)

/-- One process may change if it does not rest afterwards or agrees with the record. -/
theorem ProcessTree.Faithful.update (faithful : t.Faithful) {pid : UInt64}
    {process : Option Process} {event : Event}
    (entries : next.entries = Function.update t.entries pid process)
    (log : next.log = event :: t.log) (other : ¬ event.IsLoad)
    (others : ∀ waiter, waiter ≠ pid →
      lastContext waiter (event :: t.log) = lastContext waiter t.log)
    (saved : ∀ changed, process = some changed → changed.state ≠ .terminated →
      changed.state ≠ .running → lastContext pid (event :: t.log) = some changed.pctx) :
    next.Faithful := by
  -- One event goes on top of the log, and it is about the changed entry.
  constructor
  case saved =>
    intro waiter changed here living idle
    rw [entries, Function.update_apply] at here
    rw [log]
    split at here
    · rename_i same
      rw [same]
      exact saved changed here living idle
    · rename_i distinct
      rw [others waiter distinct]
      exact faithful.saved here living idle
  case loaded =>
    intro waiter pctx earlier suffix
    rw [log] at suffix
    exact faithful.loaded (suffix_of_cons other suffix)

/-- One process may change without a record if it agrees with the record afterwards. -/
theorem ProcessTree.Faithful.set (faithful : t.Faithful) {pid : UInt64} {process : Option Process}
    (entries : next.entries = Function.update t.entries pid process) (log : next.log = t.log)
    (saved : ∀ changed, process = some changed → changed.state ≠ .terminated →
      changed.state ≠ .running → lastContext pid t.log = some changed.pctx) : next.Faithful := by
  constructor
  case saved =>
    intro waiter changed here living idle
    rw [entries, Function.update_apply] at here
    rw [log]
    split at here
    · rename_i same
      rw [same]
      exact saved changed here living idle
    · exact faithful.saved here living idle
  case loaded =>
    intro waiter pctx earlier suffix
    exact faithful.loaded (log ▸ suffix)

/-- A process that terminates is not loaded again, and re-parenting changes no registers. -/
theorem ProcessTree.Faithful.terminated (faithful : t.Faithful) (self : Process) (code : UInt64) :
    (t.terminated self code).Faithful := by
  -- An exit writes nothing itself. It terminates one entry and reparents others.
  constructor
  case saved =>
    intro pid process found living idle
    rw [ProcessTree.terminated_entries] at found
    split at found
    · rw [Option.map_some, Option.some.injEq, Process.reparent_eq] at found
      exact absurd (by rw [← found]) living
    · obtain ⟨before, there, changed⟩ := Option.map_eq_some_iff.mp found
      rw [Process.reparent_eq] at changed
      rw [← changed] at living idle ⊢
      have saved := faithful.saved there living idle
      exact saved
  -- An exit loads nobody.
  case loaded =>
    intro pid pctx earlier suffix
    refine faithful.loaded (suffix_of_cons ?_ suffix)
    rintro ⟨_, _, ⟨⟩⟩

/-- Every move keeps the record faithful. -/
theorem ProcessTree.Move.faithful (move : t.Move next) (formed : t.WellFormed)
    (faithful : t.Faithful) : next.Faithful := by
  -- Only the moves that save a context or load one have something to prove here.
  cases move with
  | save runs here pctx =>
    refine faithful.update rfl rfl (by rintro ⟨_, _, ⟨⟩⟩) ?_ ?_
    · intro waiter distinct
      rw [lastContext, if_neg distinct.symm]
    · rintro _ ⟨rfl⟩ - -
      rw [lastContext, if_pos rfl]
  | @wakeup channel proper =>
    -- A wakeup changes a state and no context.
    refine faithful.keep rfl fun {pid process} found living idle => ?_
    obtain ⟨before, there, rfl⟩ := Option.map_eq_some_iff.mp found
    unfold Process.wakeup at living idle ⊢
    split at living
    · rename_i asleep
      rw [if_pos asleep]
      exact ⟨before, there, by simp [asleep.1], by simp [asleep.1], rfl⟩
    · rename_i awake
      rw [if_neg awake] at idle ⊢
      exact ⟨before, there, living, idle, rfl⟩
  -- The context of the preempted process was saved at its trap.
  | preempt runs here saved =>
    refine faithful.set rfl rfl ?_
    rintro _ ⟨rfl⟩ - -
    exact saved
  -- Whoever execs is running, and the history promises nothing about it.
  | exec runs here pctx name =>
    have state := formed.one.state runs here
    refine faithful.set rfl rfl ?_
    rintro _ ⟨rfl⟩ - idle
    exact absurd state idle
  | @fork self child runs here room pid parent ready awake =>
    refine faithful.update rfl rfl (by rintro ⟨_, _, ⟨⟩⟩) ?_ ?_
    · intro waiter distinct
      rw [lastContext, if_neg distinct.symm]
    · rintro _ ⟨rfl⟩ - -
      rw [lastContext, if_pos rfl]
  | exit runs here code unheard => exact faithful.terminated _ code
  -- The parent's context gets the child's pid and exit code, in the log as in the entry.
  | @exitDelivered self parent runs here code above waits =>
    have after := faithful.terminated self code
    have pid := (formed.rooted.terminated here code).key above
    have parentSaved := after.saved above (by simp [waits.blocked]) (by simp [waits.blocked])
    rw [← pid] at parentSaved
    -- The parent gets its two return values in the record and in its saved registers.
    have woken : Faithful { (t.terminated self code).set parent.pid (some
        { parent with state := .ready, pctx := parent.pctx.deliver self.pid code }) with
        log := .delivered parent.pid (parent.pctx.x.get 0) self.pid code ::
          (t.terminated self code).log } := by
      refine after.update rfl rfl (by rintro ⟨_, _, ⟨⟩⟩) ?_ ?_
      · intro waiter distinct
        rw [lastContext, if_neg distinct.symm]
      · rintro _ ⟨rfl⟩ - -
        rw [lastContext, if_pos rfl, parentSaved, Option.map_some]
    refine woken.set rfl rfl ?_
    intro _ none
    cases none
  | reap runs here target there awaited ended =>
    refine faithful.update rfl rfl (by rintro ⟨_, _, ⟨⟩⟩) (fun _ _ => rfl) ?_
    intro _ none
    cases none
  | notFound runs here target none =>
    constructor
    case saved => exact faithful.saved
    case loaded =>
      intro pid pctx earlier suffix
      refine faithful.loaded (suffix_of_cons ?_ suffix)
      rintro ⟨_, _, ⟨⟩⟩
  -- A process that starts to wait has its context in the log.
  | await runs here saved there awaited alive =>
    refine faithful.set rfl rfl ?_
    rintro _ ⟨rfl⟩ - -
    exact saved
  | sleep runs here proper other pctx =>
    refine faithful.update rfl rfl (by rintro ⟨_, _, ⟨⟩⟩) ?_ ?_
    · intro waiter distinct
      rw [lastContext, if_neg distinct.symm]
    · rintro _ ⟨rfl⟩ - -
      rw [lastContext, if_pos rfl]
  -- What is loaded is what was saved last.
  | @load self idle here ready =>
    have saved := faithful.saved here (by simp [ready]) (by simp [ready])
    constructor
    case saved =>
      intro pid process found living resting
      rw [show _ = (t.set self.pid _).entries from rfl, ProcessTree.set_entries] at found
      split at found
      · rw [Option.some.injEq] at found
        exact absurd (by rw [← found]) resting
      · exact faithful.saved found living resting
    case loaded =>
      intro pid pctx earlier suffix
      rcases List.suffix_cons_iff.mp suffix with same | inside
      · simp only [List.cons.injEq, Event.loaded.injEq] at same
        rw [same.1.1, same.1.2, same.2]
        exact saved
      · exact faithful.loaded inside

/-- No move changes the registers of a process that does not run, but to hand it an exit. -/
theorem ProcessTree.Move.contextKept (move : t.Move next) (formed : t.WellFormed) {pid : UInt64}
    {process after : Process} (there : t.entries pid = some process)
    (here : next.entries pid = some after) (idle : t.running ≠ some pid) :
    after.pctx = process.pctx ∨ process.Waits ∧ ∃ child code,
      after.pctx = process.pctx.deliver child code ∧
        .delivered pid process.target child code ∈ next.log := by
  -- A process that runs is not this one, so changing it changes nothing here.
  have other : ∀ {changed : Process}, t.running = some changed.pid → pid ≠ changed.pid := by
    rintro changed runs rfl
    exact idle runs
  -- An entry that is not this one's keeps its context.
  have kept : ∀ {changed : UInt64} {value : Option Process}, pid ≠ changed →
      (Function.update t.entries changed value) pid = some after → after.pctx = process.pctx := by
    intro changed value distinct found
    rw [Function.update_of_ne distinct, there, Option.some.injEq] at found
    rw [found]
  cases move with
  | save runs _ pctx => exact Or.inl (kept (other runs) here)
  | @wakeup channel proper =>
    rw [ProcessTree.mapAll_entries, there, Option.map_some, Option.some.injEq] at here
    rw [← here, Process.wakeup]
    split <;> exact Or.inl rfl
  | preempt runs _ saved => exact Or.inl (kept (other runs) here)
  | exec runs _ pctx name => exact Or.inl (kept (other runs) here)
  | @fork self child runs _ room childPid parent ready awake =>
    refine Or.inl (kept ?_ here)
    have below := formed.rooted.below there
    rintro rfl
    rw [childPid] at below
    exact absurd below (Nat.lt_irrefl _)
  | exit runs _ code unheard =>
    rw [ProcessTree.terminated_entries, if_neg (other runs), there, Option.map_some,
      Option.some.injEq, Process.reparent_eq] at here
    rw [← here]
    exact Or.inl rfl
  | @exitDelivered self parent runs selfHere code above waits =>
    have parentPid := (formed.rooted.terminated selfHere code).key above
    rw [ProcessTree.delivered_entries, if_neg (other runs)] at here
    -- Whoever is told is the parent, and it gets the child's pid and exit code.
    split at here
    · -- This is the parent that waits.
      rename_i isParent
      have found := isParent.trans parentPid ▸ above
      obtain ⟨before, beforeThere, waited, target, -⟩ :=
        ProcessTree.terminated_waits found ⟨waits.blocked, waits.reason⟩
      rw [there, Option.some.injEq] at beforeThere
      subst beforeThere
      have context : parent.pctx = process.pctx := by
        rw [← isParent.trans parentPid, ProcessTree.terminated_entries, if_neg (other runs), there,
          Option.map_some, Option.some.injEq, Process.reparent_eq] at above
        rw [← above]
      rw [Option.some.injEq] at here
      refine Or.inr ⟨waited, self.pid, code, by rw [← here, context], ?_⟩
      rw [isParent, target]
      exact List.mem_cons_self
    · rw [ProcessTree.terminated_entries, if_neg (other runs), there, Option.map_some,
        Option.some.injEq, Process.reparent_eq] at here
      rw [← here]
      exact Or.inl rfl
  | @reap self child runs _ target childThere awaited ended =>
    refine Or.inl ?_
    -- A reaped process has no entry any more.
    rw [show _ = (t.set child.pid none).entries from rfl, ProcessTree.set_entries] at here
    split at here
    · cases here
    · rw [there, Option.some.injEq] at here
      rw [here]
  | notFound runs _ target none =>
    refine Or.inl ?_
    rw [show _ = t.entries from rfl, there, Option.some.injEq] at here
    rw [here]
  | await runs _ saved childThere awaited alive => exact Or.inl (kept (other runs) here)
  | sleep runs _ proper reason pctx => exact Or.inl (kept (other runs) here)
  | @load self nobody selfHere ready =>
    refine Or.inl ?_
    -- Loading changes the state and leaves the context alone.
    rw [show _ = (t.set self.pid _).entries from rfl, ProcessTree.set_entries] at here
    split at here
    · rename_i isSelf
      rw [← isSelf, there, Option.some.injEq] at selfHere
      rw [Option.some.injEq] at here
      rw [← here, selfHere]
    · rw [there, Option.some.injEq] at here
      rw [here]

end AtOS
