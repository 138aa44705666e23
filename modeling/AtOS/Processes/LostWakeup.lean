import AtOS.Processes.Waiting

/-! The one exit that loses a wakeup: it leaves a terminated child to a waiting `init`. -/

namespace AtOS

variable {t next : ProcessTree} {self : Process}

/--
The exit of a process would strand an orphan.

Its terminated child goes to pid 1, which waits for any child and is not the one that is woken.
-/
def ProcessTree.Strands (t : ProcessTree) (self : Process) : Prop :=
  self.parentPid ≠ 1 ∧ ∃ init orphan, t.entries 1 = some init ∧ init.Waits ∧ init.target = 0 ∧
    t.entries orphan.pid = some orphan ∧ orphan.parentPid = self.pid ∧ orphan.state = .terminated

/-- Nobody who waits looks for a child that was there in the same place and has not terminated. -/
theorem ProcessTree.Prompt.keep (prompt : t.Prompt)
    (back : ∀ {pid process}, next.entries pid = some process → process.Waits →
      ∃ before, t.entries pid = some before ∧ before.Waits ∧ before.target = process.target)
    (children : ∀ {child : Process}, next.entries child.pid = some child →
      child.state = .terminated → ∃ before, t.entries before.pid = some before ∧
        before.pid = child.pid ∧ before.parentPid = child.parentPid ∧ before.state = .terminated) :
    next.Prompt := by
  refine ⟨fun {pid process child} here waits childHere isChild ended => ?_⟩
  obtain ⟨before, there, waited, target⟩ := back here waits
  obtain ⟨old, oldThere, samePid, sameParent, oldOver⟩ := children childHere ended
  refine prompt.alive there waited oldThere ?_ oldOver
  rw [Process.isAwaited_iff] at isChild ⊢
  rw [samePid, sameParent, target]
  exact isChild

/-- A change in which everybody keeps the place adds no terminated child. -/
theorem ProcessTree.Prompt.samePlaces (prompt : t.Prompt) (same : t.SamePlaces next)
    (back : ∀ {pid process}, next.entries pid = some process → process.Waits →
      ∃ before, t.entries pid = some before ∧ before.Waits ∧ before.target = process.target) :
    next.Prompt := by
  refine prompt.keep back fun {child} found ended => ?_
  obtain ⟨before, there, place⟩ := same.back found
  obtain ⟨pid, parent, terminated⟩ := Process.place_eq.mp place
  exact ⟨before, pid ▸ there, pid.symm, parent.symm, terminated.mp ended⟩

/-- One process that keeps its place and does not wait adds no terminated child. -/
theorem ProcessTree.Prompt.ofSet (prompt : t.Prompt) {changed : Process}
    (here : t.entries self.pid = some self)
    (entries : next.entries = Function.update t.entries self.pid (some changed))
    (nextPid : next.nextPid = t.nextPid) (idle : ¬ changed.Waits)
    (place : changed.place = self.place) : next.Prompt := by
  refine prompt.samePlaces (.ofSet here entries nextPid place) fun found waits => ?_
  obtain ⟨there, -⟩ := ProcessTree.waits_back entries (by rintro _ ⟨rfl⟩; exact idle) found waits
  exact ⟨_, there, waits, rfl⟩

/-- What is terminated after an exit: the process itself, or a child that was terminated before. -/
theorem ProcessTree.terminated_over {code : UInt64} {child : Process}
    (found : (t.terminated self code).entries child.pid = some child)
    (ended : child.state = .terminated) :
    child.pid = self.pid ∨ ∃ before, t.entries child.pid = some before ∧
      before.pid = child.pid ∧ before.state = .terminated ∧
      child.parentPid = if before.parentPid = self.pid then 1 else before.parentPid := by
  rw [ProcessTree.terminated_entries] at found
  split at found
  · rename_i same
    exact Or.inl same
  · obtain ⟨before, there, changed⟩ := Option.map_eq_some_iff.mp found
    rw [Process.reparent_eq] at changed
    have pid : before.pid = child.pid := by rw [← changed]
    have state : before.state = child.state := by rw [← changed]
    exact Or.inr ⟨before, there, pid, state.trans ended, by rw [← changed]⟩

/--
After an exit, whoever waits for a terminated child that is not the one that exits is pid 1, and
the exit strands that child.
-/
theorem ProcessTree.Prompt.strands (prompt : t.Prompt) (awaited : t.Awaited)
    {code pid : UInt64} {process child : Process}
    (found : (t.terminated self code).entries pid = some process) (waits : process.Waits)
    (childFound : (t.terminated self code).entries child.pid = some child)
    (isChild : child.isAwaited pid process.target = true) (ended : child.state = .terminated)
    (other : child.pid ≠ self.pid) (notHeir : self.parentPid ≠ 1 ∨ pid ≠ 1) :
    t.Strands self := by
  -- The process waited before the exit, for the same target.
  obtain ⟨before, there, waited, target, distinct, -⟩ := ProcessTree.terminated_waits found waits
  obtain ⟨parentPid, matched⟩ := Process.isAwaited_iff.mp isChild
  rcases ProcessTree.terminated_over childFound ended with same | ⟨old, oldThere, oldPid, oldOver, oldParent⟩
  · exact absurd same other
  rw [parentPid] at oldParent
  split at oldParent
  · -- The child was re-parented, so it is pid 1 that waits.
    rename_i wasChild
    subst oldParent
    refine ⟨notHeir.resolve_right (fun no => no rfl), before, old, there, waited, ?_,
      oldPid ▸ oldThere, wasChild, oldOver⟩
    -- A particular child that pid 1 waits for is alive.
    rw [← target] at matched
    rcases matched with any | particular
    · exact any
    · obtain ⟨living, livingThere, isLiving, alive⟩ := awaited.child there waited
      obtain ⟨-, livingMatched⟩ := Process.isAwaited_iff.mp isLiving
      rcases livingMatched with any | same
      · exact any
      · rw [same, ← particular, oldThere, Option.some.injEq] at livingThere
        exact absurd (livingThere ▸ oldOver) alive
  · -- Otherwise it was a terminated child of the same process before.
    refine absurd oldOver (prompt.alive there waited (oldPid ▸ oldThere) ?_)
    rw [Process.isAwaited_iff]
    exact ⟨oldParent.symm, by rw [oldPid, target]; exact matched⟩

/-- The exit of a process, handed to its parent or not. -/
def ProcessTree.ExitsTo (t : ProcessTree) (self : Process) (next : ProcessTree) : Prop :=
  ∃ code, next = t.terminated self code ∨
    ∃ parent, next = (t.terminated self code).delivered parent self.pid code

/-- Every move but a stranding exit keeps that nobody waits for a terminated child. -/
theorem ProcessTree.Move.prompt (move : t.Move next) (formed : t.WellFormed) (awaited : t.Awaited)
    (prompt : t.Prompt)
    (calm : ∀ {self : Process}, t.running = some self.pid → t.entries self.pid = some self →
      t.ExitsTo self next → ¬ t.Strands self) : next.Prompt := by
  -- The exit of a process is the only move that can strand a waiter, and `calm` rules that out.
  cases move with
  -- Whoever saves its context is running and does not wait.
  | save runs here pctx =>
    have state := formed.one.state runs here
    refine prompt.ofSet here rfl rfl ?_ rfl
    exact fun waits => by simpa [state] using waits.blocked
  | @wakeup channel proper =>
    -- A wakeup leaves everyone in the same place, and whoever waits after it waited before.
    have same : t.SamePlaces (t.mapAll (Process.wakeup channel)) :=
      .mapAll (Process.wakeup_place channel)
    refine prompt.samePlaces same fun {pid process} found waits => ?_
    obtain ⟨before, there, rfl⟩ := Option.map_eq_some_iff.mp found
    obtain ⟨kept, waited⟩ := waits.of_wakeup
    exact ⟨before, there, waited, by rw [kept]⟩
  -- A ready process does not wait, and its place is the one it had.
  | preempt runs here saved =>
    have living := formed.living runs here
    refine prompt.ofSet here rfl rfl (fun waits => by cases waits.blocked) ?_
    exact Process.place_eq.mpr ⟨rfl, rfl, by simp [living]⟩
  | exec runs here pctx name =>
    have state := formed.one.state runs here
    refine prompt.ofSet here rfl rfl ?_ rfl
    exact fun waits => by simpa [state] using waits.blocked
  | @fork self child runs here room pid parent ready awake =>
    -- The child is ready, so it neither waits nor has terminated.
    refine prompt.keep (fun found waits => ?_) fun {other} found ended => ?_
    · obtain ⟨there, -⟩ := ProcessTree.waits_back (t := t) rfl
        (by rintro _ ⟨rfl⟩ waits; simpa [ready] using waits.blocked) found waits
      exact ⟨_, there, waits, rfl⟩
    · rw [show _ = (t.set child.pid child).entries from rfl, ProcessTree.set_entries] at found
      split at found
      · rw [Option.some.injEq] at found
        rw [← found, ready] at ended
        cases ended
      · exact ⟨other, found, rfl, rfl, ended⟩
  | @exit self runs here code unheard =>
    -- The exit is calm, so what it strands is the contradiction.
    have spared := calm runs here ⟨code, Or.inl rfl⟩
    refine ⟨fun {pid process child} found waits childFound isChild ended => ?_⟩
    obtain ⟨parentPid, matched⟩ := Process.isAwaited_iff.mp isChild
    by_cases isSelf : child.pid = self.pid
    · -- The parent of the process that exits does not wait for it.
      rw [isSelf, formed.rooted.terminated_self here, Option.some.injEq] at childFound
      subst childFound
      exact unheard process (parentPid ▸ found) ⟨waits.blocked, waits.reason, matched⟩
    · refine spared (prompt.strands awaited found waits childFound isChild ended isSelf ?_)
      by_contra heir
      simp only [not_or, not_not] at heir
      obtain ⟨heir, rfl⟩ := heir
      -- Were pid 1 its parent and waiting for any child, it would have been woken.
      obtain ⟨before, there, waited, target, distinct, -⟩ :=
        ProcessTree.terminated_waits found waits
      by_cases any : process.target = 0
      · exact unheard process (heir ▸ found) ⟨waits.blocked, waits.reason, Or.inl any⟩
      · obtain ⟨living, livingThere, isLiving, alive⟩ := awaited.child there waited
        obtain ⟨-, livingMatched⟩ := Process.isAwaited_iff.mp isLiving
        rw [target] at livingMatched
        have particular := matched.resolve_left any
        have livingPid := livingMatched.resolve_left any
        rcases ProcessTree.terminated_over childFound ended with same | ⟨old, oldThere, -, oldOver, -⟩
        · exact isSelf same
        · rw [livingPid, ← particular, oldThere, Option.some.injEq] at livingThere
          exact alive (livingThere ▸ oldOver)
  | @exitDelivered self parent runs here code above wakes =>
    have spared := calm runs here ⟨code, Or.inr ⟨parent, rfl⟩⟩
    have parentPid := (formed.rooted.terminated here code).key above
    refine ⟨fun {pid process child} found waits childFound isChild ended => ?_⟩
    -- Neither the child that has gone nor the parent that is ready waits or has terminated.
    rw [ProcessTree.delivered_entries] at found childFound
    split at childFound
    · cases childFound
    rename_i notSelf
    split at childFound
    · rw [Option.some.injEq] at childFound
      rw [← childFound] at ended
      cases ended
    split at found
    · cases found
    split at found
    · rw [Option.some.injEq] at found
      rw [← found] at waits
      cases waits.blocked
    rename_i notParent
    refine spared (prompt.strands awaited found waits childFound isChild ended notSelf ?_)
    -- Whoever still waits is not the parent that was woken.
    by_contra heir
    simp only [not_or, not_not] at heir
    exact notParent (heir.2.trans (heir.1.symm.trans parentPid.symm))
  | @reap self child runs here target there isChild ended =>
    refine prompt.keep (fun found waits => ?_) fun {other} found otherOver => ?_
    · -- The child that is reaped is no longer there to be overlooked.
      obtain ⟨before, -⟩ := ProcessTree.waits_back (t := t) rfl (by rintro _ ⟨⟩) found waits
      exact ⟨_, before, waits, rfl⟩
    · rw [show _ = (t.set child.pid none).entries from rfl, ProcessTree.set_entries] at found
      split at found
      · cases found
      · exact ⟨other, found, rfl, rfl, otherOver⟩
  | notFound runs here target none => exact ⟨prompt.alive⟩
  | @await self child runs here saved there isChild alive =>
    have living := formed.living runs here
    -- Only the process itself changes, and it stays in its place.
    have same : t.SamePlaces { t.set self.pid (some
        { self with state := .blocked, blockReason := some .waitingForChild }) with
        running := none } :=
      .ofSet here rfl rfl (Process.place_eq.mpr ⟨rfl, rfl, by simp [living]⟩)
    refine ⟨fun {pid process other} found waits otherFound isOther ended => ?_⟩
    obtain ⟨old, oldThere, place⟩ := same.back otherFound
    obtain ⟨oldPid, oldParent, oldOver⟩ := Process.place_eq.mp place
    have isOld : old.isAwaited pid process.target = true := by
      rw [Process.isAwaited_iff] at isOther ⊢
      rw [← oldPid, ← oldParent]
      exact isOther
    rw [show _ = (t.set self.pid _).entries from rfl, ProcessTree.set_entries] at found
    split at found
    · -- The process that starts to wait has seen no terminated child.
      rename_i isSelf
      rw [Option.some.injEq] at found
      rw [← found, isSelf] at isOld
      exact alive _ old oldThere isOld (oldOver.mp ended)
    · exact prompt.alive found waits (oldPid ▸ oldThere) isOld (oldOver.mp ended)
  | sleep runs here proper other pctx =>
    -- A process that sleeps in the kernel waits for no child.
    have living := formed.living runs here
    refine prompt.ofSet here rfl rfl ?_ (Process.place_eq.mpr ⟨rfl, rfl, by simp [living]⟩)
    exact fun waits => other (Option.some.inj waits.reason)
  | load idle here ready =>
    -- A running process does not wait.
    refine prompt.ofSet here rfl rfl (fun waits => by cases waits.blocked) ?_
    exact Process.place_eq.mpr ⟨rfl, rfl, by simp [ready]⟩

/-- An exit that strands an orphan leaves pid 1 waiting for a terminated child. -/
theorem ProcessTree.Strands.not_prompt (stranded : t.Strands self) (formed : t.WellFormed)
    (runs : t.running = some self.pid) (here : t.entries self.pid = some self)
    {code : UInt64} (exits : next = t.terminated self code ∨
      ∃ parent, (t.terminated self code).entries self.parentPid = some parent ∧
        next = (t.terminated self code).delivered parent self.pid code) : ¬ next.Prompt := by
  obtain ⟨notHeir, init, orphan, initThere, waits, any, orphanThere, isChild, ended⟩ := stranded
  -- The process that exits is running, so it is neither of the two.
  have running := formed.one.state runs here
  have initPid := formed.pid_eq initThere
  -- Neither the waiting pid 1 nor the orphan is the process that exits.
  have notInit : (1 : UInt64) ≠ self.pid := by
    intro same
    rw [same, here, Option.some.injEq] at initThere
    rw [← initThere] at waits
    simpa [running] using waits.blocked
  have notOrphan : orphan.pid ≠ self.pid := by
    intro same
    rw [same, here, Option.some.injEq] at orphanThere
    rw [← orphanThere, running] at ended
    cases ended
  have after : (t.terminated self code).entries 1 = some (init.reparent self.pid 1) ∧
      (t.terminated self code).entries orphan.pid = some (orphan.reparent self.pid 1) := by
    rw [ProcessTree.terminated_entries, if_neg notInit, initThere, ProcessTree.terminated_entries,
      if_neg notOrphan, orphanThere]
    exact ⟨rfl, rfl⟩
  -- Reparenting makes the orphan a child of pid 1, which waits for any of its children.
  have still : (init.reparent self.pid 1).Waits ∧ (init.reparent self.pid 1).target = 0 := by
    rw [Process.reparent_eq]
    exact ⟨⟨waits.blocked, waits.reason⟩, any⟩
  have awaits : (orphan.reparent self.pid 1).isAwaited 1 (init.reparent self.pid 1).target = true := by
    rw [Process.isAwaited_iff, still.2, Process.reparent_eq, if_pos isChild]
    exact ⟨rfl, Or.inl rfl⟩
  intro prompt
  -- The exit may also have told the parent, which is somebody else.
  obtain plain | ⟨parent, above, handed⟩ := exits
  · subst plain
    refine prompt.alive after.1 still.1 ?_ awaits (by rw [Process.reparent_state, ended])
    rw [Process.reparent_pid]
    exact after.2
  · have parentPid := (formed.rooted.terminated here code).key above
    subst handed
    have notParent : (1 : UInt64) ≠ parent.pid := by
      rw [parentPid]
      exact Ne.symm notHeir
    by_cases woken : orphan.pid = parent.pid
    · -- A terminated orphan is not the parent, whose child is older than it is not.
      have older := formed.rooted.older orphanThere (by rw [woken]; exact Ne.symm notParent)
      have selfOlder := formed.rooted.older here (Ne.symm notInit)
      rw [isChild] at older
      rw [← parentPid, ← woken] at selfOlder
      omega
    refine @ProcessTree.Prompt.alive _ prompt 1 _ (orphan.reparent self.pid 1) ?_ still.1 ?_ awaits
      (by rw [Process.reparent_state, ended])
    · rw [ProcessTree.delivered_entries, if_neg notInit, if_neg notParent, after.1]
    · rw [Process.reparent_pid, ProcessTree.delivered_entries, if_neg notOrphan, if_neg woken,
        after.2]

end AtOS
