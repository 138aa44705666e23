import AtOS.Processes.Blocking

/-! Whoever waits for a child has a living one, and when a wakeup between wait and exit is lost. -/

namespace AtOS

variable {t next : ProcessTree} {self : Process}

/-- A process that is blocked in `wait`. -/
structure Process.Waits (process : Process) : Prop where
  blocked : process.state = .blocked
  reason : process.blockReason = some .waitingForChild

/-- The pid a process passed to `wait`, as it was saved. -/
def Process.target (process : Process) : UInt64 := process.pctx.x.get 0

/-- A child that a waiting process looks for: `IsWaitingFor` from the side of the parent. -/
theorem Process.isAwaited_iff {child : Process} {waiter target : UInt64} :
    child.isAwaited waiter target = true ↔
      child.parentPid = waiter ∧ (target = 0 ∨ child.pid = target) := by
  simp [Process.isAwaited]

/-- Whoever waits for a child has one that is alive and that it looks for. -/
structure ProcessTree.Awaited (t : ProcessTree) : Prop where
  child : ∀ {pid process}, t.entries pid = some process → process.Waits →
    ∃ child, t.entries child.pid = some child ∧
      child.isAwaited pid process.target = true ∧ child.state ≠ .terminated

/-- Nobody waits while a child that it looks for has terminated. -/
structure ProcessTree.Prompt (t : ProcessTree) : Prop where
  alive : ∀ {pid process child}, t.entries pid = some process → process.Waits →
    t.entries child.pid = some child → child.isAwaited pid process.target = true →
      child.state ≠ .terminated

/-- A living child is still a child of the same parent, and alive. -/
def ProcessTree.KeepsChild (next : ProcessTree) (child : Process) : Prop :=
  ∃ after, next.entries after.pid = some after ∧ after.pid = child.pid ∧
    after.parentPid = child.parentPid ∧ after.state ≠ .terminated

/-- Whoever waits afterwards waited before, for the same child, and that child is kept. -/
theorem ProcessTree.Awaited.keep (awaited : t.Awaited)
    (back : ∀ {pid process}, next.entries pid = some process → process.Waits →
      ∃ before, t.entries pid = some before ∧ before.Waits ∧ before.target = process.target)
    (kept : ∀ {pid before child}, t.entries pid = some before → before.Waits →
      next.entries pid ≠ none → (∀ process, next.entries pid = some process → process.Waits) →
      t.entries child.pid = some child → child.isAwaited pid before.target = true →
      child.state ≠ .terminated → next.KeepsChild child) :
    next.Awaited := by
  -- The child that was awaited before is still the one that is awaited.
  refine ⟨fun {pid process} here waits => ?_⟩
  obtain ⟨before, there, waited, target⟩ := back here waits
  obtain ⟨child, childThere, isChild, living⟩ := awaited.child there waited
  obtain ⟨after, afterHere, samePid, sameParent, alive⟩ := kept there waited
    (by rw [here]; exact Option.some_ne_none process)
    (fun other found => by rw [here, Option.some.injEq] at found; exact found ▸ waits)
    childThere isChild living
  refine ⟨after, afterHere, ?_, alive⟩
  rw [← target]
  rw [Process.isAwaited_iff] at isChild ⊢
  rw [samePid, sameParent]
  exact isChild

/-- A change in which everybody keeps the place keeps all living children. -/
theorem ProcessTree.SamePlaces.keepsChild (same : t.SamePlaces next) {child : Process}
    (there : t.entries child.pid = some child) (living : child.state ≠ .terminated) :
    next.KeepsChild child := by
  obtain ⟨after, here, place⟩ := same.symm.back there
  obtain ⟨pid, parent, terminated⟩ := Process.place_eq.mp place
  exact ⟨after, pid ▸ here, pid.symm, parent.symm, fun ended => living (terminated.mpr ended)⟩

/-- What keeps all places and makes nobody wait keeps a living child for whoever waits. -/
theorem ProcessTree.Awaited.samePlaces (awaited : t.Awaited) (same : t.SamePlaces next)
    (back : ∀ {pid process}, next.entries pid = some process → process.Waits →
      ∃ before, t.entries pid = some before ∧ before.Waits ∧ before.target = process.target) :
    next.Awaited :=
  awaited.keep back fun _ _ _ _ there _ living => same.keepsChild there living

/-- Whoever waits after one process became one that does not wait has waited before. -/
theorem ProcessTree.waits_back {pid : UInt64} {process : Option Process}
    (entries : next.entries = Function.update t.entries pid process)
    (idle : ∀ changed, process = some changed → ¬ changed.Waits) {other : UInt64}
    {waiter : Process} (here : next.entries other = some waiter) (waits : waiter.Waits) :
    t.entries other = some waiter ∧ other ≠ pid := by
  rw [entries, Function.update_apply] at here
  split at here
  · exact absurd waits (idle waiter here)
  · rename_i distinct
    exact ⟨here, distinct⟩

/-- Waking up makes nobody wait. -/
theorem Process.Waits.of_wakeup {process : Process} {channel : UInt64}
    (waits : (process.wakeup channel).Waits) : process.wakeup channel = process ∧ process.Waits := by
  unfold Process.wakeup at waits ⊢
  split at waits
  · cases waits.blocked
  · rename_i kept
    rw [if_neg kept]
    exact ⟨rfl, waits⟩

/-- One process that keeps its place and does not wait leaves everybody a living child. -/
theorem ProcessTree.Awaited.ofSet (awaited : t.Awaited) {changed : Process}
    (here : t.entries self.pid = some self)
    (entries : next.entries = Function.update t.entries self.pid (some changed))
    (nextPid : next.nextPid = t.nextPid) (idle : ¬ changed.Waits)
    (place : changed.place = self.place) : next.Awaited := by
  refine awaited.samePlaces (.ofSet here entries nextPid place) fun found waits => ?_
  obtain ⟨there, -⟩ := ProcessTree.waits_back entries (by rintro _ ⟨rfl⟩; exact idle) found waits
  exact ⟨_, there, waits, rfl⟩

/-- A process that waits after another has terminated has waited before. -/
theorem ProcessTree.terminated_waits {code pid : UInt64} {process : Process}
    (found : (t.terminated self code).entries pid = some process) (waits : process.Waits) :
    ∃ before, t.entries pid = some before ∧ before.Waits ∧ before.target = process.target ∧
      pid ≠ self.pid ∧ process.pid = before.pid := by
  rw [ProcessTree.terminated_entries] at found
  split at found
  · rw [Option.map_some, Option.some.injEq, Process.reparent_eq] at found
    rw [← found] at waits
    cases waits.blocked
  · rename_i distinct
    obtain ⟨before, there, changed⟩ := Option.map_eq_some_iff.mp found
    rw [Process.reparent_eq] at changed
    rw [← changed] at waits ⊢
    exact ⟨before, there, ⟨waits.blocked, waits.reason⟩, rfl, distinct, rfl⟩

/-- A child of another process is kept when a process terminates. -/
theorem ProcessTree.terminated_keepsChild {code : UInt64} {child : Process}
    (there : t.entries child.pid = some child) (living : child.state ≠ .terminated)
    (other : child.pid ≠ self.pid) (notChild : child.parentPid ≠ self.pid) :
    (t.terminated self code).KeepsChild child := by
  refine ⟨child, ?_, rfl, rfl, living⟩
  rw [ProcessTree.terminated_entries, if_neg other, there, Option.map_some, Process.reparent_eq,
    if_neg notChild]

/-- Everybody who still waits after an exit that nobody was handed has a living child. -/
theorem ProcessTree.Awaited.terminated (awaited : t.Awaited)
    (here : t.entries self.pid = some self) (code : UInt64)
    (unheard : ∀ parent, (t.terminated self code).entries self.parentPid = some parent →
      ¬ parent.IsWaitingFor self.pid) : (t.terminated self code).Awaited := by
  refine awaited.keep (fun found waits => ?_) ?_
  · -- Whoever waits after the exit waited before it, for the same target.
    obtain ⟨before, there, waited, target, -⟩ := ProcessTree.terminated_waits found waits
    exact ⟨before, there, waited, target⟩
  · intro pid before child there waited present still childThere isChild living
    obtain ⟨process, found⟩ := Option.ne_none_iff_exists'.mp present
    have waits := still process found
    obtain ⟨same, thereSame, -, target, distinct, -⟩ := ProcessTree.terminated_waits found waits
    rw [there, Option.some.injEq] at thereSame
    subst thereSame
    -- The child's parent is the one that waits, so it is not the one that exits.
    obtain ⟨parent, matched⟩ := Process.isAwaited_iff.mp isChild
    refine ProcessTree.terminated_keepsChild childThere living ?_ (parent ▸ distinct)
    -- Were the child the one that exits, its parent would have been handed the exit.
    intro exits
    rw [exits] at childThere
    rw [here, Option.some.injEq] at childThere
    subst childThere
    rw [target] at matched
    exact unheard process (parent ▸ found) ⟨waits.blocked, waits.reason, matched⟩

/-- Everybody who still waits after an exit was handed to the parent has a living child. -/
theorem ProcessTree.Awaited.delivered (awaited : t.Awaited) (formed : t.WellFormed)
    (here : t.entries self.pid = some self) {code : UInt64} {parent : Process}
    (above : (t.terminated self code).entries self.parentPid = some parent) :
    ((t.terminated self code).delivered parent self.pid code).Awaited := by
  have pid := (formed.rooted.terminated here code).key above
  -- Whoever waits afterwards is neither the process that exits nor its parent.
  have others : ∀ {pid process},
      ((t.terminated self code).delivered parent self.pid code).entries pid = some process →
      process.Waits → (t.terminated self code).entries pid = some process ∧ pid ≠ self.parentPid := by
    intro other process found waiting
    rw [ProcessTree.delivered_entries] at found
    split at found
    · cases found
    · split at found
      · rw [Option.some.injEq] at found
        rw [← found] at waiting
        cases waiting.blocked
      · rename_i distinct
        exact ⟨found, fun same => distinct (pid ▸ same)⟩
  refine awaited.keep (fun found waiting => ?_) ?_
  · obtain ⟨before, there, waited, target, -⟩ :=
      ProcessTree.terminated_waits (others found waiting).1 waiting
    exact ⟨before, there, waited, target⟩
  · intro other before child there waited present still childThere isChild living
    obtain ⟨process, found⟩ := Option.ne_none_iff_exists'.mp present
    have waiting := still process found
    obtain ⟨foundBefore, notParent⟩ := others found waiting
    obtain ⟨-, -, -, -, distinct, -⟩ := ProcessTree.terminated_waits foundBefore waiting
    obtain ⟨parentPid, -⟩ := Process.isAwaited_iff.mp isChild
    -- The child is not the one that exits, whose parent does not wait any more.
    have notSelf : child.pid ≠ self.pid := by
      intro exits
      rw [exits, here, Option.some.injEq] at childThere
      exact notParent (childThere ▸ parentPid.symm)
    have notChild : child.parentPid ≠ self.pid := parentPid ▸ distinct
    obtain ⟨after, afterThere, samePid, sameParent, alive⟩ : (t.terminated self code).KeepsChild child :=
      ProcessTree.terminated_keepsChild childThere living notSelf notChild
    by_cases woken : child.pid = parent.pid
    · -- The child may be the parent that is woken, which stays alive in its place.
      rw [samePid, woken, pid, above, Option.some.injEq] at afterThere
      refine ⟨{ parent with state := .ready, pctx := parent.pctx.deliver self.pid code }, ?_,
        woken.symm, ?_, by simp⟩
      · rw [ProcessTree.delivered_entries, if_neg (woken ▸ notSelf), if_pos rfl]
      · rw [← sameParent, ← afterThere]
    · -- Otherwise the child is as the exit left it.
      refine ⟨after, ?_, samePid, sameParent, alive⟩
      rw [ProcessTree.delivered_entries, if_neg (samePid ▸ notSelf), if_neg (samePid ▸ woken),
        afterThere]

/-- Every move leaves whoever waits a living child. -/
theorem ProcessTree.Move.awaited (move : t.Move next) (formed : t.WellFormed)
    (awaited : t.Awaited) : next.Awaited := by
  cases move with
  | save runs here pctx =>
    have state := formed.one.state runs here
    -- Whoever is running does not wait.
    refine awaited.ofSet here rfl rfl ?_ rfl
    exact fun waits => by simpa [state] using waits.blocked
  | @wakeup channel proper =>
    -- A wakeup keeps everyone's place and wakes nobody who waits for a child.
    have same : t.SamePlaces (t.mapAll (Process.wakeup channel)) :=
      .mapAll (Process.wakeup_place channel)
    refine awaited.samePlaces same fun {pid process} found waits => ?_
    obtain ⟨before, there, rfl⟩ := Option.map_eq_some_iff.mp found
    obtain ⟨kept, waited⟩ := waits.of_wakeup
    exact ⟨before, there, waited, by rw [kept]⟩
  | preempt runs here saved =>
    have living := formed.living runs here
    -- A ready process does not wait.
    refine awaited.ofSet here rfl rfl (fun waits => by cases waits.blocked) ?_
    exact Process.place_eq.mpr ⟨rfl, rfl, by simp [living]⟩
  | exec runs here pctx name =>
    have state := formed.one.state runs here
    refine awaited.ofSet here rfl rfl ?_ rfl
    exact fun waits => by simpa [state] using waits.blocked
  | @fork self child runs here room pid parent ready awake =>
    refine awaited.keep (fun found waits => ?_) ?_
    · obtain ⟨there, -⟩ := ProcessTree.waits_back (t := t) rfl
        (by rintro _ ⟨rfl⟩ waits; simpa [ready] using waits.blocked) found waits
      exact ⟨_, there, waits, rfl⟩
    · -- Nobody waits for the new child yet, and the old ones are as they were.
      intro _ _ old _ _ _ _ there _ living
      refine ⟨old, ?_, rfl, rfl, living⟩
      have below := formed.rooted.below there
      show (t.set child.pid child).entries old.pid = some old
      rw [ProcessTree.set_entries, if_neg ?_, there]
      intro same
      rw [same, pid] at below
      exact absurd below (Nat.lt_irrefl _)
  | exit runs here code unheard => exact awaited.terminated here code unheard
  | exitDelivered runs here code above waits => exact awaited.delivered formed here above
  | @reap self child runs here target there isChild ended =>
    refine awaited.keep (fun found waits => ?_) ?_
    · obtain ⟨before, -⟩ := ProcessTree.waits_back (t := t) rfl (by rintro _ ⟨⟩) found waits
      exact ⟨_, before, waits, rfl⟩
    · intro _ _ other _ _ _ _ otherThere _ living
      refine ⟨other, ?_, rfl, rfl, living⟩
      show (t.set child.pid none).entries other.pid = some other
      rw [ProcessTree.set_entries, if_neg ?_, otherThere]
      -- The child that is reaped has terminated, so it is not a living one.
      intro same
      rw [same, there, Option.some.injEq] at otherThere
      exact living (otherThere ▸ ended)
  | notFound runs here target none => exact ⟨awaited.child⟩
  | @await self child runs here saved there isChild alive =>
    -- The process stays in its place, so what others wait for is where it was.
    have living := formed.living runs here
    have same : t.SamePlaces { t.set self.pid (some
        { self with state := .blocked, blockReason := some .waitingForChild }) with
        running := none } :=
      .ofSet here rfl rfl (Process.place_eq.mpr ⟨rfl, rfl, by simp [living]⟩)
    refine ⟨fun {pid process} found waits => ?_⟩
    -- The process that starts to wait has just seen a living child.
    have witness : ∃ before child, t.entries before.pid = some before ∧ before.pid = pid ∧
        before.target = process.target ∧ t.entries child.pid = some child ∧
        child.isAwaited pid before.target = true ∧ child.state ≠ .terminated := by
      rw [show _ = (t.set self.pid _).entries from rfl, ProcessTree.set_entries] at found
      split at found
      · rename_i isSelf
        rw [Option.some.injEq] at found
        refine ⟨self, child, here, isSelf.symm, by rw [← found]; rfl, there, isSelf ▸ isChild, ?_⟩
        exact alive _ _ there isChild
      · obtain ⟨other, otherThere, isOther, lives⟩ := awaited.child found waits
        have key := formed.pid_eq found
        exact ⟨process, other, key.symm ▸ found, key, rfl, otherThere, isOther, lives⟩
    obtain ⟨before, other, -, -, target, otherThere, isOther, lives⟩ := witness
    -- The awaited child is still there and still alive.
    obtain ⟨after, afterHere, samePid, sameParent, alive⟩ := same.keepsChild otherThere lives
    refine ⟨after, afterHere, ?_, alive⟩
    rw [Process.isAwaited_iff] at isOther ⊢
    rw [← target, samePid, sameParent]
    exact isOther
  | sleep runs here proper other pctx =>
    -- A process that sleeps in the kernel waits for no child.
    have living := formed.living runs here
    refine awaited.ofSet here rfl rfl ?_ (Process.place_eq.mpr ⟨rfl, rfl, by simp [living]⟩)
    exact fun waits => other (Option.some.inj waits.reason)
  | load idle here ready =>
    -- A process that is loaded was ready and is running now, so it does not wait.
    refine awaited.ofSet here rfl rfl (fun waits => by cases waits.blocked) ?_
    exact Process.place_eq.mpr ⟨rfl, rfl, by simp [ready]⟩

end AtOS
