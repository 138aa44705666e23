import AtOS.Processes.Waiting

/-! Every exit is reported by one `wait` at most, with the code that was passed to `exit`. -/

namespace AtOS

variable {t next : ProcessTree} {self : Process}

/-- The child whose exit an event reports to its parent. -/
def Event.settled : Event → Option UInt64
  | .reaped _ _ child _ => some child
  | .delivered _ _ child _ => some child
  | _ => none

/-- The process that an event lets exit. -/
def Event.exiting : Event → Option UInt64
  | .exited pid _ => some pid
  | _ => none

/-- Exits are recorded once, and reported once at most, after which the process is gone. -/
structure ProcessTree.Statuses (t : ProcessTree) : Prop where
  once : (t.log.filterMap Event.settled).Nodup
  gone : ∀ {child}, child ∈ t.log.filterMap Event.settled →
    t.entries child = none ∧ child.toNat < t.nextPid.toNat
  exits : (t.log.filterMap Event.exiting).Nodup
  exited : ∀ {pid}, pid ∈ t.log.filterMap Event.exiting → pid.toNat < t.nextPid.toNat ∧
    ∀ process, t.entries pid = some process → process.state = .terminated
  code : ∀ {pid process}, t.entries pid = some process → process.state = .terminated →
    .exited pid process.exitCode.toUInt64 ∈ t.log
  reported : ∀ {event child}, event ∈ t.log → event.settled = some child →
    ∃ waiter target code, (event = .reaped waiter target child code ∨
      event = .delivered waiter target child code) ∧ .exited child code ∈ t.log

/-- A change that lets nobody exit, reports nothing and removes nobody keeps the statuses. -/
theorem ProcessTree.Statuses.keep (statuses : t.Statuses) (new : List Event)
    (log : next.log = new ++ t.log)
    (quiet : ∀ event ∈ new, event.settled = none ∧ event.exiting = none)
    (nextPid : t.nextPid.toNat ≤ next.nextPid.toNat)
    (back : ∀ {pid process}, next.entries pid = some process →
      (∃ before, t.entries pid = some before ∧
        (process.state = .terminated ↔ before.state = .terminated) ∧
        process.exitCode = before.exitCode) ∨
      (t.nextPid.toNat ≤ pid.toNat ∧ process.state ≠ .terminated)) : next.Statuses := by
  -- No new event settles an exit or reports one.
  have noSettled : new.filterMap Event.settled = [] :=
    List.filterMap_eq_nil_iff.mpr fun event member => (quiet event member).1
  have noExiting : new.filterMap Event.exiting = [] :=
    List.filterMap_eq_nil_iff.mpr fun event member => (quiet event member).2
  have settled : next.log.filterMap Event.settled = t.log.filterMap Event.settled := by
    rw [log, List.filterMap_append, noSettled, List.nil_append]
  have exiting : next.log.filterMap Event.exiting = t.log.filterMap Event.exiting := by
    rw [log, List.filterMap_append, noExiting, List.nil_append]
  -- Everything that was in the log still is.
  have recorded : ∀ {event}, event ∈ t.log → event ∈ next.log := by
    intro event member
    rw [log]
    exact List.mem_append_right new member
  -- Every part is about old events or about processes that were there before.
  constructor
  case once => exact settled ▸ statuses.once
  case gone =>
    intro child member
    obtain ⟨removed, below⟩ := statuses.gone (settled ▸ member)
    refine ⟨?_, Nat.lt_of_lt_of_le below nextPid⟩
    rw [Option.eq_none_iff_forall_ne_some]
    intro process here
    rcases back here with ⟨before, there, -⟩ | ⟨above, -⟩
    · rw [removed] at there
      cases there
    · omega
  case exits => exact exiting ▸ statuses.exits
  case exited =>
    intro pid member
    obtain ⟨below, ended⟩ := statuses.exited (exiting ▸ member)
    -- Whoever has exited is terminated now if it was before, and new pids are larger.
    refine ⟨Nat.lt_of_lt_of_le below nextPid, fun process here => ?_⟩
    rcases back here with ⟨before, there, state, -⟩ | ⟨above, -⟩
    · exact state.mpr (ended before there)
    · omega
  case code =>
    intro pid process here ended
    rcases back here with ⟨before, there, state, code⟩ | ⟨-, living⟩
    · rw [code]
      exact recorded (statuses.code there (state.mp ended))
    · exact absurd ended living
  case reported =>
    intro event child member isSettled
    rw [log, List.mem_append] at member
    rcases member with isNew | old
    · rw [(quiet event isNew).1] at isSettled
      cases isSettled
    · obtain ⟨waiter, target, code, shape, exited⟩ := statuses.reported old isSettled
      exact ⟨waiter, target, code, shape, recorded exited⟩

/-- Changing one process that is not terminated into one that is not terminated is quiet. -/
theorem ProcessTree.Statuses.set (statuses : t.Statuses) (new : List Event) {changed : Process}
    (here : t.entries self.pid = some self) (living : self.state ≠ .terminated)
    (entries : next.entries = Function.update t.entries self.pid (some changed))
    (log : next.log = new ++ t.log)
    (quiet : ∀ event ∈ new, event.settled = none ∧ event.exiting = none)
    (nextPid : next.nextPid = t.nextPid) (alive : changed.state ≠ .terminated)
    (code : changed.exitCode = self.exitCode) : next.Statuses := by
  refine statuses.keep new log quiet (Nat.le_of_eq (by rw [nextPid])) fun {pid process} found => ?_
  rw [entries, Function.update_apply] at found
  split at found
  · rename_i same
    rw [Option.some.injEq] at found
    subst found
    exact Or.inl ⟨self, same ▸ here, by simp [living, alive], code⟩
  · exact Or.inl ⟨process, found, Iff.rfl, rfl⟩

/-- An exit is recorded for the first time when a living process exits. -/
theorem ProcessTree.Statuses.terminated (statuses : t.Statuses) (formed : t.WellFormed)
    (runs : t.running = some self.pid) (here : t.entries self.pid = some self) (code : UInt64) :
    (t.terminated self code).Statuses := by
  -- An exit without a delivery settles nothing and adds one exit.
  have settled : (t.terminated self code).log.filterMap Event.settled =
      t.log.filterMap Event.settled := rfl
  have exiting : (t.terminated self code).log.filterMap Event.exiting =
      self.pid :: t.log.filterMap Event.exiting := rfl
  have living := formed.living runs here
  -- The process that exits is terminated with its code, and the others are as they were.
  have back : ∀ {pid process}, (t.terminated self code).entries pid = some process →
      (pid = self.pid ∧ process.state = .terminated ∧ process.exitCode = code.toInt64) ∨
      ∃ before, t.entries pid = some before ∧ process.state = before.state ∧
        process.exitCode = before.exitCode := by
    intro pid process found
    rw [ProcessTree.terminated_entries] at found
    split at found
    · rename_i same
      rw [Option.map_some, Option.some.injEq, Process.reparent_eq] at found
      exact Or.inl ⟨same, by rw [← found], by rw [← found]⟩
    · obtain ⟨before, there, changed⟩ := Option.map_eq_some_iff.mp found
      rw [Process.reparent_eq] at changed
      exact Or.inr ⟨before, there, by rw [← changed], by rw [← changed]⟩
  constructor
  case once => exact settled ▸ statuses.once
  case gone =>
    intro child member
    obtain ⟨removed, below⟩ := statuses.gone (settled ▸ member)
    refine ⟨?_, below⟩
    rw [Option.eq_none_iff_forall_ne_some]
    intro process found
    rcases back found with ⟨same, -⟩ | ⟨before, there, -⟩
    · rw [same, here] at removed
      cases removed
    · rw [removed] at there
      cases there
  -- The process had not exited before, since it was alive.
  case exits =>
    rw [exiting, List.nodup_cons]
    refine ⟨fun member => ?_, statuses.exits⟩
    exact living ((statuses.exited member).2 self here)
  case exited =>
    intro pid member
    rw [exiting, List.mem_cons] at member
    rcases member with rfl | old
    · refine ⟨formed.rooted.below here, fun process found => ?_⟩
      rcases back found with ⟨-, ended, -⟩ | ⟨before, there, -⟩
      · exact ended
      · rw [formed.rooted.terminated_self here, Option.some.injEq] at found
        rw [← found]
    · obtain ⟨below, ended⟩ := statuses.exited old
      refine ⟨below, fun process found => ?_⟩
      rcases back found with ⟨-, ended, -⟩ | ⟨before, there, state, -⟩
      · exact ended
      · rw [state]
        exact ended before there
  -- The exit's own event has the code, and older codes are in the log already.
  case code =>
    intro pid process found ended
    rcases back found with ⟨rfl, -, exitCode⟩ | ⟨before, there, state, exitCode⟩
    · rw [exitCode, UInt64.toUInt64_toInt64]
      exact List.mem_cons_self
    · rw [exitCode]
      exact List.mem_cons_of_mem _ (statuses.code there (state ▸ ended))
  case reported =>
    intro event child member isSettled
    rcases List.mem_cons.mp member with rfl | old
    · cases isSettled
    · obtain ⟨waiter, target, given, shape, exited⟩ := statuses.reported old isSettled
      exact ⟨waiter, target, given, shape, List.mem_cons_of_mem _ exited⟩

/-- Reporting the exit of a terminated process, and removing it, happens once. -/
theorem ProcessTree.Statuses.settle (statuses : t.Statuses) {child : Process} {event : Event}
    {waiter target : UInt64} (below : child.pid.toNat < t.nextPid.toNat)
    (there : t.entries child.pid = some child) (ended : child.state = .terminated)
    (shape : event = .reaped waiter target child.pid child.exitCode.toUInt64 ∨
      event = .delivered waiter target child.pid child.exitCode.toUInt64)
    (log : next.log = event :: t.log) (nextPid : next.nextPid = t.nextPid)
    (removed : next.entries child.pid = none)
    (back : ∀ {pid process}, next.entries pid = some process → ∃ before,
      t.entries pid = some before ∧ (process.state = .terminated ↔ before.state = .terminated) ∧
        process.exitCode = before.exitCode) : next.Statuses := by
  -- Both kinds of event settle the child's exit and report no new one.
  have isSettled : event.settled = some child.pid := by
    rcases shape with rfl | rfl <;> rfl
  have notExiting : event.exiting = none := by
    rcases shape with rfl | rfl <;> rfl
  have settled : next.log.filterMap Event.settled =
      child.pid :: t.log.filterMap Event.settled := by
    -- The log gets one settled exit on top and no new exit.
    rw [log, List.filterMap_cons_some isSettled]
  have exiting : next.log.filterMap Event.exiting = t.log.filterMap Event.exiting := by
    rw [log, List.filterMap_cons_none notExiting]
  constructor
  case once =>
    rw [settled, List.nodup_cons]
    refine ⟨fun member => ?_, statuses.once⟩
    -- What was reported before is gone, and this child is still there.
    have gone := (statuses.gone member).1
    rw [there] at gone
    cases gone
  case gone =>
    intro other member
    rw [settled, List.mem_cons] at member
    -- The child is gone and stays gone. Those that were settled before are gone as well.
    rw [nextPid]
    rcases member with rfl | old
    · exact ⟨removed, below⟩
    · obtain ⟨gone, belowOther⟩ := statuses.gone old
      refine ⟨?_, belowOther⟩
      rw [Option.eq_none_iff_forall_ne_some]
      intro process found
      obtain ⟨before, foundBefore, -⟩ := back found
      rw [gone] at foundBefore
      cases foundBefore
  case exits => exact exiting ▸ statuses.exits
  case exited =>
    intro pid member
    obtain ⟨belowPid, terminated⟩ := statuses.exited (exiting ▸ member)
    refine ⟨nextPid ▸ belowPid, fun process found => ?_⟩
    obtain ⟨before, foundBefore, state, -⟩ := back found
    exact state.mpr (terminated before foundBefore)
  -- Whoever is left had exited before, if it has at all.
  case code =>
    intro pid process found terminated
    obtain ⟨before, foundBefore, state, code⟩ := back found
    rw [log, code]
    exact List.mem_cons_of_mem _ (statuses.code foundBefore (state.mp terminated))
  case reported =>
    intro other reportedChild member isReported
    rw [log, List.mem_cons] at member
    rw [log]
    -- What is reported is the child's own exit, which is in the log since it ended.
    rcases member with rfl | old
    · rw [isSettled, Option.some.injEq] at isReported
      subst isReported
      exact ⟨waiter, target, _, shape, List.mem_cons_of_mem _ (statuses.code there ended)⟩
    · obtain ⟨waiter, target, code, same, exited⟩ := statuses.reported old isReported
      exact ⟨waiter, target, code, same, List.mem_cons_of_mem _ exited⟩

/-- Every move keeps the statuses. -/
theorem ProcessTree.Move.statuses (move : t.Move next) (formed : t.WellFormed)
    (statuses : t.Statuses) : next.Statuses := by
  -- A settled exit is the work of `exit` with a waiting parent and of `reap`, and of nobody else.
  cases move with
  | save runs here pctx =>
    have living := formed.living runs here
    exact statuses.set [.saved _ pctx] here living rfl rfl (by simp [Event.settled, Event.exiting])
      rfl living rfl
  | @wakeup channel proper =>
    refine statuses.keep [] rfl (by simp) (Nat.le_refl _) fun {pid process} found => ?_
    obtain ⟨before, there, rfl⟩ := Option.map_eq_some_iff.mp found
    -- A wakeup terminates nobody and leaves the exit codes alone.
    refine Or.inl ⟨before, there, (Process.place_eq.mp (Process.wakeup_place _ _)).2.2, ?_⟩
    unfold Process.wakeup
    split <;> rfl
  | preempt runs here saved =>
    exact statuses.set [] here (formed.living runs here) rfl rfl (by simp) rfl (by simp) rfl
  | exec runs here pctx name =>
    have living := formed.living runs here
    exact statuses.set [] here living rfl rfl (by simp) rfl living rfl
  | @fork self child runs here room pid parent ready awake =>
    refine statuses.keep [.created child.pid child.pctx] rfl
      (by simp [Event.settled, Event.exiting]) ?_ fun {other process} found => ?_
    · -- The counter goes up by one, and the child is alive with the pid it had.
      show t.nextPid.toNat ≤ (t.nextPid + 1).toNat
      rw [UInt64.toNat_add]
      exact (Nat.mod_eq_of_lt room).symm ▸ Nat.le_succ _
    · rw [show _ = (t.set child.pid child).entries from rfl, ProcessTree.set_entries] at found
      split at found
      · rename_i same
        rw [Option.some.injEq] at found
        subst found
        exact Or.inr ⟨by rw [same, pid], by simp [ready]⟩
      · exact Or.inl ⟨process, found, Iff.rfl, rfl⟩
  | exit runs here code unheard => exact statuses.terminated formed runs here code
  | @exitDelivered self parent runs here code above waits =>
    -- The exit comes first, and the delivery settles it at once.
    have after := statuses.terminated formed runs here code
    have rooted := formed.rooted.terminated here code
    have pid := rooted.key above
    have selfThere := formed.rooted.terminated_self here code
    refine @Statuses.settle _ _ after { self with exitCode := code.toInt64, state := .terminated }
      _ parent.pid (parent.pctx.x.get 0) (rooted.below selfThere) selfThere rfl (Or.inr rfl) rfl rfl ?_ ?_
    · rw [ProcessTree.delivered_entries, if_pos rfl]
    · intro other process found
      rw [ProcessTree.delivered_entries] at found
      split at found
      · cases found
      · split at found
        · rename_i isParent
          rw [Option.some.injEq] at found
          subst found
          -- The parent that is told is not terminated, neither before nor after.
          exact ⟨parent, isParent.trans pid ▸ above, by simp [waits.blocked], rfl⟩
        · exact ⟨process, found, Iff.rfl, rfl⟩
  | @reap self child runs here target there awaited ended =>
    refine statuses.settle (formed.rooted.below there) there ended (Or.inl rfl) rfl rfl ?_ ?_
    · -- A reaped child has no entry any more.
      exact Function.update_self ..
    · intro other process found
      rw [show _ = (t.set child.pid none).entries from rfl, ProcessTree.set_entries] at found
      split at found
      · cases found
      · exact ⟨process, found, Iff.rfl, rfl⟩
  | @notFound self runs here target none =>
    exact statuses.keep [.notFound self.pid target] rfl (by simp [Event.settled, Event.exiting])
      (Nat.le_refl _) fun found => Or.inl ⟨_, found, Iff.rfl, rfl⟩
  | await runs here saved there awaited alive =>
    exact statuses.set [] here (formed.living runs here) rfl rfl (by simp) rfl (by simp) rfl
  | sleep runs here proper other pctx =>
    exact statuses.set [.saved _ pctx] here (formed.living runs here) rfl rfl
      (by simp [Event.settled, Event.exiting]) rfl (by simp) rfl
  | @load self idle here ready =>
    exact statuses.set [.loaded _ self.pctx] here (by simp [ready]) rfl rfl
      (by simp [Event.settled, Event.exiting]) rfl (by simp) rfl

end AtOS
