import AtOS.Processes.Delivery

/-! An exit that strands an orphan loses a wakeup, and no other step does. -/

namespace AtOS

open SlotTable

variable {files : String → Option (List UInt8)} {m next : Machine} {t mid : ProcessTree}
  {self : Process}

/--
The exit of a process would strand an orphan.

A terminated child of it goes to pid 1, which waits for any child, and not pid 1 is its parent.
-/
def Kernel.Strands (k : Kernel) (self : Process) : Prop :=
  self.parentPid ≠ 1 ∧ ∃ first init slot orphan, k.processTable first = some init ∧ init.pid = 1 ∧
    init.Waits ∧ init.target = 0 ∧ k.processTable slot = some orphan ∧
    orphan.parentPid = self.pid ∧ orphan.state = .terminated

/-- A step lets nobody exit whose exit would strand an orphan. -/
def Machine.Calm (m : Machine) (action : Action) : Prop :=
  ∀ self ctx, m.Calls action self ctx 3 → ¬ m.kernel.Strands self

/-- Nobody waits while a child that it looks for has terminated. -/
def Machine.WakesWaiters (m : Machine) : Prop :=
  ∀ slot process other child, m.kernel.processTable slot = some process → process.Waits →
    m.kernel.processTable other = some child →
    child.isAwaited process.pid process.target = true → child.state ≠ .terminated

/-- Slots and the tree agree on whether anybody waits in vain. -/
theorem Machine.Valid.wakesWaiters_iff (valid : m.Valid) : m.WakesWaiters ↔ m.tree.Prompt := by
  constructor
  · intro wakes
    refine ⟨fun {pid process child} here waits there isChild => ?_⟩
    obtain ⟨slot, inSlot, samePid⟩ := Machine.slot_of_entries here
    obtain ⟨other, inOther, -⟩ := Machine.slot_of_entries there
    exact wakes slot process other child inSlot waits inOther (samePid ▸ isChild)
  · intro prompt slot process other child inSlot waits inOther isChild
    exact prompt.alive (valid.entries_slot inSlot) waits (valid.entries_slot inOther) isChild

/-- Slots and the tree agree on whether an exit strands an orphan. -/
theorem Machine.Valid.strands_iff (valid : m.Valid) :
    m.kernel.Strands self ↔ m.tree.Strands self := by
  constructor
  · rintro ⟨notInit, first, init, slot, orphan, inFirst, pid, waits, any, inSlot, isChild, ended⟩
    have initHere := valid.entries_slot inFirst
    rw [pid] at initHere
    exact ⟨notInit, init, orphan, initHere, waits, any, valid.entries_slot inSlot, isChild, ended⟩
  · rintro ⟨notInit, init, orphan, initHere, waits, any, orphanHere, isChild, ended⟩
    obtain ⟨first, inFirst, pid⟩ := Machine.slot_of_entries initHere
    obtain ⟨slot, inSlot, -⟩ := Machine.slot_of_entries orphanHere
    exact ⟨notInit, first, init, slot, orphan, inFirst, pid, waits, any, inSlot, isChild, ended⟩

/-- A prelude changes nothing about whether the exit of the running process strands an orphan. -/
theorem ProcessTree.Prelude.strands_iff (prelude : t.Prelude mid) (invariant : t.Invariant)
    {later : Process} (samePid : later.pid = self.pid)
    (sameParent : later.parentPid = self.parentPid) : mid.Strands later ↔ t.Strands self := by
  unfold ProcessTree.Strands
  rw [samePid, sameParent]
  have formed := (prelude.invariant invariant).formed
  -- Whoever waits or has terminated does not run.
  have back : ∀ {pid process}, mid.entries pid = some process → process.state ≠ .running →
      process.state ≠ .ready → t.entries pid = some process := by
    intro pid process here notRunning notReady
    have idle : t.running ≠ some pid := by
      intro same
      exact notRunning ((formed.one.running here).mpr (prelude.running.trans same))
    exact (prelude.back here idle).resolve_right notReady
  -- The prelude saves a context and wakes readers up, which is no matter to either side.
  constructor
  · rintro ⟨notInit, init, orphan, initHere, waits, any, orphanHere, isChild, ended⟩
    exact ⟨notInit, init, orphan, back initHere (by simp [waits.blocked]) (by simp [waits.blocked]),
      waits, any, back orphanHere (by simp [ended]) (by simp [ended]), isChild, ended⟩
  · rintro ⟨notInit, init, orphan, initHere, waits, any, orphanHere, isChild, ended⟩
    obtain ⟨kept, laterHere, place⟩ := prelude.samePlaces.symm.back orphanHere
    obtain ⟨pid, parent, terminated⟩ := Process.place_eq.mp place
    exact ⟨notInit, init, kept, prelude.waits_kept invariant initHere waits, waits, any,
      pid ▸ laterHere, parent ▸ isChild, terminated.mp ended⟩

/-- A prelude makes nobody wait in vain. -/
theorem ProcessTree.Prelude.prompt (prelude : t.Prelude mid) (invariant : t.Invariant)
    (prompt : t.Prompt) : mid.Prompt := by
  refine (prelude.induction (motive := fun mid => mid.Invariant ∧ mid.Prompt)
    ⟨invariant, prompt⟩ fun {before after} runs holds move same => ?_).2
  refine ⟨move.invariant holds.1,
    move.prompt holds.1.formed holds.1.awaited holds.2 fun {self} isRunning here exits => ?_⟩
  -- Nobody exits, since the process that runs goes on running.
  obtain ⟨code, plain | ⟨parent, handed⟩⟩ := exits
  · rw [plain] at same
    rw [← runs, isRunning] at same
    cases same
  · rw [handed] at same
    rw [← runs, isRunning] at same
    cases same

/-- An exit that the tree shows is a call of `exit`, by the process that runs. -/
theorem Machine.Outcome.calls_of_exits {action : Action}
    (outcome : m.Outcome files action (.ok next)) (valid : m.Valid)
    (prelude : m.tree.Prelude mid) (runs : mid.running = some self.pid)
    (exits : mid.ExitsTo self next.tree) :
    ∃ caller ctx, m.Calls action caller ctx 3 ∧ caller.pid = self.pid := by
  obtain ⟨new, settles⟩ := outcome.settles valid
  obtain ⟨code, shape⟩ := exits
  -- The exit is in the log of the next machine.
  have recorded : .exited self.pid code ∈ next.kernel.log := by
    have member : .exited self.pid code ∈ next.tree.log := by
      rcases shape with plain | ⟨parent, handed⟩
      · rw [plain]
        exact List.mem_cons_self
      · rw [handed]
        exact List.mem_cons_of_mem _ List.mem_cons_self
    exact member
  rw [settles.log] at recorded
  rcases List.mem_append.mp recorded with isNew | old
  · -- If the exit is new, this step is the call that made it.
    obtain ⟨caller, ctx, calls, pid, -⟩ := settles.justified _ isNew
    exact ⟨caller, ctx, calls, pid⟩
  · -- A process that has exited before does not run.
    have invariant := valid.invariant
    have runsBefore : m.tree.running = some self.pid := prelude.running.symm.trans runs
    obtain ⟨process, here⟩ := invariant.formed.one.present runsBefore
    have member : self.pid ∈ m.tree.log.filterMap Event.exiting :=
      List.mem_filterMap.mpr ⟨_, old, rfl⟩
    have ended := (invariant.statuses.exited member).2 process here
    rw [(invariant.formed.one.running here).mpr runsBefore] at ended
    cases ended

/-- The caller of a system call is the process that runs. -/
theorem Machine.Calls.running {action : Action} {caller : Process} {ctx : ExceptionContext}
    {number : Nat} (calls : m.Calls action caller ctx number)
    (outcome : m.Outcome files action (.ok next)) :
    m.tree.running = some caller.pid ∧ m.tree.entries caller.pid = some caller := by
  obtain ⟨⟨devices, rfl⟩, current, -⟩ := calls
  generalize goesOn : (.ok next : Except Stop Machine) = result at outcome
  cases outcome with
  | @trap before _ _ process mid running runs fromUser stack table entered leads reports =>
    have same : m.kernel.getCurrentProcess = some process := runs.current
    rw [current, Option.some.injEq] at same
    subst same
    have tree := m.tree_runs runs (by simp [running])
    rw [tree]
    exact ⟨rfl, runs.here⟩

/-- A calm step makes nobody wait in vain. -/
theorem Machine.Outcome.prompt {action : Action} (outcome : m.Outcome files action (.ok next))
    (valid : m.Valid) (calm : m.Calm action) (prompt : m.tree.Prompt) : next.tree.Prompt := by
  have invariant := valid.invariant
  cases (outcome.turn valid rfl).2 with
  | rest prelude => exact prelude.prompt invariant prompt
  | @move mid _ prelude move =>
    have invariantMid := prelude.invariant invariant
    refine move.prompt invariantMid.formed invariantMid.awaited (prelude.prompt invariant prompt)
      fun {self} runs here exits stranded => ?_
    obtain ⟨caller, ctx, calls, pid⟩ := outcome.calls_of_exits valid prelude runs exits
    obtain ⟨-, callerHere⟩ := calls.running outcome
    obtain ⟨before, there, place⟩ := prelude.samePlaces.back here
    rw [← pid, callerHere, Option.some.injEq] at there
    subst there
    obtain ⟨-, parent, -⟩ := Process.place_eq.mp place
    exact calm caller ctx calls
      (valid.strands_iff.mpr ((prelude.strands_iff invariant pid.symm parent).mp stranded))

/-- An exit that strands an orphan leaves pid 1 waiting in vain. -/
theorem Machine.Outcome.stranded {action : Action} (outcome : m.Outcome files action (.ok next))
    (valid : m.Valid) {ctx : ExceptionContext} (calls : m.Calls action self ctx 3)
    (strands : m.kernel.Strands self) : ¬ next.tree.Prompt := by
  have invariant := valid.invariant
  obtain ⟨runsNow, -⟩ := calls.running outcome
  obtain ⟨⟨devices, rfl⟩, current, isExit⟩ := calls
  generalize goesOn : (.ok next : Except Stop Machine) = result at outcome
  -- Only a kernel entry calls `exit`.
  cases outcome with
  | @trap before _ _ process mid running runs fromUser stack table entered leads reports =>
    have same : m.kernel.getCurrentProcess = some process := runs.current
    rw [current, Option.some.injEq] at same
    subst same
    obtain ⟨k, -, entered, ⟨-, call⟩ | ⟨notSyscall, -⟩⟩ :=
      runs.handleExceptionEl1_cases files devices fromUser
    · -- The call is `exit`, so `sys_exit` runs in the kernel that the prelude left.
      have exitCall : k.handleSyscall files ctx = k.sysExit ctx := by
        unfold Kernel.handleSyscall
        rw [isExit.immediate]
        rfl
      have currentNow : k.getCurrentProcess = some { self with pctx := .fromEctx ctx } :=
        entered.runs.current
      rw [call, exitCall, Kernel.sysExit, currentNow] at goesOn
      dsimp only at goesOn
      have formed := entered.runs.invariant.formed
      -- Whoever would be stranded before the prelude would be stranded after it.
      have strandsNow := (@ProcessTree.Prelude.strands_iff _ _ _
        (m.prelude_entered running runs entered) invariant { self with pctx := .fromEctx ctx } rfl
        rfl).mpr (valid.strands_iff.mp strands)
      rcases entered.runs.exitProcess (ctx.x.get 0) with ⟨-, error, failed⟩ | ⟨after, done, exited⟩
      · rw [failed] at goesOn
        cases goesOn
      · rw [done] at goesOn
        cases goesOn
        -- The exit has happened, so the waiter is stranded now.
        refine strandsNow.not_prompt formed rfl entered.runs.here (exited.exits.imp_right ?_)
        exact fun ⟨parent, above, _, handed⟩ => ⟨parent, above, handed⟩
    · rw [isExit.immediate] at notSyscall
      exact absurd isExit notSyscall

end AtOS
