import AtOS.Processes.Calls

/-! `sys_exit`: the process terminates, and its parent is handed the exit code if it waits. -/

namespace AtOS

open SlotTable

variable {k next : Kernel} {inKernel : UInt64 → Bool} {self : Process}

/-- The entry of a process that has terminated. -/
def Process.over (process : Process) (code : UInt64) : Process :=
  { process with exitCode := code.toInt64, state := .terminated }

/-- A kernel in the middle of `sys_exit`: the process has terminated and its parent is next. -/
structure Kernel.Exiting (k : Kernel) (inKernel : UInt64 → Bool) (process : Process) (code : UInt64)
    (next : Kernel) : Prop where
  distinct : Distinct next.processTable
  tree : next.tree inKernel none = (k.tree inKernel (some process.pid)).terminated process code
  slot : next.processTable next.currentProcess = some (process.over code)
  lock : next.processTableLock = true
  mutexes : next.mutexes = k.mutexes

/-- `terminate` leaves the kernel in the middle of `sys_exit`. -/
theorem Kernel.Runs.terminate (runs : k.Runs inKernel self) {code : UInt64}
    (done : { k with processTableLock := true }.terminate k.currentProcess self code.toInt64 =
      .ok next) :
    k.Exiting inKernel self code (next.record (.exited self.pid code)) := by
  -- The entry is terminated and its children get pid 1 as their parent. Nothing else is written.
  obtain ⟨_, _, rfl⟩ := Kernel.terminate_ok done
  have put := @Distinct.put_same k.processTable k.currentProcess runs.distinct self
    (self.over code) runs.current rfl
  have reparented := put.1.modifyAll (Process.reparent_pid self.pid 1)
  refine ⟨reparented.1, ?_, ?_, rfl, rfl⟩
  · have entries := reparented.2
    rw [put.2] at entries
    show Kernel.tree _ inKernel none = _
    simp only [Kernel.tree, Kernel.record, ProcessTree.terminated, ProcessTree.set,
      ProcessTree.mapAll]
    congr 1
  · show (SlotTable.put k.processTable k.currentProcess (some (self.over code))
      k.currentProcess).map (Process.reparent self.pid 1) = _
    -- The process is not its own child, so its entry is not reparented.
    have notOwn : self.parentPid ≠ self.pid := runs.invariant.formed.rooted.parent_ne runs.here
    rw [put_self, Option.map_some, Process.reparent, if_neg (show ¬ (self.over code).parentPid = self.pid from notOwn)]

/-- The parent of the process that exits, if there is one. -/
theorem Kernel.Exiting.parent {mid : Kernel} {code : UInt64}
    (exiting : k.Exiting inKernel self code mid) {slot : Fin maxProcesses} {parent : Process}
    (found : mid.findById self.parentPid = some slot)
    (there : mid.processTable slot = some parent) :
    ((k.tree inKernel (some self.pid)).terminated self code).entries self.parentPid = some parent ∧
      parent.pid = self.parentPid := by
  obtain ⟨second, secondThere, passes⟩ := find_some found
  rw [there, Option.some.injEq] at secondThere
  subst secondThere
  have pid : parent.pid = self.parentPid := by simpa using passes
  refine ⟨?_, pid⟩
  rw [← exiting.tree, ← pid]
  exact exiting.distinct.entriesOf_slot there

/-- Removing a process whose slot is known. -/
theorem Kernel.removeProcess_found {pid : UInt64} {slot : Fin maxProcesses}
    (found : find k.processTable (fun process => process.pid == pid) = some slot) :
    k.removeProcessFromPtable pid = .ok (k.setEntry slot none) := by
  unfold Kernel.removeProcessFromPtable Kernel.findById
  rw [found]

/-- What `wakeParent` does in the middle of `sys_exit`. -/
theorem Kernel.Runs.wakeParent_cases (runs : k.Runs inKernel self) {mid : Kernel} {code : UInt64}
    (exiting : k.Exiting inKernel self code mid) :
    (mid.wakeParent (self.over code) code = .ok mid ∧
      ∀ parent, ((k.tree inKernel (some self.pid)).terminated self code).entries self.parentPid =
        some parent → ¬ parent.IsWaitingFor self.pid) ∨
    ∃ slot parent, mid.processTable slot = some parent ∧ parent.pid = self.parentPid ∧
      ((k.tree inKernel (some self.pid)).terminated self code).entries self.parentPid =
        some parent ∧ parent.IsWaitingFor self.pid ∧
      mid.wakeParent (self.over code) code = .ok
        (((mid.setEntry slot (some { parent with
          state := .ready, pctx := parent.pctx.deliver self.pid code })).setEntry
          mid.currentProcess none).record
          (.delivered parent.pid (parent.pctx.x.get 0) self.pid code)) := by
  have rooted := runs.invariant.formed.rooted.terminated runs.here code
  have selfThere := runs.invariant.formed.rooted.terminated_self runs.here code
  unfold Kernel.wakeParent
  have parentPid : (self.over code).parentPid = self.parentPid := rfl
  have overPid : (self.over code).pid = self.pid := rfl
  rw [parentPid]
  -- The kernel looks the parent up by its pid.
  cases found : mid.findById self.parentPid with
  | none =>
    refine Or.inl ?_
    have vacant := find_pid_none.mp found
    have noParent : ((k.tree inKernel (some self.pid)).terminated self code).entries
        self.parentPid = none := by
      rw [← exiting.tree]
      exact vacant
    refine ⟨?_, fun parent above => ?_⟩
    · -- Only pid 1 has no parent, and its parent pid is 0.
      have orphan : self.parentPid = 0 := by
        by_cases first : self.pid = 1
        · obtain ⟨root, rootThere, orphan⟩ := runs.invariant.formed.rooted.init
          have here : entriesOf k.processTable self.pid = some self := runs.here
          have root1 : entriesOf k.processTable 1 = some root := rootThere
          rw [first, root1, Option.some.injEq] at here
          exact here ▸ orphan
        · obtain ⟨above, aboveThere, -⟩ := rooted.parent selfThere first
          rw [noParent] at aboveThere
          cases aboveThere
      dsimp only
      rw [if_pos orphan]
    · rw [noParent] at above
      cases above
  -- A parent that is found is told only if it waits for this child.
  | some slot =>
    obtain ⟨parent, there, -⟩ := find_some found
    obtain ⟨above, pid⟩ := exiting.parent found there
    simp only [there]
    split
    · rename_i waits
      refine Or.inr ⟨slot, parent, there, pid, above, ⟨waits.1, waits.2.1, waits.2.2⟩, ?_⟩
      -- The process that exits is found in its own slot, which is not the parent's.
      have put := @Distinct.put_same mid.processTable slot exiting.distinct parent
        { parent with state := .ready, pctx := parent.pctx.deliver self.pid code } there rfl
      have notSelf : mid.currentProcess ≠ slot := by
        rintro rfl
        rw [exiting.slot, Option.some.injEq] at there
        rw [← there] at pid
        exact runs.invariant.formed.rooted.parent_ne runs.here pid.symm
      have slotSelf : SlotTable.put mid.processTable slot (some
          { parent with state := .ready, pctx := parent.pctx.deliver self.pid code })
          mid.currentProcess = some (self.over code) := by
        rw [put_of_ne _ _ _ notSelf, exiting.slot]
      -- The child's slot still holds it, so its removal succeeds.
      have gone := put.1.find_pid slotSelf
      have removes : (mid.setEntry slot (some { parent with
          state := .ready, pctx := parent.pctx.deliver self.pid code })
          ).removeProcessFromPtable self.pid = .ok ((mid.setEntry slot (some { parent with
          state := .ready, pctx := parent.pctx.deliver self.pid code })).setEntry
          mid.currentProcess none) :=
        Kernel.removeProcess_found gone
      rw [overPid, removes]
    · -- Otherwise `sys_exit` goes on without telling anybody.
      rename_i notWaiting
      refine Or.inl ⟨rfl, fun other otherAbove waits => ?_⟩
      rw [above, Option.some.injEq] at otherAbove
      subst otherAbove
      exact notWaiting ⟨waits.blocked, waits.reason, waits.target⟩

/-- The tree after `sys_exit`, by whether the parent was handed the exit code. -/
structure Kernel.Exited (k : Kernel) (inKernel : UInt64 → Bool) (process : Process) (code : UInt64)
    (next : Kernel) : Prop where
  idles : next.Idles inKernel false
  mutexes : next.mutexes = k.mutexes
  move : (k.tree inKernel (some process.pid)).Move (next.tree inKernel none)
  exits : next.tree inKernel none = (k.tree inKernel (some process.pid)).terminated process code ∨
    ∃ parent, ((k.tree inKernel (some process.pid)).terminated process code).entries
        process.parentPid = some parent ∧ parent.IsWaitingFor process.pid ∧
      next.tree inKernel none =
        ((k.tree inKernel (some process.pid)).terminated process code).delivered parent process.pid
          code
  /-- A parent that waits for the process is handed the exit code. -/
  heard : ∀ {parent}, ((k.tree inKernel (some process.pid)).terminated process code).entries
      process.parentPid = some parent → parent.IsWaitingFor process.pid →
    next.tree inKernel none =
      ((k.tree inKernel (some process.pid)).terminated process code).delivered parent process.pid
        code

/-- `sys_exit` ends with nobody running, unless the process has no kernel stack. -/
theorem Kernel.Runs.exitProcess (runs : k.Runs inKernel self) (code : UInt64) :
    (k.getActiveStackIndex self.pid = none ∧
        ∃ error, k.exitProcess self code = .error (.failed (.terminateUnwrap error))) ∨
      ∃ next, k.exitProcess self code = .ok next ∧ k.Exited inKernel self code next := by
  -- The lock is free, so it is taken, and it is held until the parent has been told.
  unfold Kernel.exitProcess
  simp only [Kernel.acquireLock, runs.lock, Bool.false_eq_true, if_false, bind, Except.bind]
  cases terminated : { k with processTableLock := true }.terminate k.currentProcess self
      code.toInt64 with
  -- Only a process without an active kernel stack stops the kernel here.
  | error stop =>
    obtain ⟨inactive, error, rfl⟩ := Kernel.terminate_stops terminated
    exact Or.inl ⟨inactive, error, rfl⟩
  | ok after =>
    have exiting := runs.terminate terminated
    refine Or.inr ?_
    dsimp only
    generalize after.record (.exited self.pid code) = mid at exiting ⊢
    rw [exiting.slot, Option.getD_some]
    -- The parent is told, or there is nobody to tell.
    rcases runs.wakeParent_cases exiting with ⟨result, unheard⟩ |
      ⟨slot, parent, there, pid, above, waits, result⟩
    · have move : (k.tree inKernel (some self.pid)).Move (mid.tree inKernel none) := by
        rw [exiting.tree]
        exact .exit rfl runs.here code unheard
      refine ⟨{ mid with processTableLock := false }, ?_, ?_⟩
      · rw [result]
        simp only [Kernel.releaseLock, exiting.lock, if_true]
      · -- The process stays in the table as terminated, until somebody asks for it.
        exact ⟨⟨exiting.distinct, move.invariant runs.invariant, rfl⟩, exiting.mutexes, move,
          Or.inl exiting.tree, fun above waits => absurd waits (unheard _ above)⟩
    · -- The parent is ready again, and the child's slot is emptied.
      let woken := { parent with
        state := ProcessState.ready, pctx := parent.pctx.deliver self.pid code }
      have put := @Distinct.put_same mid.processTable slot exiting.distinct parent woken there rfl
      have notSelf : mid.currentProcess ≠ slot := by
        rintro rfl
        rw [exiting.slot, Option.some.injEq] at there
        rw [← there] at pid
        exact runs.invariant.formed.rooted.parent_ne runs.here pid.symm
      have slotSelf : SlotTable.put mid.processTable slot (some woken) mid.currentProcess =
          some (self.over code) := by
        rw [put_of_ne _ _ _ notSelf, exiting.slot]
      have removed := put.1.put_none slotSelf
      have log : mid.log = .exited self.pid code :: k.log := congrArg ProcessTree.log exiting.tree
      have nextPid : mid.nextPid = k.nextPid := congrArg ProcessTree.nextPid exiting.tree
      have entries : entriesOf mid.processTable =
          ((k.tree inKernel (some self.pid)).terminated self code).entries :=
        congrArg ProcessTree.entries exiting.tree
      -- Emptying the slot after the delivery is what the tree does in one move.
      have tree : Kernel.tree { ((mid.setEntry slot (some woken)).setEntry mid.currentProcess
          none).record (.delivered parent.pid (parent.pctx.x.get 0) self.pid code) with
          processTableLock := false } inKernel none =
          ((k.tree inKernel (some self.pid)).terminated self code).delivered parent self.pid code := by
        simp only [Kernel.tree, Kernel.record, Kernel.setEntry, removed.2, put.2, entries, log,
          nextPid]
        rfl
      have move : (k.tree inKernel (some self.pid)).Move
          (((k.tree inKernel (some self.pid)).terminated self code).delivered parent self.pid
            code) :=
        .exitDelivered rfl runs.here code above waits
      refine ⟨{ ((mid.setEntry slot (some woken)).setEntry mid.currentProcess none).record
        (.delivered parent.pid (parent.pctx.x.get 0) self.pid code) with
        processTableLock := false }, ?_, ?_⟩
      · rw [result]
        simp only [Kernel.releaseLock, Kernel.record, Kernel.setEntry, exiting.lock, if_true]
        rfl
      · refine ⟨⟨removed.1, ?_, rfl⟩, exiting.mutexes, ?_, ?_, fun found _ => ?_⟩
        · rw [tree]
          exact move.invariant runs.invariant
        · rw [tree]
          exact move
        · -- Whatever parent waits, it is the one that was found in the table.
          exact Or.inr ⟨parent, above, waits, tree⟩
        · rw [above, Option.some.injEq] at found
          rw [tree, found]

/-- An exit is a move. -/
theorem Kernel.Runs.sysExit (runs : k.Runs inKernel self) (ctx : ExceptionContext) :
    k.Leads inKernel self (k.sysExit ctx) := by
  unfold Kernel.sysExit Kernel.getCurrentProcess
  rw [runs.current]
  rcases runs.exitProcess (ctx.x.get 0) with ⟨-, error, result⟩ | ⟨after, result, exited⟩
  · simp only [result]
    exact Or.inr (Or.inr (Or.inl ⟨error, rfl⟩))
  · simp only [result]
    exact ⟨exited.mutexes, exited.idles, exited.move⟩

end AtOS
