import AtOS.Processes.Simulation

/-! Each system call is a move of the tree of processes, or leaves it as it is. -/

namespace AtOS

open SlotTable

variable {k next : Kernel} {inKernel : UInt64 → Bool} {self : Process}

/-- The stops that a system call can come to: memory, pids, or an error that is unwrapped. -/
def Stop.Excused (stop : Stop) : Prop :=
  stop.FromMemory ∨ stop = .failed .addOverflow ∨
    (∃ error, stop = .failed (.terminateUnwrap error)) ∨
    ∃ error, stop = .failed (.syscallUnwrap error)

/-- What the memory stops is no unwrapped error of `terminate`. -/
theorem Stop.FromMemory.no_unwrap {stop : Stop} (memory : stop.FromMemory) (error : String) :
    stop ≠ .failed (.terminateUnwrap error) := by
  rintro rfl
  rcases memory with ⟨panic, impossible⟩ | impossible <;> cases impossible

/-- What a handler leaves behind for a process that runs, in terms of the tree. -/
def Kernel.Leads (k : Kernel) (inKernel : UInt64 → Bool) (self : Process) : Handled → Prop
  | .returned next _ => next.mutexes = k.mutexes ∧ ∃ after, after.pid = self.pid ∧
      next.Runs inKernel after ∧
      (next.tree inKernel (some self.pid) = k.tree inKernel (some self.pid) ∨
        (k.tree inKernel (some self.pid)).Move (next.tree inKernel (some self.pid)))
  | .scheduling next _ lockHeld => next.mutexes = k.mutexes ∧ next.Idles inKernel lockHeld ∧
      (k.tree inKernel (some self.pid)).Move (next.tree inKernel none)
  | .inSyscall next _ => next = k
  | .stopped stop => stop.Excused

/-- A handler that returns at once with an unchanged kernel. -/
theorem Kernel.Runs.leads_unchanged (runs : k.Runs inKernel self) (ctx : ExceptionContext) :
    k.Leads inKernel self (.returned k ctx) :=
  ⟨rfl, self, rfl, runs, Or.inl rfl⟩

/-- The pid that is given out next is not in use. -/
theorem Kernel.Runs.fresh (runs : k.Runs inKernel self) :
    entriesOf k.processTable k.nextPid = none := by
  rw [Option.eq_none_iff_forall_ne_some]
  intro process there
  have below := runs.invariant.formed.rooted.below there
  exact absurd below (Nat.lt_irrefl _)

section Fork

/-- What `sys_fork` returns when it succeeds: the child is a new entry, and `x0` is its pid. -/
theorem Kernel.Runs.sysFork_cases (runs : k.Runs inKernel self) (ctx : ExceptionContext) :
    (∃ stop, k.sysFork ctx = .stopped stop ∧ stop.Excused ∧
        ∀ error, stop ≠ .failed (.terminateUnwrap error)) ∨
      ∃ child mid slot, k.forkProcess self = .ok (.ok child, mid) ∧ k.Forked self child mid ∧
        firstFree k.processTable = some slot ∧
        k.sysFork ctx = .returned
          ((mid.setEntry slot (some { child with pctx := child.pctx.setX 0 0 })).record
            (.created child.pid (child.pctx.setX 0 0))) (ctx.setX 0 child.pid) := by
  -- The call looks at the table twice, to copy the process and to find a slot for the child.
  unfold Kernel.sysFork Kernel.getCurrentProcess
  rw [runs.current]
  dsimp only
  cases forked : k.forkProcess self with
  | error stop =>
    rcases Kernel.forkProcess_stops forked with memory | rfl
    · -- A copy that runs out of frames panics. The pid counter may overflow as well.
      exact Or.inl ⟨stop, rfl, Or.inl memory, memory.no_unwrap⟩
    · exact Or.inl ⟨_, rfl, Or.inr (Or.inl rfl), by simp⟩
  | ok result =>
    obtain ⟨result, mid⟩ := result
    cases result with
    | error error => exact Or.inl ⟨_, rfl, Or.inr (Or.inr (Or.inr ⟨error, rfl⟩)), by simp⟩
    | ok child =>
      have made := Kernel.forkProcess_ok forked
      have table : mid.processTable = k.processTable := by
        obtain ⟨_, _, rfl⟩ := made.same
        rfl
      dsimp only [Kernel.addProcessToPtable]
      rw [table]
      cases found : firstFree k.processTable with
      | none => exact Or.inl ⟨_, rfl, Or.inr (Or.inr (Or.inr ⟨_, rfl⟩)), by simp⟩
      -- The child gets the free slot, with 0 in its first register.
      | some slot => exact Or.inr ⟨child, mid, slot, rfl, made, rfl, rfl⟩

/-- A fork adds a child. -/
theorem Kernel.Runs.sysFork (runs : k.Runs inKernel self) (ctx : ExceptionContext) :
    k.Leads inKernel self (k.sysFork ctx) := by
  rcases runs.sysFork_cases ctx with ⟨stop, result, excused, -⟩ | ⟨child, mid, slot, -, made, free, result⟩
  · -- A call that stops the kernel is excused and leads nowhere.
    rw [result]
    exact excused
  rw [result]
  obtain ⟨_, _, rfl⟩ := made.same
  -- The slot is free and the child's pid is new, so nobody is displaced.
  have vacant := firstFree_some free
  have fresh := runs.fresh
  rw [← made.pid] at fresh
  obtain ⟨distinct, entries⟩ := @Distinct.put_new k.processTable slot runs.distinct
    { child with pctx := child.pctx.setX 0 0 } vacant fresh
  have move : (k.tree inKernel (some self.pid)).Move
      { (k.tree inKernel (some self.pid)).set child.pid
          (some { child with pctx := child.pctx.setX 0 0 }) with
        nextPid := k.nextPid + 1
        log := .created child.pid (child.pctx.setX 0 0) :: k.log } :=
    @ProcessTree.Move.fork _ self { child with pctx := child.pctx.setX 0 0 } rfl runs.here
      made.room made.pid made.parent made.ready made.awake
  refine ⟨rfl, self, rfl, ?_, Or.inr ?_⟩
  · refine ⟨distinct, ?_, ?_, runs.currentPid, runs.lock⟩
    · have invariant := move.invariant runs.invariant
      simp only [ProcessTree.set, Kernel.tree] at invariant
      simp only [Kernel.tree, Kernel.record, Kernel.setEntry, entries]
      exact invariant
    · -- The free slot is not the one of the running process.
      show put k.processTable slot _ k.currentProcess = some self
      rw [put_of_ne, runs.current]
      rintro same
      rw [← same, runs.current] at vacant
      cases vacant
  · simp only [ProcessTree.set, Kernel.tree] at move
    simp only [Kernel.tree, Kernel.record, Kernel.setEntry, entries]
    exact move

end Fork

section Exec

/-- Changing registers and name of the running process is a move. -/
theorem Kernel.Runs.exec (runs : k.Runs inKernel self) {mid : Kernel} (same : k.SameProcesses mid)
    (pctx : ProcessContext) (name : Vector UInt8 32) (ctx : ExceptionContext)
    (result : next = { mid with
      processTable := put k.processTable k.currentProcess (some { self with pctx, name }) }) :
    k.Leads inKernel self (.returned next ctx) := by
  -- `exec` gives the entry a new context and a new name, and nothing else of the table changes.
  obtain ⟨alloc, states, rfl⟩ := same
  subst result
  have move : (k.tree inKernel (some self.pid)).Move
      ((k.tree inKernel (some self.pid)).set self.pid (some { self with pctx, name })) :=
    .exec rfl runs.here pctx name
  have tree := @Kernel.tree_put k { k with
      alloc
      processTable := put k.processTable k.currentProcess (some { self with pctx, name })
      kernelStacks := states }
    inKernel self (some self.pid) k.currentProcess runs.distinct { self with pctx, name }
    runs.current rfl rfl rfl
  refine ⟨rfl, { self with pctx, name }, rfl, ?_, Or.inr ?_⟩
  · refine runs.set ?_ rfl rfl rfl rfl rfl move
    rfl
  · rw [tree]
    exact move

/-- Running another program changes registers and name at most. -/
theorem Kernel.Runs.sysExec (runs : k.Runs inKernel self) (files : String → Option (List UInt8))
    (ctx : ExceptionContext) : k.Leads inKernel self (k.sysExec files ctx) := by
  -- Too many arguments panic, and arguments that cannot be read change nothing.
  unfold Kernel.sysExec
  split
  · exact Or.inl (Or.inr rfl)
  · exact runs.leads_unchanged _
  rename_i args readArgs
  -- The call goes on with the running process and with the file, if there is one.
  dsimp only [Kernel.getCurrentProcess]
  rw [runs.current]
  split
  · rename_i self' elfBytes isSelf file
    cases isSelf
    unfold Kernel.execFile
    split
    · rename_i stopped
      exact Or.inl (Kernel.exec_stops stopped)
    · rename_i error after failed
      -- An `exec` that fails has changed the entry or nothing at all.
      rcases Kernel.exec_ok failed with ⟨mid, pctx, same, rfl⟩ | ⟨same, -⟩
      · refine runs.exec same pctx self.name _ ?_
        obtain ⟨_, _, rfl⟩ := same
        rfl
      · obtain ⟨after, tree⟩ := runs.same same
        obtain ⟨_, _, rfl⟩ := same
        exact ⟨rfl, self, rfl, after, Or.inl tree⟩
    · rename_i after done
      -- An `exec` that succeeds replaces the context, and then the name is set.
      rcases Kernel.exec_ok done with ⟨mid, pctx, same, rfl⟩ | ⟨-, error, impossible⟩
      · have slot : (mid.setEntry k.currentProcess (some { self with pctx })).currentProcess =
            k.currentProcess := by
          obtain ⟨_, _, rfl⟩ := same
          rfl
        rw [slot]
        simp only [Kernel.setEntry, put_self]
        refine runs.exec same pctx (processName (args.headD "")) _ ?_
        obtain ⟨_, _, rfl⟩ := same
        simp only [put, Function.update_idem]
      · cases impossible
  · exact runs.leads_unchanged _

end Exec

section Wait

/-- What `sys_wait` does: it reaps a terminated child, finds no child, or blocks. -/
theorem Kernel.Runs.sysWait_cases (runs : k.Runs inKernel self) (ctx : ExceptionContext) :
    (∃ slot child, k.processTable slot = some child ∧
        child.isAwaited self.pid (ctx.x.get 0) = true ∧ child.state = .terminated ∧
        k.sysWait ctx = .returned
          ((k.setEntry slot none).record
            (.reaped self.pid (ctx.x.get 0) child.pid child.exitCode.toUInt64))
          ((ctx.setX 0 child.pid).setX 1 child.exitCode.toUInt64)) ∨
    ((∀ slot child, k.processTable slot = some child →
        child.isAwaited self.pid (ctx.x.get 0) = false) ∧
      k.sysWait ctx = .returned (k.record (.notFound self.pid (ctx.x.get 0))) (ctx.setX 0 failure)) ∨
    (∃ slot child, k.processTable slot = some child ∧
        child.isAwaited self.pid (ctx.x.get 0) = true ∧
        (∀ other second, k.processTable other = some second →
          second.isAwaited self.pid (ctx.x.get 0) = true → second.state ≠ .terminated) ∧
        k.sysWait ctx = .scheduling
          ({ k with processTableLock := true }.setEntry k.currentProcess (some
            { self with state := .blocked, blockReason := some .waitingForChild })) ctx true) := by
  have released : ∀ table log, { k with
      processTable := table, processTableLock := false, log } =
      { k with processTable := table, log } := by
    intro table log
    rw [← runs.lock]
  unfold Kernel.sysWait Kernel.getCurrentProcess
  -- The lock is free, so `sys_wait` takes it and searches the table under it.
  rw [runs.current]
  simp only [Kernel.acquireLock, runs.lock, Bool.false_eq_true, if_false, Kernel.waitForChild]
  cases ended : find k.processTable fun process =>
      process.isAwaited self.pid (ctx.x.get 0) && process.state == .terminated with
  | some slot =>
    -- A terminated child is reaped, and its entry is gone.
    obtain ⟨child, there, passes⟩ := find_some ended
    simp only [Bool.and_eq_true, beq_iff_eq] at passes
    refine Or.inl ⟨slot, child, there, passes.1, passes.2, ?_⟩
    simp only [there, Kernel.releaseLock, Kernel.setEntry, if_true, Kernel.record, released]
  | none =>
    rw [find_none] at ended
    dsimp only
    -- A living child is enough to go to sleep, and no child at all is the error.
    cases any : find k.processTable (Process.isAwaited self.pid (ctx.x.get 0)) with
    | none =>
      refine Or.inr (Or.inl ⟨find_none.mp any, ?_⟩)
      simp only [Kernel.releaseLock, if_true, Kernel.record, released]
    | some slot =>
      obtain ⟨child, there, isChild⟩ := find_some any
      -- Nobody that matched had terminated, since the first search would have found it.
      refine Or.inr (Or.inr ⟨slot, child, there, isChild, ?_, rfl⟩)
      intro other second otherThere isOther terminated
      have no := ended other second otherThere
      rw [isOther, terminated] at no
      cases no

/-- Waiting reaps a child, finds none, or blocks the process. -/
theorem Kernel.Runs.sysWait (runs : k.Runs inKernel self) (ctx : ExceptionContext)
    (saved : lastContext self.pid k.log = some self.pctx) (target : ctx.x = self.pctx.x) :
    k.Leads inKernel self (k.sysWait ctx) := by
  rcases runs.sysWait_cases ctx with ⟨slot, child, there, isChild, ended, result⟩ |
    ⟨none, result⟩ | ⟨slot, child, there, isChild, alive, result⟩
  · -- The reaped child is not the one that runs, since a running process has not terminated.
    rw [result]
    have move : (k.tree inKernel (some self.pid)).Move
        { (k.tree inKernel (some self.pid)).set child.pid none with
          log := .reaped self.pid (ctx.x.get 0) child.pid child.exitCode.toUInt64 :: k.log } :=
      .reap rfl runs.here _ (runs.distinct.entriesOf_slot there) isChild ended
    have tree := @Kernel.tree_putNone k ((k.setEntry slot none).record
      (.reaped self.pid (ctx.x.get 0) child.pid child.exitCode.toUInt64)) inKernel (some self.pid) slot
      runs.distinct child there rfl rfl
    refine ⟨rfl, self, rfl, ?_, Or.inr (tree ▸ move)⟩
    refine ⟨(runs.distinct.put_none there).1, ?_, ?_, runs.currentPid, runs.lock⟩
    · rw [tree]
      exact move.invariant runs.invariant
    · -- The child has terminated, so it is not in the slot of the running process.
      show put k.processTable slot none k.currentProcess = some self
      rw [put_of_ne, runs.current]
      rintro rfl
      rw [runs.current, Option.some.injEq] at there
      rw [← there, runs.state] at ended
      cases ended
  · -- The call that finds nobody only writes its outcome to the log.
    rw [result]
    have move : (k.tree inKernel (some self.pid)).Move
        { k.tree inKernel (some self.pid) with
          log := .notFound self.pid (ctx.x.get 0) :: k.log } := by
      refine .notFound rfl runs.here _ fun pid child there => ?_
      obtain ⟨slot, inSlot, -⟩ := slot_of_entriesOf there
      exact none slot child inSlot
    refine ⟨rfl, self, rfl, ?_, Or.inr move⟩
    exact ⟨runs.distinct, move.invariant runs.invariant, runs.current, runs.currentPid, runs.lock⟩
  · rw [result]
    -- The call's argument is the one that was saved at the trap.
    have same : ctx.x.get 0 = self.pctx.x.get 0 := by simp only [target]
    rw [same] at isChild alive
    have move : (k.tree inKernel (some self.pid)).Move
        { (k.tree inKernel (some self.pid)).set self.pid (some
            { self with state := .blocked, blockReason := some .waitingForChild }) with
          running := none } := by
      refine .await rfl runs.here saved (runs.distinct.entriesOf_slot there) isChild ?_
      intro pid second found isSecond
      obtain ⟨other, inSlot, -⟩ := slot_of_entriesOf found
      exact alive other second inSlot isSecond
    have tree := @Kernel.tree_put k ({ k with processTableLock := true }.setEntry k.currentProcess
      (some { self with state := .blocked, blockReason := some .waitingForChild })) inKernel self
      none k.currentProcess runs.distinct
      { self with state := .blocked, blockReason := some .waitingForChild } runs.current rfl rfl rfl
    -- The process stays in its slot and the lock is held on into the scheduler.
    refine ⟨rfl, ⟨(runs.distinct.put_same runs.current ?_).1, ?_, rfl⟩, ?_⟩
    · rfl
    · rw [tree]
      exact move.invariant runs.invariant
    · rw [tree]
      exact move

end Wait

end AtOS
