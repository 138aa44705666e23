import AtOS.Resources.Holdings

/-! What the handlers do to the resources of processes: page tables and kernel stacks. -/

namespace AtOS

open SlotTable

variable {k next : Kernel} {inKernel : UInt64 → Bool} {self : Process}

/-- What a handler does to the resources, for the process that runs. -/
inductive Kernel.Uses (k : Kernel) (files : String → Option (List UInt8)) (process : Process)
    (ctx : ExceptionContext) : Handled → Prop
  | stopped {stop : Stop} (unwraps : ∀ error, stop = .failed (.terminateUnwrap error) →
        k.getActiveStackIndex process.pid = none) : Uses k files process ctx (.stopped stop)
  | returned {next : Kernel} {frame : ExceptionContext} (same : next.resources = k.resources)
      (holding : frame.holding = ctx.holding) : Uses k files process ctx (.returned next frame)
  | scheduling {next : Kernel} (lockHeld : Bool) (same : next.resources = k.resources) :
      Uses k files process ctx (.scheduling next ctx lockHeld)
  | inSyscall : Uses k files process ctx (.inSyscall k ctx)
  /-- The page table is freed, and the kernel stack is queued. -/
  | exited {next : Kernel} {stack : Fin maxProcesses} (isExit : ctx.IsSyscall 3)
      (active : k.getActiveStackIndex process.pid = some stack)
      (resources : next.resources = { k.resources with
        alloc := freePageTable process.pctx.ttbr0.toNat k.alloc
        kernelStacks := Function.update k.kernelStacks stack (.queuedToFree process.pid)
        holding := Function.update k.resources.holding process.pid none }) :
      Uses k files process ctx (.scheduling next ctx false)
  | forked {next mid : Kernel} {child : Process} {slot : Fin maxProcesses}
      (isFork : ctx.IsSyscall 4) (forks : k.forkProcess process = .ok (.ok child, mid))
      (free : firstFree k.processTable = some slot)
      (next_eq : next = (mid.setEntry slot (some { child with pctx := child.pctx.setX 0 0 })).record
        (.created child.pid (child.pctx.setX 0 0)))
      (resources : next.resources = { mid.resources with
        holding := Function.update k.resources.holding child.pid (some child.pctx.holding) }) :
      Uses k files process ctx (.returned next (ctx.setX 0 child.pid))
  | executed {next mid : Kernel} {bytes : List UInt8} {args : List String} {pctx : ProcessContext}
      (isExec : ctx.IsSyscall 5)
      (reads : readExecArgs (k.loadByte ctx.ttbr0) (ctx.x.get 0) (ctx.x.get 1) (ctx.x.get 2) =
        .ok args)
      (file : files (args.headD "") = some bytes)
      (executes : k.exec k.currentProcess process bytes args = .ok (.ok (), mid))
      (entry : mid.processTable mid.currentProcess = some { process with pctx })
      (resources : next.resources = mid.resources) :
      Uses k files process ctx (.returned next (ctx.updateFromPctx pctx))
  | notExecuted {mid : Kernel} {bytes : List UInt8} {args : List String} {error : String}
      (isExec : ctx.IsSyscall 5)
      (reads : readExecArgs (k.loadByte ctx.ttbr0) (ctx.x.get 0) (ctx.x.get 1) (ctx.x.get 2) =
        .ok args)
      (file : files (args.headD "") = some bytes)
      (fails : k.exec k.currentProcess process bytes args = .ok (.error error, mid)) :
      Uses k files process ctx (.returned mid (ctx.setX 0 failure))

/-- A kernel that stops uses nothing. -/
theorem Kernel.Uses.halted {files : String → Option (List UInt8)} {ctx : ExceptionContext} :
    k.Uses files self ctx (.stopped .halted) :=
  .stopped fun _ impossible => nomatch impossible

/-- Replacing a process by one that holds the same is no change of resources. -/
theorem Kernel.resources_setEntry (distinct : Distinct k.processTable) {slot : Fin maxProcesses}
    {process changed : Process} (there : k.processTable slot = some process)
    (pid : changed.pid = process.pid) (same : changed.holding = process.holding) :
    (k.setEntry slot (some changed)).resources = k.resources := by
  refine Resources.ext rfl rfl rfl (funext fun other => ?_)
  show (entriesOf (put k.processTable slot (some changed)) other).bind Process.holding =
    (entriesOf k.processTable other).bind Process.holding
  rw [(distinct.put_same there pid).2, Function.update_apply]
  split
  · rename_i isOther
    rw [isOther, distinct.entriesOf_slot there, Option.bind_some, Option.bind_some, same]
  · rfl

/-- Handing an exit to the parent touches no frames and no stacks. -/
theorem Kernel.wakeParent_frames {process : Process} {code : UInt64}
    (done : k.wakeParent process code = .ok next) :
    next.alloc = k.alloc ∧ next.kernelStacks = k.kernelStacks ∧ next.kernelL1 = k.kernelL1 := by
  -- Waking a parent up, removing a child and finding nobody touch no frame.
  unfold Kernel.wakeParent at done
  split at done
  · split at done
    · dsimp only at done
      split at done
      · split at done
        · rename_i removed
          unfold Kernel.removeProcessFromPtable at removed
          split at removed
          · cases removed
            cases done
            exact ⟨rfl, rfl, rfl⟩
          · cases removed
        · cases done
      · cases done
        exact ⟨rfl, rfl, rfl⟩
    · cases done
      exact ⟨rfl, rfl, rfl⟩
  · split at done
    · cases done
      exact ⟨rfl, rfl, rfl⟩
    · cases done

/-- `sys_exit` frees the page table of its process, and queues the kernel stack. -/
theorem Kernel.exitProcess_frames {code : UInt64} (done : k.exitProcess self code = .ok next) :
    ∃ stack, k.getActiveStackIndex self.pid = some stack ∧
      next.alloc = freePageTable self.pctx.ttbr0.toNat k.alloc ∧
      next.kernelStacks = Function.update k.kernelStacks stack (.queuedToFree self.pid) ∧
      next.kernelL1 = k.kernelL1 := by
  unfold Kernel.exitProcess Kernel.acquireLock at done
  split at done
  · cases done
  -- The stack is queued and the tables are freed, before the parent is woken up.
  simp only [bind, Except.bind, Kernel.terminate, Kernel.queueStackToFree] at done
  have active : Kernel.getActiveStackIndex { k with processTableLock := true } self.pid =
      k.getActiveStackIndex self.pid := rfl
  rw [active] at done
  cases found : k.getActiveStackIndex self.pid with
  | none =>
    rw [found] at done
    cases done
  | some stack =>
    rw [found] at done
    dsimp only at done
    split at done
    · cases done
    · rename_i woken
      obtain ⟨alloc, kernelStacks, kernelL1⟩ := Kernel.wakeParent_frames woken
      unfold Kernel.releaseLock at done
      split at done
      · cases done
        exact ⟨stack, rfl, alloc, kernelStacks, kernelL1⟩
      · cases done

/-- What the running process holds after its entry was replaced. -/
theorem Kernel.Runs.resources_put (runs : k.Runs inKernel self) {changed : Process}
    (pid : changed.pid = self.pid)
    (table : next.processTable = put k.processTable k.currentProcess (some changed)) :
    next.resources.holding =
      Function.update k.resources.holding self.pid changed.holding := by
  have entries := (runs.distinct.put_same runs.current pid).2
  funext other
  show (entriesOf next.processTable other).bind _ = _
  rw [table, entries, Function.update_apply, Function.update_apply]
  split <;> rfl

/-- `sys_exit` gives up what its process holds. -/
theorem Kernel.Runs.sysExit_uses (runs : k.Runs inKernel self)
    (files : String → Option (List UInt8)) (ctx : ExceptionContext) (isExit : ctx.IsSyscall 3) :
    k.Uses files self ctx (k.sysExit ctx) := by
  unfold Kernel.sysExit Kernel.getCurrentProcess
  rw [runs.current]
  -- A process without a stack stops the kernel, and any other one exits.
  rcases runs.exitProcess (ctx.x.get 0) with ⟨inactive, error, result⟩ | ⟨after, result, exited⟩
  · simp only [result]
    exact .stopped fun _ _ => inactive
  simp only [result]
  have holding : after.resources.holding = Function.update k.resources.holding self.pid none := by
    rw [← Kernel.tree_holding after inKernel none]
    have terminated := ProcessTree.holding_terminated (k.tree inKernel (some self.pid)) self (ctx.x.get 0)
    -- Telling the parent changes its registers only.
    rcases exited.exits with tree | ⟨parent, above, waits, tree⟩
    · rw [tree, terminated]
      rfl
    · have here := (runs.invariant.formed.rooted.terminated runs.here (ctx.x.get 0)).key above
      rw [tree, ProcessTree.holding_delivered (here ▸ above) waits.blocked, terminated]
      · rfl
      · rw [terminated, Function.update_self]
  obtain ⟨stack, active, alloc, kernelStacks, kernelL1⟩ := Kernel.exitProcess_frames result
  exact .exited isExit active (Resources.ext alloc kernelStacks kernelL1 holding)

/-- A child that enters the table holds what `fork` has made for it. -/
theorem Kernel.Runs.forked_resources (runs : k.Runs inKernel self) {child : Process} {mid : Kernel}
    (made : k.Forked self child mid) {slot : Fin maxProcesses}
    (free : firstFree k.processTable = some slot) :
    ((mid.setEntry slot (some { child with pctx := child.pctx.setX 0 0 })).record
        (.created child.pid (child.pctx.setX 0 0))).resources = { mid.resources with
      holding := Function.update k.resources.holding child.pid (some child.pctx.holding) } := by
  refine Resources.ext rfl rfl rfl ?_
  have vacant := firstFree_some free
  have fresh := runs.fresh
  rw [← made.pid] at fresh
  -- The slot was empty and the pid new, so nobody else's holding changes.
  obtain ⟨_, _, rfl⟩ := made.same
  have entries := (@Distinct.put_new k.processTable slot runs.distinct
    { child with pctx := child.pctx.setX 0 0 } vacant fresh).2
  have alive : child.state ≠ .terminated := by
    rw [made.ready]
    decide
  have started : Process.holding { child with pctx := child.pctx.setX 0 0 } =
      some child.pctx.holding := if_neg alive
  funext pid
  show (entriesOf (put k.processTable slot (some { child with pctx := child.pctx.setX 0 0 }))
    pid).bind Process.holding =
      Function.update k.resources.holding child.pid (some child.pctx.holding) pid
  rw [entries, Function.update_apply, Function.update_apply]
  split
  · exact started
  · rfl

/-- `sys_fork` takes what the child holds, and the entry of the child. -/
theorem Kernel.Runs.sysFork_uses (runs : k.Runs inKernel self)
    (files : String → Option (List UInt8)) (ctx : ExceptionContext) (isFork : ctx.IsSyscall 4) :
    k.Uses files self ctx (k.sysFork ctx) := by
  rcases runs.sysFork_cases ctx with ⟨stop, result, -, noUnwrap⟩ |
    ⟨child, mid, slot, forks, made, free, result⟩
  · rw [result]
    exact .stopped fun error unwraps => absurd unwraps (noUnwrap error)
  · rw [result]
    exact .forked isFork forks free rfl (runs.forked_resources made free)

/-- `exec` leaves the entry of its process with new registers when it succeeds. -/
theorem Kernel.exec_entry {bytes : List UInt8} {args : List String}
    (done : k.exec k.currentProcess self bytes args = .ok (.ok (), next)) : ∃ pctx,
      next.currentProcess = k.currentProcess ∧
        next.processTable = put k.processTable k.currentProcess (some { self with pctx }) := by
  rcases Kernel.exec_ok done with ⟨mid, pctx, ⟨_, _, rfl⟩, rfl⟩ | ⟨-, error, impossible⟩
  · exact ⟨pctx, rfl, rfl⟩
  · cases impossible

/-- `sys_exec` uses what `exec` does. -/
theorem Kernel.Runs.sysExec_uses (runs : k.Runs inKernel self)
    (files : String → Option (List UInt8)) (ctx : ExceptionContext) (isExec : ctx.IsSyscall 5) :
    k.Uses files self ctx (k.sysExec files ctx) := by
  unfold Kernel.sysExec
  -- Only the load of the file uses anything. What comes before it does not.
  split
  · exact .halted
  · exact .returned rfl rfl
  rename_i args reads
  dsimp only [Kernel.getCurrentProcess]
  rw [runs.current]
  split
  · rename_i self' elfBytes isSelf file
    cases isSelf
    unfold Kernel.execFile
    split
    · rename_i stopped
      exact .stopped fun error unwraps =>
        absurd unwraps ((Kernel.exec_stops stopped).no_unwrap error)
    · rename_i error after failed
      exact .notExecuted isExec reads file failed
    · rename_i after done
      -- A success has written the entry, and then the name is set in it.
      obtain ⟨pctx, current, table⟩ := Kernel.exec_entry done
      have entry : after.processTable after.currentProcess = some { self with pctx } := by
        rw [current, table, put_self]
      rw [entry]
      have distinct : Distinct after.processTable := by
        rw [table]
        refine (runs.distinct.put_same runs.current ?_).1
        rfl
      refine .executed isExec reads file done entry ?_
      apply Kernel.resources_setEntry distinct entry
      · rfl
      · simp only [Process.holding]
  · exact .returned rfl rfl

/-- `sys_wait` leaves the resources alone: what it reaps has given them up. -/
theorem Kernel.Runs.sysWait_uses (runs : k.Runs inKernel self)
    (files : String → Option (List UInt8)) (ctx : ExceptionContext) :
    k.Uses files self ctx (k.sysWait ctx) := by
  rcases runs.sysWait_cases ctx with ⟨slot, child, there, isChild, ended, result⟩ |
    ⟨none, result⟩ | ⟨slot, child, there, isChild, alive, result⟩
  · -- A reaped child had exited, so it held nothing any more.
    rw [result]
    have tree := @Kernel.tree_putNone k ((k.setEntry slot none).record
      (.reaped self.pid (ctx.x.get 0) child.pid child.exitCode.toUInt64)) inKernel none slot
      runs.distinct child there rfl rfl
    have removed := @ProcessTree.holding_remove (k.tree inKernel none) child
      (runs.distinct.entriesOf_slot there) ended
    exact .returned (Resources.ext rfl rfl rfl ((congrArg ProcessTree.holding tree).trans removed))
      rfl
  · rw [result]
    exact .returned rfl rfl
  · -- A process that waits holds what it held.
    rw [result]
    refine .scheduling true ?_
    have waiting : Process.holding
        { self with state := .blocked, blockReason := some .waitingForChild } = self.holding := by
      simp [Process.holding, runs.state]
    have blocked := @Kernel.resources_setEntry k runs.distinct k.currentProcess self
      { self with state := .blocked, blockReason := some .waitingForChild } runs.current rfl waiting
    exact blocked

/-- Every system call uses resources like this. -/
theorem Kernel.Runs.handleSyscall_uses (runs : k.Runs inKernel self)
    (files : String → Option (List UInt8)) {ctx : ExceptionContext}
    (isSyscall : ctx.IsSyscall (ctx.esr.toNat % 2 ^ 16)) :
    k.Uses files self ctx (k.handleSyscall files ctx) := by
  unfold Kernel.handleSyscall
  -- Each call number has its own account of what it uses.
  split
  · rename_i isExit
    exact runs.sysExit_uses files ctx (isExit ▸ isSyscall)
  · rename_i isFork
    exact runs.sysFork_uses files ctx (isFork ▸ isSyscall)
  · rename_i isExec
    exact runs.sysExec_uses files ctx (isExec ▸ isSyscall)
  · exact runs.sysWait_uses files ctx
  · exact .returned rfl rfl
  · unfold Kernel.sysPInfo Kernel.getCurrentProcess
    rw [runs.current]
    exact .returned rfl rfl
  · exact .inSyscall

/-- The end of a time slice leaves the resources alone. -/
theorem Kernel.Runs.handleIrqException_uses (runs : k.Runs inKernel self)
    (files : String → Option (List UInt8)) (timer other : Bool) (ctx : ExceptionContext) :
    k.Uses files self ctx (k.handleIrqException timer other ctx) := by
  unfold Kernel.handleIrqException Kernel.timesliceUp
  rw [runs.current]
  split
  · dsimp only
    split
    · exact .halted
    · refine .scheduling false ?_
      apply Kernel.resources_setEntry runs.distinct runs.current
      · rfl
      · simp [Process.holding, runs.state]
  · split
    · exact .halted
    · exact .returned rfl rfl

/-- Waking up touches no resources. -/
theorem Kernel.resources_wakeup (distinct : Distinct k.processTable) (channel : UInt64) :
    (k.wakeup channel).resources = k.resources := by
  have tree := @Kernel.tree_wakeup k (fun _ => false) none distinct channel
  have holding := @ProcessTree.holding_mapAll (k.tree (fun _ => false) none) (Process.wakeup channel)
    (Process.holding_wakeup channel)
  exact Resources.ext rfl rfl rfl ((congrArg ProcessTree.holding tree).trans holding)

/-- Waking UART sleepers up uses nothing. -/
theorem Kernel.resources_awake (distinct : Distinct k.processTable) (uartReady : Bool) :
    (k.awakeCommonChans uartReady).resources = k.resources := by
  unfold Kernel.awakeCommonChans
  split
  · exact Kernel.resources_wakeup distinct _
  · rfl

/-- The resources that an exception from a program leaves to its handler. -/
theorem Kernel.Runs.entered_resources (runs : k.Runs inKernel self) {ctx : ExceptionContext}
    {devices : Devices} {mid : Kernel} (fromUser : wasFromUserEl0 ctx = true)
    (entered : k.entered devices ctx = .ok mid) : ∃ freed, k.freeQueuedStacks = .ok freed ∧
      mid.resources = { freed.resources with
        holding := Function.update k.resources.holding self.pid (some ctx.holding) } := by
  -- Queued stacks are freed first. Then the context is saved, and readers are woken up.
  obtain ⟨alloc, freeing⟩ := Kernel.freeQueuedStacks_eq runs.current
  obtain ⟨runsFreed, -⟩ := runs.same ⟨alloc, _, rfl⟩
  refine ⟨_, freeing, ?_⟩
  unfold Kernel.entered Kernel.enterFromEl0 at entered
  rw [if_pos fromUser, freeing] at entered
  dsimp only at entered
  rw [Kernel.updateLastRunningPctx, runsFreed.current] at entered
  cases entered
  -- What the process holds from here on is in the frame of its trap.
  have saved : Process.holding { self with pctx := .fromEctx ctx } = some ctx.holding := by
    apply Process.holding_alive
    rw [runs.state]
    decide
  rw [Kernel.resources_awake]
  · have holding := @Kernel.Runs.resources_put _ ((Kernel.setEntry _ k.currentProcess (some
      { self with pctx := .fromEctx ctx })).record (.saved self.pid (.fromEctx ctx))) _ _ runsFreed
      { self with pctx := .fromEctx ctx } rfl rfl
    rw [saved] at holding
    exact Resources.ext rfl rfl rfl holding
  · exact (runs.distinct.put_same runs.current
      (show Process.pid { self with pctx := .fromEctx ctx } = self.pid from rfl)).1

/-- An exception of a program is entered, and then its handler uses resources. -/
theorem Kernel.Runs.handleExceptionEl1_uses (runs : k.Runs inKernel self)
    (files : String → Option (List UInt8)) (devices : Devices) {ctx : ExceptionContext}
    (fromUser : wasFromUserEl0 ctx = true) : ∃ mid,
      k.entered devices ctx = .ok mid ∧ k.Entered inKernel self ctx devices mid ∧
        mid.Uses files { self with pctx := .fromEctx ctx } ctx
          (k.handleExceptionEl1 files devices ctx) := by
  obtain ⟨mid, entry, entered, ⟨isSyscall, result⟩ | ⟨-, result | result | result⟩⟩ :=
    runs.handleExceptionEl1_cases files devices fromUser
  · rw [result]
    exact ⟨mid, entry, entered, entered.runs.handleSyscall_uses files isSyscall⟩
  · rw [result]
    exact ⟨mid, entry, entered, entered.runs.handleIrqException_uses files _ _ ctx⟩
  · rw [result]
    exact ⟨mid, entry, entered, .inSyscall⟩
  · rw [result]
    exact ⟨mid, entry, entered, .halted⟩

/-- A store changes the frames at most. -/
theorem Kernel.storeByte_resources (k : Kernel) (root va : Nat) (byte : UInt8) :
    (k.storeByte root va byte).resources =
      { k.resources with alloc := (k.storeByte root va byte).alloc } := by
  unfold Kernel.storeByte
  split <;> rfl

section Machine

variable {m : Machine}

/-- A process that goes to sleep has the registers of its `svc` saved. -/
theorem Machine.slept_resources (runs : m.kernel.Runs m.inKernel self) (channel : UInt64)
    (reason : BlockReason) (ctx : ExceptionContext) (uartReady : Bool) (suspension : Suspension) :
    (m.slept self channel reason ctx uartReady suspension).kernel.resources =
      { m.kernel.resources with
        holding := Function.update m.kernel.resources.holding self.pid (some ctx.holding) } := by
  -- The UART sleepers wake up, which concerns no resource.
  obtain ⟨runsAwake, -⟩ := runs.awake uartReady
  have asleep : (self.asleep channel reason (.fromEctx ctx)).holding = some ctx.holding :=
    @Process.holding_alive (self.asleep channel reason (.fromEctx ctx)) (by
      simp [Process.asleep])
  have current : (m.kernel.awakeCommonChans uartReady).currentProcess = m.kernel.currentProcess := by
    unfold Kernel.awakeCommonChans
    split <;> rfl
  -- The process goes to sleep holding what its frame has.
  have awake := Kernel.resources_awake runs.distinct uartReady
  have holding := @Kernel.Runs.resources_put _
    (m.slept self channel reason ctx uartReady suspension).kernel _ _ runsAwake
    (self.asleep channel reason (.fromEctx ctx)) rfl (by
      rw [current]
      rfl)
  rw [asleep, awake] at holding
  have frames := awake
  simp only [Kernel.resources, Resources.mk.injEq] at frames
  exact Resources.ext frames.1 frames.2.1 frames.2.2.1 holding

/-- Loading a process changes no resources. -/
theorem Machine.loaded_resources (distinct : Distinct m.kernel.processTable)
    {slot : Fin maxProcesses} {process : Process}
    (there : m.kernel.processTable slot = some process) (ready : process.state = .ready)
    (frame : ExceptionContext) :
    (m.loaded slot process frame).kernel.resources = m.kernel.resources := by
  have same : Process.holding { process with state := .running } = process.holding := by
    simp [Process.holding, ready]
  exact @Kernel.resources_setEntry m.kernel distinct slot process { process with state := .running }
    there rfl same

end Machine

end AtOS
