import AtOS.Processes.Exit

/-! The exception handler for a program: it saves the registers, and then makes one move. -/

namespace AtOS

open SlotTable

variable {k next : Kernel} {inKernel : UInt64 → Bool} {self : Process}

/-- The registers that were saved last are those the record ends with. -/
theorem lastContext_saved (pid : UInt64) (pctx : ProcessContext) (log : List Event) :
    lastContext pid (.saved pid pctx :: log) = some pctx := if_pos rfl

/-- Waking up changes nothing that is recorded. -/
@[simp] theorem Kernel.awakeCommonChans_log (k : Kernel) (uartReady : Bool) :
    (k.awakeCommonChans uartReady).log = k.log := by
  unfold Kernel.awakeCommonChans
  split <;> rfl

/-- Waking up takes and gives back no mutex. -/
@[simp] theorem Kernel.awakeCommonChans_mutexes (k : Kernel) (uartReady : Bool) :
    (k.awakeCommonChans uartReady).mutexes = k.mutexes := by
  unfold Kernel.awakeCommonChans
  split <;> rfl

/-- The kernel a program enters by an exception: its registers are saved, and readers are woken. -/
structure Kernel.Entered (k : Kernel) (inKernel : UInt64 → Bool) (process : Process)
    (ctx : ExceptionContext) (devices : Devices) (next : Kernel) : Prop where
  runs : next.Runs inKernel { process with pctx := .fromEctx ctx }
  tree : next.tree inKernel (some process.pid) =
    ((k.tree inKernel (some process.pid)).saved process (.fromEctx ctx)).awoken devices.uartReady
  saved : lastContext process.pid next.log = some (.fromEctx ctx)
  mutexes : next.mutexes = k.mutexes

/-- The kernel that the handler of an exception finds: registers saved, old stacks freed, readers woken. -/
def Kernel.entered (k : Kernel) (devices : Devices) (ctx : ExceptionContext) : Except Stop Kernel :=
  (k.enterFromEl0 ctx).map (·.awakeCommonChans devices.uartReady)

/-- An exception from a program is entered, whatever is queued to be freed. -/
theorem Kernel.Runs.enter (runs : k.Runs inKernel self) {ctx : ExceptionContext}
    (fromUser : wasFromUserEl0 ctx = true) (devices : Devices) : ∃ mid,
      k.enterFromEl0 ctx = .ok mid ∧
        k.Entered inKernel self ctx devices (mid.awakeCommonChans devices.uartReady) := by
  -- Queued stacks are freed first, then the context is saved and UART sleepers are woken up.
  obtain ⟨alloc, freed⟩ := Kernel.freeQueuedStacks_eq runs.current
  have same : k.SameProcesses { k with
    alloc
    kernelStacks := fun slot => (k.kernelStacks slot).afterFreeing self.pid } := ⟨_, _, rfl⟩
  obtain ⟨runsFreed, treeFreed⟩ := runs.same same
  obtain ⟨mid, saved, runsSaved, treeSaved⟩ := runsFreed.save (.fromEctx ctx)
  obtain ⟨runsAwake, treeAwake⟩ := runsSaved.awake devices.uartReady
  -- Neither step touches a mutex.
  have mutexes : mid.mutexes = k.mutexes := by
    rw [Kernel.updateLastRunningPctx, runsFreed.current] at saved
    cases saved
    rfl
  have log : mid.log = .saved self.pid (.fromEctx ctx) :: k.log :=
    congrArg ProcessTree.log treeSaved
  refine ⟨mid, ?_, runsAwake, ?_, ?_, ?_⟩
  · unfold Kernel.enterFromEl0
    rw [if_pos fromUser, freed]
    exact saved
  · rw [treeAwake, treeSaved, treeFreed]
  · rw [Kernel.awakeCommonChans_log, log, lastContext_saved]
  · rw [Kernel.awakeCommonChans_mutexes, mutexes]

/-- The time slice of a process is over. -/
theorem Kernel.Runs.timesliceUp (runs : k.Runs inKernel self) (ctx : ExceptionContext)
    (saved : lastContext self.pid k.log = some self.pctx) : ∃ after,
      k.timesliceUp = .ok after ∧ k.Leads inKernel self (.scheduling after ctx false) := by
  -- The time slice ends the turn of the running process, which stays ready.
  have move : (k.tree inKernel (some self.pid)).Move
      { (k.tree inKernel (some self.pid)).set self.pid (some { self with state := .ready }) with
        running := none } :=
    .preempt rfl runs.here saved
  have tree := @Kernel.tree_put k (k.setEntry k.currentProcess (some { self with state := .ready }))
    inKernel self none k.currentProcess runs.distinct { self with state := .ready } runs.current
    rfl rfl rfl
  refine ⟨k.setEntry k.currentProcess (some { self with state := .ready }), ?_, rfl, ?_, ?_⟩
  · rw [Kernel.timesliceUp, runs.current]
  · refine ⟨(runs.distinct.put_same runs.current ?_).1, ?_, runs.lock⟩
    · rfl
    · rw [tree]
      exact move.invariant runs.invariant
  · rw [tree]
    exact move

/-- An interrupt ends the time slice of a process, or changes nothing. -/
theorem Kernel.Runs.handleIrqException (runs : k.Runs inKernel self) (timer other : Bool)
    (ctx : ExceptionContext) (saved : lastContext self.pid k.log = some self.pctx) :
    k.Leads inKernel self (k.handleIrqException timer other ctx) := by
  have halts : k.Leads inKernel self (.stopped .halted) := Or.inl (Or.inr rfl)
  obtain ⟨after, result, leads⟩ := runs.timesliceUp ctx saved
  unfold Kernel.handleIrqException
  split
  · simp only [result]
    split
    · exact halts
    · exact leads
  · split
    · exact halts
    · exact runs.leads_unchanged ctx

/-- A system call makes a move, or changes nothing. -/
theorem Kernel.Runs.handleSyscall (runs : k.Runs inKernel self) (files : String → Option (List UInt8))
    (ctx : ExceptionContext) (saved : lastContext self.pid k.log = some self.pctx)
    (registers : ctx.x = self.pctx.x) :
    k.Leads inKernel self (k.handleSyscall files ctx) := by
  unfold Kernel.handleSyscall
  split
  · exact runs.sysExit ctx
  · exact runs.sysFork ctx
  · exact runs.sysExec files ctx
  · exact runs.sysWait ctx saved registers
  · exact runs.leads_unchanged ctx
  · unfold Kernel.sysPInfo Kernel.getCurrentProcess
    rw [runs.current]
    exact runs.leads_unchanged _
  · exact rfl

/-- A program asks for a system call. -/
structure ExceptionContext.IsSyscall (ctx : ExceptionContext) (number : Nat) : Prop where
  sync : ctx.etype = .sync
  source : ctx.esource = .el064
  svc : exceptionClass ctx.esr = svcClass
  immediate : ctx.esr.toNat % 2 ^ 16 = number

/-- Two numbers of one system call are the same. -/
theorem ExceptionContext.IsSyscall.unique {ctx : ExceptionContext} {number other : Nat}
    (isSyscall : ctx.IsSyscall number) (isOther : ctx.IsSyscall other) : number = other :=
  isSyscall.immediate.symm.trans isOther.immediate

/-- Once an exception of a program is entered, it is a system call, an interrupt or a fault. -/
theorem Kernel.Runs.handleExceptionEl1_cases (runs : k.Runs inKernel self)
    (files : String → Option (List UInt8)) (devices : Devices) {ctx : ExceptionContext}
    (fromUser : wasFromUserEl0 ctx = true) : ∃ mid,
      k.entered devices ctx = .ok mid ∧ k.Entered inKernel self ctx devices mid ∧
        ((ctx.IsSyscall (ctx.esr.toNat % 2 ^ 16) ∧
            k.handleExceptionEl1 files devices ctx = mid.handleSyscall files ctx) ∨
          (¬ ctx.IsSyscall (ctx.esr.toNat % 2 ^ 16) ∧
            (k.handleExceptionEl1 files devices ctx =
                mid.handleIrqException devices.timerPending devices.otherPending ctx ∨
              k.handleExceptionEl1 files devices ctx = .inSyscall mid ctx ∨
              k.handleExceptionEl1 files devices ctx = .stopped .halted))) := by
  obtain ⟨mid, result, entered⟩ := runs.enter fromUser devices
  refine ⟨mid.awakeCommonChans devices.uartReady, ?_, entered, ?_⟩
  · rw [Kernel.entered, result]
    rfl
  -- Every branch is looked up in `handle_exception_el1` after the common prelude.
  unfold Kernel.handleExceptionEl1
  rw [result]
  dsimp only
  generalize mid.awakeCommonChans devices.uartReady = woken at entered ⊢
  -- Only a synchronous svc from EL0 is a system call.
  have elsewhere : ctx.esource ≠ .el064 → ¬ ctx.IsSyscall (ctx.esr.toNat % 2 ^ 16) :=
    fun other isSyscall => other isSyscall.source
  have asynchronous : ctx.etype ≠ .sync → ¬ ctx.IsSyscall (ctx.esr.toNat % 2 ^ 16) :=
    fun other isSyscall => other isSyscall.sync
  cases kind : ctx.etype with
  | sync =>
    unfold Kernel.handleSyncException
    cases source : ctx.esource with
    | el064 =>
      dsimp only
      split
      · rename_i svc
        exact Or.inl ⟨⟨kind, source, svc, rfl⟩, rfl⟩
      · rename_i notSvc
        refine Or.inr ⟨fun isSyscall => notSvc isSyscall.svc, Or.inr ?_⟩
        split
        · exact Or.inl rfl
        · exact Or.inr rfl
    | el1h =>
      -- The exception came from a program, and not from the kernel.
      rw [wasFromUserEl0, source] at fromUser
      cases fromUser
    | el1t => exact Or.inr ⟨elsewhere (by simp [source]), Or.inr (Or.inr rfl)⟩
    | el032 => exact Or.inr ⟨elsewhere (by simp [source]), Or.inr (Or.inr rfl)⟩
  -- The three asynchronous kinds are no system call.
  | irq => exact Or.inr ⟨asynchronous (by simp [kind]), Or.inl rfl⟩
  | fiq => exact Or.inr ⟨asynchronous (by simp [kind]), Or.inr (Or.inr rfl)⟩
  | se => exact Or.inr ⟨asynchronous (by simp [kind]), Or.inr (Or.inr rfl)⟩

end AtOS
