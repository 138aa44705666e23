import AtOS.Processes.Dispatch

/-! What the handlers record: exits, and what `wait` returns. -/

namespace AtOS

open SlotTable

variable {k next : Kernel} {inKernel : UInt64 → Bool} {self : Process}

/-- The kernel a handler leaves behind, unless it stops. -/
def Handled.kernel : Handled → Option Kernel
  | .returned k _ => some k
  | .scheduling k _ _ => some k
  | .inSyscall k _ => some k
  | .stopped _ => none

/-- What a handler records for the process that runs, with what it returns and what it changes. -/
inductive Kernel.Reports (k : Kernel) (inKernel : UInt64 → Bool) (process : Process)
    (ctx : ExceptionContext) : Handled → Prop
  | stopped (stop : Stop) : Reports k inKernel process ctx (.stopped stop)
  | quiet {handled : Handled} {next : Kernel} (after : handled.kernel = some next)
      (log : next.log = k.log) : Reports k inKernel process ctx handled
  | created {next : Kernel} {frame : ExceptionContext} (child : Process)
      (pid : child.pid = k.nextPid) (log : next.log = .created child.pid child.pctx :: k.log) :
      Reports k inKernel process ctx (.returned next frame)
  | exited {next : Kernel} (isExit : ctx.IsSyscall 3) (tree : next.tree inKernel none =
        (k.tree inKernel (some process.pid)).terminated process (ctx.x.get 0)) :
      Reports k inKernel process ctx (.scheduling next ctx false)
  | delivered {next : Kernel} {parent : Process} (isExit : ctx.IsSyscall 3)
      (above : ((k.tree inKernel (some process.pid)).terminated process (ctx.x.get 0)).entries
        process.parentPid = some parent)
      (waits : parent.IsWaitingFor process.pid)
      (tree : next.tree inKernel none =
        ((k.tree inKernel (some process.pid)).terminated process (ctx.x.get 0)).delivered parent
          process.pid (ctx.x.get 0)) :
      Reports k inKernel process ctx (.scheduling next ctx false)
  | reaped {next : Kernel} {child : Process} (isWait : ctx.IsSyscall 6)
      (there : (k.tree inKernel (some process.pid)).entries child.pid = some child)
      (awaited : child.isAwaited process.pid (ctx.x.get 0) = true) (ended : child.state = .terminated)
      (tree : next.tree inKernel (some process.pid) =
        { (k.tree inKernel (some process.pid)).set child.pid none with
          log := .reaped process.pid (ctx.x.get 0) child.pid child.exitCode.toUInt64 :: k.log }) :
      Reports k inKernel process ctx
        (.returned next ((ctx.setX 0 child.pid).setX 1 child.exitCode.toUInt64))
  | notFound {next : Kernel} (isWait : ctx.IsSyscall 6)
      (none : ∀ pid child, (k.tree inKernel (some process.pid)).entries pid = some child →
        child.isAwaited process.pid (ctx.x.get 0) = false)
      (log : next.log = .notFound process.pid (ctx.x.get 0) :: k.log) :
      Reports k inKernel process ctx (.returned next (ctx.setX 0 failure))

/-- `sys_exit` records the exit, and whether the parent was handed it. -/
theorem Kernel.Runs.sysExit_reports (runs : k.Runs inKernel self) (ctx : ExceptionContext)
    (isExit : ctx.IsSyscall 3) : k.Reports inKernel self ctx (k.sysExit ctx) := by
  unfold Kernel.sysExit Kernel.getCurrentProcess
  rw [runs.current]
  rcases runs.exitProcess (ctx.x.get 0) with ⟨-, error, result⟩ | ⟨after, result, exited⟩
  · simp only [result]
    exact .stopped _
  · simp only [result]
    rcases exited.exits with tree | ⟨parent, above, waits, tree⟩
    · exact .exited isExit tree
    · exact .delivered isExit above waits tree

/-- `sys_fork` records the registers that the child starts with. -/
theorem Kernel.Runs.sysFork_reports (runs : k.Runs inKernel self) (ctx : ExceptionContext) :
    k.Reports inKernel self ctx (k.sysFork ctx) := by
  rcases runs.sysFork_cases ctx with ⟨stop, result, -⟩ | ⟨child, mid, slot, -, made, -, result⟩
  · rw [result]
    exact .stopped stop
  · rw [result]
    obtain ⟨_, _, rfl⟩ := made.same
    exact .created { child with pctx := child.pctx.setX 0 0 } made.pid rfl

/-- `sys_exec` records nothing. -/
theorem Kernel.Runs.sysExec_reports (runs : k.Runs inKernel self)
    (files : String → Option (List UInt8)) (ctx : ExceptionContext) :
    k.Reports inKernel self ctx (k.sysExec files ctx) := by
  -- Every way the call can end has written nothing new to the log.
  unfold Kernel.sysExec
  split
  · exact .stopped _
  · exact .quiet rfl rfl
  dsimp only [Kernel.getCurrentProcess]
  rw [runs.current]
  split
  · unfold Kernel.execFile
    split
    · exact .stopped _
    · rename_i error after failed
      refine .quiet rfl ?_
      -- The entry may have been replaced, which the log does not show.
      rcases Kernel.exec_ok failed with ⟨mid, pctx, ⟨_, _, rfl⟩, rfl⟩ | ⟨⟨_, _, rfl⟩, -⟩
      · rfl
      · rfl
    · rename_i after done
      rcases Kernel.exec_ok done with ⟨mid, pctx, ⟨_, _, rfl⟩, rfl⟩ | ⟨-, error, impossible⟩
      · split
        · exact .quiet rfl rfl
        · exact .quiet rfl rfl
      · cases impossible
  · exact .quiet rfl rfl

/-- `sys_wait` records what it returns. -/
theorem Kernel.Runs.sysWait_reports (runs : k.Runs inKernel self) (ctx : ExceptionContext)
    (isWait : ctx.IsSyscall 6) : k.Reports inKernel self ctx (k.sysWait ctx) := by
  rcases runs.sysWait_cases ctx with ⟨slot, child, there, isChild, ended, result⟩ |
    ⟨none, result⟩ | ⟨slot, child, there, isChild, alive, result⟩
  · rw [result]
    exact .reaped isWait (runs.distinct.entriesOf_slot there) isChild ended
      (Kernel.tree_putNone _ runs.distinct there rfl rfl)
  · rw [result]
    refine .notFound isWait (fun pid child found => ?_) rfl
    obtain ⟨slot, inSlot, -⟩ := slot_of_entriesOf found
    exact none slot child inSlot
  · rw [result]
    exact .quiet rfl rfl

/-- Every system call records its results. -/
theorem Kernel.Runs.handleSyscall_reports (runs : k.Runs inKernel self)
    (files : String → Option (List UInt8)) {ctx : ExceptionContext}
    (isSyscall : ctx.IsSyscall (ctx.esr.toNat % 2 ^ 16)) :
    k.Reports inKernel self ctx (k.handleSyscall files ctx) := by
  unfold Kernel.handleSyscall
  split
  · rename_i isExit
    exact runs.sysExit_reports ctx (isExit ▸ isSyscall)
  · exact runs.sysFork_reports ctx
  · exact runs.sysExec_reports files ctx
  · rename_i isWait
    exact runs.sysWait_reports ctx (isWait ▸ isSyscall)
  · exact .quiet rfl rfl
  · unfold Kernel.sysPInfo Kernel.getCurrentProcess
    rw [runs.current]
    exact .quiet rfl rfl
  · exact .quiet rfl rfl

/-- The end of a time slice records nothing. -/
theorem Kernel.Runs.handleIrqException_reports (runs : k.Runs inKernel self) (timer other : Bool)
    (ctx : ExceptionContext) : k.Reports inKernel self ctx (k.handleIrqException timer other ctx) := by
  unfold Kernel.handleIrqException Kernel.timesliceUp
  rw [runs.current]
  split
  · dsimp only
    split
    · exact .stopped _
    · exact .quiet rfl rfl
  · split
    · exact .stopped _
    · exact .quiet rfl rfl

/-- Once it is entered, an exception of a program makes one move at most, and records results. -/
theorem Kernel.Runs.handleExceptionEl1 (runs : k.Runs inKernel self)
    (files : String → Option (List UInt8)) (devices : Devices) {ctx : ExceptionContext}
    (fromUser : wasFromUserEl0 ctx = true) : ∃ mid,
      k.Entered inKernel self ctx devices mid ∧
        mid.Leads inKernel { self with pctx := .fromEctx ctx }
          (k.handleExceptionEl1 files devices ctx) ∧
        mid.Reports inKernel { self with pctx := .fromEctx ctx } ctx
          (k.handleExceptionEl1 files devices ctx) := by
  -- The two results of `handleExceptionEl1_cases` are read once for the tree and once for the log.
  obtain ⟨mid, -, entered, ⟨isSyscall, result⟩ | ⟨-, result | result | result⟩⟩ :=
    runs.handleExceptionEl1_cases files devices fromUser
  · rw [result]
    exact ⟨mid, entered, entered.runs.handleSyscall files ctx entered.saved rfl,
      entered.runs.handleSyscall_reports files isSyscall⟩
  · rw [result]
    exact ⟨mid, entered, entered.runs.handleIrqException _ _ ctx entered.saved,
      entered.runs.handleIrqException_reports _ _ ctx⟩
  · rw [result]
    exact ⟨mid, entered, rfl, .quiet rfl rfl⟩
  · rw [result]
    exact ⟨mid, entered, Or.inl (Or.inr rfl), .stopped _⟩

end AtOS
