import AtOS.Processes.Lifecycle
import AtOS.Processes.Scheduler

/-! The system calls, up to the point where they return, sleep or leave the CPU to the scheduler. -/

namespace AtOS

open ByteMemory SlotTable

/-- `ctx.x[i] = value`. -/
def ExceptionContext.setX (ctx : ExceptionContext) (i : Fin 31) (value : UInt64) :
    ExceptionContext := { ctx with x := ctx.x.set i value i.isLt }

/-- `pctx.x[i] = value`. -/
def ProcessContext.setX (pctx : ProcessContext) (i : Fin 31) (value : UInt64) : ProcessContext :=
  { pctx with x := pctx.x.set i value i.isLt }

/-- The two return values of `wait`, in the saved registers of the process that waits. -/
def ProcessContext.deliver (pctx : ProcessContext) (child code : UInt64) : ProcessContext :=
  (pctx.setX 0 child).setX 1 code

/-- `u64::MAX`, the -1 of a system call. -/
def failure : UInt64 := 0xFFFFFFFFFFFFFFFF

/-- What a handler comes to. -/
inductive Handled where
  /-- The handler returns, and the frame is loaded back into the registers. -/
  | returned (k : Kernel) (ctx : ExceptionContext)
  /-- `schedule_next` takes over; the table lock is still held if `sys_wait` called it. -/
  | scheduling (k : Kernel) (ctx : ExceptionContext) (lockHeld : Bool)
  /-- The handler goes on to use `KERNEL_IO`, where it can sleep before it returns. -/
  | inSyscall (k : Kernel) (ctx : ExceptionContext)
  | stopped (stop : Stop)

/-- The part of `sys_exit` that hands the exit code to the parent, if the parent waits for it. -/
def Kernel.wakeParent (k : Kernel) (self : Process) (exitCode : UInt64) : Except Stop Kernel :=
  match k.findById self.parentPid with
  | some slot =>
    match k.processTable slot with
    | some parent =>
      let awaitedChild := parent.pctx.x.get 0
      if parent.state = .blocked ∧ parent.blockReason = some .waitingForChild ∧
          (awaitedChild = 0 ∨ self.pid = awaitedChild) then
        let k := k.setEntry slot (some
          { parent with state := .ready, pctx := parent.pctx.deliver self.pid exitCode })
        match k.removeProcessFromPtable self.pid with
        | .ok k => .ok (k.record (.delivered parent.pid awaitedChild self.pid exitCode))
        | .error error => .error (.failed (.syscallUnwrap error))
      else .ok k
    | none => .ok k
  | none =>
    if self.parentPid = 0 then .ok k
    else .error (.failed (.parentNotFound self.parentPid self.pid))

/-- `sys_exit`, for the entry of the current process. -/
def Kernel.exitProcess (k : Kernel) (self : Process) (exitCode : UInt64) : Except Stop Kernel := do
  let k ← k.acquireLock
  let k ← k.terminate k.currentProcess self exitCode.toInt64
  let k := k.record (.exited self.pid exitCode)
  -- Re-parenting may have changed the entry of the process itself, so it is read again.
  let self := (k.processTable k.currentProcess).getD self
  let k ← k.wakeParent self exitCode
  k.releaseLock

/-- `sys_exit`. -/
def Kernel.sysExit (k : Kernel) (ctx : ExceptionContext) : Handled :=
  match k.getCurrentProcess with
  | some self =>
    match k.exitProcess self (ctx.x.get 0) with
    | .ok k => .scheduling k ctx false
    | .error stop => .stopped stop
  | none => .scheduling k ctx false

/-- `sys_fork`. -/
def Kernel.sysFork (k : Kernel) (ctx : ExceptionContext) : Handled :=
  match k.getCurrentProcess with
  | none => .returned k (ctx.setX 0 failure)
  | some self =>
    match k.forkProcess self with
    | .error stop => .stopped stop
    | .ok (.error error, _) => .stopped (.failed (.syscallUnwrap error))
    | .ok (.ok child, k) =>
      match k.addProcessToPtable { child with pctx := child.pctx.setX 0 0 } with
      | .ok k => .returned k (ctx.setX 0 child.pid)
      | .error error => .stopped (.failed (.syscallUnwrap error))

/--
A byte the kernel reads at a virtual address while the table of a process is loaded.

The kernel's half starts with a window onto 2 GB of physical memory; its table has pages behind it.
-/
def Kernel.loadByte (k : Kernel) (ttbr0 : UInt64) (va : Nat) : Option UInt8 :=
  if va < 2 ^ 39 then (ttbr0ToPa k.alloc.mem va ttbr0.toNat).map k.alloc.mem
  else if va < 0xffffff8000000000 then none
  else if ttbr1ToPa va < 2 ^ 31 then some (k.alloc.mem (ttbr1ToPa va))
  else (ttbr0ToPa k.alloc.mem va k.kernelL1).map k.alloc.mem

/-- `MAX_ARGS` of `sys_exec`. -/
def maxExecArgs : Nat := 32

/-- `MAX_ARG_LEN` of `sys_exec`. -/
def maxExecArgLen : Nat := 256

/-- Why `sys_exec` does not get to its arguments. -/
inductive ArgFailure where
  /-- An argument is refused, and the call returns -1. -/
  | invalid
  /-- A pointer leads to an address that is not mapped. -/
  | fault

/-- The bytes of one argument. -/
def readExecArg (read : Nat → Option UInt8) (ptrs lens : UInt64) (i : Nat) :
    Except ArgFailure (List UInt8) :=
  match readU64 read (ptrs.toNat + 8 * i), readU64 read (lens.toNat + 8 * i) with
  | some ptr, some len =>
    if maxExecArgLen < len.toNat ∨ (len ≠ 0 ∧ ptr = 0) then .error .invalid
    else
      match readSlice read ptr.toNat len.toNat with
      | some bytes => .ok bytes
      | none => .error .fault
  | _, _ => .error .fault

/-- `core::str::from_utf8`, refusing what is no UTF-8. -/
def decodeExecArg (bytes : List UInt8) : Except ArgFailure String :=
  match String.fromUTF8? bytes.toByteArray with
  | some arg => .ok arg
  | none => .error .invalid

/-- The arguments of `sys_exec`: all are read before any is decoded. -/
def readExecArgs (read : Nat → Option UInt8) (ptrs lens argc : UInt64) :
    Except ArgFailure (List String) := do
  if ptrs = 0 ∨ lens = 0 ∨ argc = 0 ∨ maxExecArgs < argc.toNat then throw .invalid
  let storage ← (List.range argc.toNat).mapM (readExecArg read ptrs lens)
  storage.mapM decodeExecArg

/-- `sys_exec` once the file is found, for the entry of the current process. -/
def Kernel.execFile (k : Kernel) (ctx : ExceptionContext) (self : Process) (path : String)
    (elfBytes : List UInt8) (args : List String) : Handled :=
  match k.exec k.currentProcess self elfBytes args with
  | .error stop => .stopped stop
  | .ok (.error _, k) => .returned k (ctx.setX 0 failure)
  | .ok (.ok (), k) =>
    match k.processTable k.currentProcess with
    | some self =>
      .returned (k.setEntry k.currentProcess (some { self with name := processName path }))
        (ctx.updateFromPctx self.pctx)
    | none => .returned k ctx

/-- `sys_exec`, with the file system as a map from paths to contents. -/
def Kernel.sysExec (k : Kernel) (files : String → Option (List UInt8)) (ctx : ExceptionContext) :
    Handled :=
  match readExecArgs (k.loadByte ctx.ttbr0) (ctx.x.get 0) (ctx.x.get 1) (ctx.x.get 2) with
  | .error .fault => .stopped .halted
  | .error .invalid => .returned k (ctx.setX 0 failure)
  | .ok args =>
    let path := args.headD ""
    match k.getCurrentProcess, files path with
    | some self, some elfBytes => k.execFile ctx self path elfBytes args
    | _, _ => .returned k (ctx.setX 0 failure)

/-- Whether an entry is a child that `wait` looks for. -/
def Process.isAwaited (waiter target : UInt64) (process : Process) : Bool :=
  process.parentPid == waiter && (target == 0 || process.pid == target)

/-- `sys_wait` for the entry of the current process, while the table is locked. -/
def Kernel.waitForChild (k : Kernel) (ctx : ExceptionContext) (self : Process) : Handled :=
  let target := ctx.x.get 0
  -- The scan stops at the first terminated child, and otherwise sees whether there is a child.
  match find k.processTable fun process =>
    process.isAwaited self.pid target && process.state == .terminated with
  | some slot =>
    match k.processTable slot with
    | some child =>
      match (k.setEntry slot none).releaseLock with
      | .ok k =>
        .returned (k.record (.reaped self.pid target child.pid child.exitCode.toUInt64))
          ((ctx.setX 0 child.pid).setX 1 child.exitCode.toUInt64)
      | .error stop => .stopped stop
    | none => .stopped .halted
  | none =>
    match find k.processTable (Process.isAwaited self.pid target) with
    | none =>
      match k.releaseLock with
      | .ok k => .returned (k.record (.notFound self.pid target)) (ctx.setX 0 failure)
      | .error stop => .stopped stop
    | some _ =>
      .scheduling
        (k.setEntry k.currentProcess
          (some { self with state := .blocked, blockReason := some .waitingForChild }))
        ctx true

/-- `sys_wait`. -/
def Kernel.sysWait (k : Kernel) (ctx : ExceptionContext) : Handled :=
  match k.getCurrentProcess with
  | none => .returned k (ctx.setX 0 failure)
  | some self =>
    match k.acquireLock with
    | .ok k => k.waitForChild ctx self
    | .error stop => .stopped stop

/-- `sys_p_info`, through `save_meta_to_ectx`. -/
def Kernel.sysPInfo (k : Kernel) (ctx : ExceptionContext) : Handled :=
  match k.getCurrentProcess with
  | some self => .returned k ((ctx.setX 0 self.pid).setX 1 self.parentPid)
  | none => .stopped (.failed (.syscallUnwrap "How did save info actually fail?"))

/--
`handle_syscall`.

The calls that use `KERNEL_IO` go on inside the kernel, and `sys_sleep` only lets time pass.
-/
def Kernel.handleSyscall (k : Kernel) (files : String → Option (List UInt8))
    (ctx : ExceptionContext) : Handled :=
  match ctx.esr.toNat % 2 ^ 16 with
  | 3 => k.sysExit ctx
  | 4 => k.sysFork ctx
  | 5 => k.sysExec files ctx
  | 6 => k.sysWait ctx
  | 8 => .returned k ctx
  | 10 => k.sysPInfo ctx
  | _ => .inSyscall k ctx

end AtOS
