import AtOS.Processes.Mutex
import AtOS.Processes.Syscalls

/-! The exception handler: what is saved, who is woken, and where each exception leads. -/

namespace AtOS

/-- The exception class in a syndrome register. -/
def exceptionClass (esr : UInt64) : Nat := esr.toNat / 2 ^ 26 % 2 ^ 6

/-- The exception class of an `svc`. -/
def svcClass : Nat := 0x15

/-- The exception class of a use of FP or SIMD that is not enabled. -/
def simdTrapClass : Nat := 0x07

/-- `x0` of an `svc` by which a process goes to sleep for a mutex. -/
def mutexSleepMarker : UInt64 := 0xDEAD

/-- `was_from_user_el0`. -/
def wasFromUserEl0 (ctx : ExceptionContext) : Bool :=
  ctx.esource == .el064 || ctx.esource == .el032

/-- The part of the handler of an `svc` from EL1 that runs on behalf of the process that sleeps. -/
def Kernel.putToSleep (k : Kernel) (ctx : ExceptionContext) : Except Stop Kernel :=
  match k.getCurrentProcess with
  | none => .ok k
  | some _ =>
    match k.updateLastRunningPctx (.fromEctx ctx) with
    | .error stop => .error stop
    | .ok k =>
      let blocked := (k.processTable k.currentProcess).map fun process =>
        { process with state := .blocked }
      let k := { k.setEntry k.currentProcess blocked with currentPid := none }
      if ctx.x.get 0 = mutexSleepMarker then
        if ctx.x.get 1 = 0 then .error (.failed .nullGuard)
        else k.releaseGuard (ctx.x.get 1 - guardOffset)
      else .ok k

/-- `handle_sync_exception`. -/
def Kernel.handleSyncException (k : Kernel) (files : String → Option (List UInt8))
    (ctx : ExceptionContext) : Handled :=
  match ctx.esource with
  | .el1h =>
    if exceptionClass ctx.esr = svcClass ∧ ctx.esr.toNat % 2 ^ 16 = 0 then
      match k.putToSleep ctx with
      | .ok k => .scheduling k ctx false
      | .error stop => .stopped stop
    else .stopped .halted
  | .el064 =>
    if exceptionClass ctx.esr = svcClass then k.handleSyscall files ctx
    -- The handler prints that FP/SIMD was used, which can sleep.
    else if exceptionClass ctx.esr = simdTrapClass then .inSyscall k ctx
    else .stopped .halted
  | .el1t => .stopped .halted
  | .el032 => .stopped .halted

/--
`handle_irq_exception`, by whether the timer and whether any other source is pending.

`PhysicalTimer::handle_irq` switches the context when the interrupt came from a program.
-/
def Kernel.handleIrqException (k : Kernel) (timer other : Bool) (ctx : ExceptionContext) :
    Handled :=
  if timer && wasFromUserEl0 ctx then
    match k.timesliceUp with
    -- Another pending source ends in `unhandled_exception!`, whatever was scheduled before.
    | .ok k => if other then .stopped .halted else .scheduling k ctx false
    | .error stop => .stopped stop
  else if other then .stopped .halted
  else .returned k ctx

/-- What the handler reads of the devices. -/
structure Devices where
  /-- Whether the UART has a byte to read. -/
  uartReady : Bool
  /-- Whether the physical timer is pending, and whether any other interrupt is. -/
  timerPending : Bool
  otherPending : Bool

/-- What `handle_exception_el1` does first for an exception from EL0: save, and free old stacks. -/
def Kernel.enterFromEl0 (k : Kernel) (ctx : ExceptionContext) : Except Stop Kernel :=
  if wasFromUserEl0 ctx then
    match k.freeQueuedStacks with
    | .ok k => k.updateLastRunningPctx (.fromEctx ctx)
    | .error stop => .error stop
  else .ok k

/-- `handle_exception_el1`. -/
def Kernel.handleExceptionEl1 (k : Kernel) (files : String → Option (List UInt8))
    (devices : Devices) (ctx : ExceptionContext) : Handled :=
  match k.enterFromEl0 ctx with
  | .error stop => .stopped stop
  | .ok k =>
    let k := k.awakeCommonChans devices.uartReady
    match ctx.etype with
    | .sync => k.handleSyncException files ctx
    | .irq => k.handleIrqException devices.timerPending devices.otherPending ctx
    | .fiq => .stopped .halted
    | .se => .stopped .halted

end AtOS
