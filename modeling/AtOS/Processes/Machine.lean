import AtOS.Processes.Exceptions
import Mathlib.Logic.Relation

/-! The kernel and the programs it runs, step by step: every trap, switch and sleep. -/

namespace AtOS

open ByteMemory SlotTable

/-- What a process that sleeps inside the kernel comes back to. -/
structure Suspension where
  /-- The frame of the system call it is in. -/
  outer : ExceptionContext
  /-- The mutex it slept for, which it tries to take again. -/
  retry : Option UInt64

/-- What the only CPU is busy with. -/
inductive Control where
  /-- The program of the current process runs, from this frame on. -/
  | user (frame : ExceptionContext)
  /-- The kernel runs for the current process, inside a system call that uses `KERNEL_IO`. -/
  | syscall (suspension : Suspension)
  /-- `schedule_next` loops; the table lock is held if `sys_wait` called it. -/
  | scheduling (frame : ExceptionContext) (lockHeld : Bool)

/-- The kernel with what the CPU is busy with and what the sleeping processes come back to. -/
structure Machine where
  kernel : Kernel
  control : Control
  /-- The processes that were put to sleep inside the kernel and have not run again, by pid. -/
  suspended : UInt64 → Option Suspension
  /-- A record of the pids that have taken a mutex and not given it back, by mutex. -/
  holders : UInt64 → List UInt64

/-- One step of a run, with the choices that programs and devices make. -/
inductive Action where
  /-- The running program traps, with these registers. -/
  | trap (ctx : ExceptionContext) (devices : Devices)
  /-- The kernel calls `Scheduler::sleep` for input, and its `svc` leaves this frame. -/
  | sleep (ctx : ExceptionContext) (devices : Devices)
  /-- The kernel tries to take a mutex; the frame is that of the `svc` if it has to sleep. -/
  | acquire (mutex : UInt64) (ctx : ExceptionContext) (devices : Devices)
  /-- The kernel gives a mutex back. -/
  | release (mutex : UInt64)
  /-- The system call returns, and may put a result into `x0`. -/
  | finish (result : Option UInt64)
  /-- `schedule_next` makes a pass of its loop. -/
  | schedule (uartReady : Bool)
  /-- A byte of the current process's own pages changes, by its program or by a call for it. -/
  | store (va : Nat) (byte : UInt8)
  /-- A byte of a kernel stack changes, written by the kernel or by a program. -/
  | stackStore (va : Nat) (byte : UInt8)

/-- A mutex is an aligned object. -/
structure IsMutex (mutex : UInt64) : Prop where
  aligned : mutex.toNat % 8 = 0
  notNull : 0 < mutex.toNat
  inside : mutex.toNat + 16 ≤ 2 ^ 64

/-- The frame an `svc #0` inside the kernel leaves, for a process with a page table. -/
structure IsSleepFrame (ctx : ExceptionContext) (ttbr0 : UInt64) : Prop where
  sync : ctx.etype = .sync
  source : ctx.esource = .el1h
  svc : exceptionClass ctx.esr = svcClass ∧ ctx.esr.toNat % 2 ^ 16 = 0
  table : ctx.ttbr0 = ttbr0

/-- Go on as a handler left it. -/
def Machine.after (m : Machine) : Handled → Except Stop Machine
  | .returned k ctx => .ok { m with kernel := k, control := .user ctx }
  | .scheduling k ctx lockHeld => .ok { m with kernel := k, control := .scheduling ctx lockHeld }
  | .inSyscall k ctx => .ok { m with kernel := k, control := .syscall ⟨ctx, none⟩ }
  | .stopped stop => .error stop

/-- The current process executes `svc #0` inside the kernel, and is to come back to a suspension. -/
def Machine.suspend (m : Machine) (k : Kernel) (files : String → Option (List UInt8))
    (devices : Devices) (ctx : ExceptionContext) (suspension : Suspension) : Except Stop Machine :=
  match k.getCurrentProcess with
  | some self =>
    { m with suspended := Function.update m.suspended self.pid (some suspension) }.after
      (k.handleExceptionEl1 files devices ctx)
  | none => m.after (k.handleExceptionEl1 files devices ctx)

/-- What the CPU does once a process is loaded: it runs the program, or goes on inside the kernel. -/
def Machine.resume (m : Machine) (k : Kernel) (ctx : ExceptionContext) (lockHeld : Bool) :
    Except Stop Machine :=
  -- `sys_wait` releases the table lock when `schedule_next` returns to it.
  match if lockHeld then k.releaseLock else .ok k with
  | .error stop => .error stop
  | .ok k =>
    match (k.getCurrentProcess.bind fun self => m.suspended self.pid), k.getCurrentProcess with
    | some suspension, some self =>
      .ok { m with
        kernel := k
        control := .syscall suspension
        suspended := Function.update m.suspended self.pid none }
    | _, _ => .ok { m with kernel := k, control := .user ctx }

/-- A pass of the loop of `schedule_next`. -/
def Machine.pass (m : Machine) (frame : ExceptionContext) (lockHeld uartReady : Bool) :
    Except Stop Machine :=
  match m.kernel.schedulePass uartReady frame with
  | .loaded k ctx => m.resume k ctx lockHeld
  | .idle k => .ok { m with kernel := k }
  | .stopped stop => .error stop

/-- Write a byte where a table maps an address, and nowhere if it does not. -/
def Kernel.storeByte (k : Kernel) (root va : Nat) (byte : UInt8) : Kernel :=
  match ttbr0ToPa k.alloc.mem va root with
  | some pa => { k with alloc := { k.alloc with mem := Function.update k.alloc.mem pa byte } }
  | none => k

/-- Change who holds a mutex, on behalf of the current process. -/
def Machine.setHolders (m : Machine) (k : Kernel) (mutex : UInt64)
    (change : UInt64 → List UInt64 → List UInt64) : UInt64 → List UInt64 :=
  match k.getCurrentProcess with
  | some self => Function.update m.holders mutex (change self.pid (m.holders mutex))
  | none => m.holders

/-- The kernel takes a mutex, or goes to sleep for it. -/
def Machine.acquire (m : Machine) (files : String → Option (List UInt8)) (mutex : UInt64)
    (ctx : ExceptionContext) (devices : Devices) (outer : ExceptionContext) :
    Except Stop Machine :=
  match m.kernel.attemptMutex mutex with
  | .error stop => .error stop
  | .ok (.acquired k) =>
    .ok { m with
      kernel := k
      control := .syscall ⟨outer, none⟩
      holders := m.setHolders k mutex List.cons }
  | .ok (.mustSleep k) => m.suspend k files devices ctx ⟨outer, some mutex⟩

/-- The kernel gives a mutex back. -/
def Machine.release (m : Machine) (mutex : UInt64) : Except Stop Machine :=
  match m.kernel.releaseMutex mutex with
  | .error stop => .error stop
  | .ok k =>
    .ok { m with
      kernel := k
      holders := m.setHolders k mutex fun pid holders => holders.erase pid }

/-- The page table of the process that the CPU works for. -/
def Control.ttbr0 : Control → UInt64
  | .user frame => frame.ttbr0
  | .syscall suspension => suspension.outer.ttbr0
  | .scheduling frame _ => frame.ttbr0

/--
The steps of a machine, with the stops they can come to.

The frames that exceptions save are values here, and are not read back from the kernel stacks they
lie on. So a run in which a program writes to a kernel stack says nothing about the registers that
the kernel goes on with. And no step is the kernel's own write through a pointer outside the lower
half, which `sys_read` does not check.
-/
inductive Machine.Step (files : String → Option (List UInt8)) :
    Machine → Action → Except Stop Machine → Prop
  /-- An exception from EL0 finds the stack pointer and the page table that were loaded last. -/
  | trap {m : Machine} {frame ctx : ExceptionContext} {devices : Devices}
      (running : m.control = .user frame) (fromUser : wasFromUserEl0 ctx = true)
      (stack : ctx.spEl1 = frame.spEl1) (table : ctx.ttbr0 = frame.ttbr0) :
      Step files m (.trap ctx devices) (m.after (m.kernel.handleExceptionEl1 files devices ctx))
  /-- Sleeping for input; `x0` is not the marker of a mutex. -/
  | sleep {m : Machine} {outer ctx : ExceptionContext} {devices : Devices} {k : Kernel}
      (inside : m.control = .syscall ⟨outer, none⟩) (isFrame : IsSleepFrame ctx outer.ttbr0)
      (unmarked : ctx.x.get 0 ≠ mutexSleepMarker)
      (noted : m.kernel.noteSleep "sleep" awaitingUartRead .awaitingIo = .ok k) :
      Step files m (.sleep ctx devices) (m.suspend k files devices ctx ⟨outer, none⟩)
  | sleepFails {m : Machine} {outer ctx : ExceptionContext} {devices : Devices} {stop : Stop}
      (inside : m.control = .syscall ⟨outer, none⟩)
      (failed : m.kernel.noteSleep "sleep" awaitingUartRead .awaitingIo = .error stop) :
      Step files m (.sleep ctx devices) (.error stop)
  /-- `sleep_for_mutex` passes the marker and its guard in `x0` and `x1`. -/
  | acquire {m : Machine} {outer ctx : ExceptionContext} {devices : Devices} {mutex : UInt64}
      {retry : Option UInt64} (isMutex : IsMutex mutex)
      (inside : m.control = .syscall ⟨outer, retry⟩) (sought : retry = none ∨ retry = some mutex)
      (isFrame : IsSleepFrame ctx outer.ttbr0)
      (marked : ctx.x.get 0 = mutexSleepMarker ∧ ctx.x.get 1 = guardOf mutex) :
      Step files m (.acquire mutex ctx devices) (m.acquire files mutex ctx devices outer)
  /-- A process releases only a mutex that it holds. -/
  | release {m : Machine} {outer : ExceptionContext} {mutex : UInt64} {self : Process}
      (isMutex : IsMutex mutex) (inside : m.control = .syscall ⟨outer, none⟩)
      (current : m.kernel.getCurrentProcess = some self) (held : self.pid ∈ m.holders mutex) :
      Step files m (.release mutex) (m.release mutex)
  | finish {m : Machine} {outer : ExceptionContext} (result : Option UInt64)
      (inside : m.control = .syscall ⟨outer, none⟩) :
      Step files m (.finish result)
        (.ok { m with control := .user (result.elim outer (outer.setX 0)) })
  | schedule {m : Machine} {frame : ExceptionContext} {lockHeld : Bool} (uartReady : Bool)
      (looping : m.control = .scheduling frame lockHeld) :
      Step files m (.schedule uartReady) (m.pass frame lockHeld uartReady)
  /-- Programs and the system calls for them write to the pages of the process. -/
  | store {m : Machine} {va : Nat} (byte : UInt8) (low : va < 2 ^ 39)
      (busy : ∀ frame lockHeld, m.control ≠ .scheduling frame lockHeld) :
      Step files m (.store va byte)
        (.ok { m with kernel := m.kernel.storeByte m.control.ttbr0.toNat va byte })
  /-- The kernel runs on its stacks, and they are open to programs too. -/
  | stackStore {m : Machine} {va : Nat} (byte : UInt8) (slot : Fin maxProcesses)
      (inside : kernelStackStart slot ≤ va ∧ va < kernelStackTop slot) :
      Step files m (.stackStore va byte)
        (.ok { m with kernel := m.kernel.storeByte m.kernel.kernelL1 va byte })

/-- The statics before the first process: no process, and nothing locked or allocated. -/
structure Kernel.Fresh (k : Kernel) : Prop where
  table : ∀ slot, k.processTable slot = none
  nextPid : k.nextPid = 1
  lock : k.processTableLock = false
  currentProcess : k.currentProcess.val = 1
  currentPid : k.currentPid = none
  kernelStacks : ∀ slot, k.kernelStacks slot = .free
  mutexes : ∀ mutex, k.mutexes mutex = ⟨false, false, none⟩
  log : k.log = []

/-- `_rust_main` spawns `init` and starts the scheduler, whose `svc` is the first exception. -/
structure Machine.Booted (files : String → Option (List UInt8)) (start : Kernel) (m : Machine) :
    Prop where
  fresh : start.Fresh
  spawned : ∃ bytes k pid devices ctx, files "init" = some bytes ∧
    start.spawnFromElf "init" 0 bytes ["init", "hi there", "this is test of args"] =
      .ok (.ok pid, k) ∧
    IsSleepFrame ctx ctx.ttbr0 ∧
    Machine.after ⟨k, .scheduling ctx false, fun _ => none, fun _ => []⟩
      (k.handleExceptionEl1 files devices ctx) = .ok m

/-- A run whose steps all meet a condition on the machine before and the action. -/
def Machine.Runs (files : String → Option (List UInt8)) (allowed : Machine → Action → Prop) :
    Machine → Machine → Prop :=
  Relation.ReflTransGen fun m next => ∃ action, allowed m action ∧ m.Step files action (.ok next)

/-- No program writes to a kernel stack, where the frames lie that the kernel returns with. -/
def Machine.SparesStacks (m : Machine) (action : Action) : Prop :=
  ∀ va byte frame, action = .stackStore va byte → m.control ≠ .user frame

/-- What some run from boot reaches. -/
def Machine.Reachable (files : String → Option (List UInt8)) (m : Machine) : Prop :=
  ∃ start boot, Machine.Booted files start boot ∧ Machine.Runs files (fun _ _ => True) boot m

end AtOS
