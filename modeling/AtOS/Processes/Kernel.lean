import AtOS.Library.SlotTable
import AtOS.Paging.PageAllocator
import AtOS.Processes.Context

/-! The statics of the kernel that processes live in, and the operations on the process table. -/

namespace AtOS

open ByteMemory SlotTable

/-- `MAX_PROCESSES`. -/
def maxProcesses : Nat := 50

/-- `ProcessState`. -/
inductive ProcessState where
  | ready
  | running
  | blocked
  | terminated
  deriving DecidableEq

/-- `BlockReason`. -/
inductive BlockReason where
  | waitingForChild
  | mutex
  | awaitingIo
  | awaitingSleepTimeout
  deriving DecidableEq

/-- `Process`. -/
structure Process where
  pid : UInt64
  name : Vector UInt8 32
  state : ProcessState
  blockReason : Option BlockReason
  parentPid : UInt64
  pctx : ProcessContext
  chan : UInt64
  exitCode : Int64
  deriving DecidableEq

/-- `StackState`, by the pid that uses a kernel stack or used it last. -/
inductive StackState where
  | allocated (pid : UInt64)
  | queuedToFree (pid : UInt64)
  | free
  deriving DecidableEq

/-- `Mutex`; of its guard only the flag matters on one CPU. -/
structure Mutex where
  lock : Bool
  guard : Bool
  pid : Option UInt64
  deriving DecidableEq

/-- What happens to the contexts and exit codes of processes, as the debug prints report it. -/
inductive Event where
  /-- A process enters the table with its first context. -/
  | created (pid : UInt64) (pctx : ProcessContext)
  /-- An exception saves the context of a process. -/
  | saved (pid : UInt64) (pctx : ProcessContext)
  /-- A process is scheduled, and the frame holds this context. -/
  | loaded (pid : UInt64) (pctx : ProcessContext)
  /-- A process calls `exit`. -/
  | exited (pid code : UInt64)
  /-- "SCENARIO A": `wait` finds a terminated child and returns at once. -/
  | reaped (waiter target child code : UInt64)
  /-- "SCENARIO B": an exiting child writes the result of `wait` into its waiting parent. -/
  | delivered (waiter target child code : UInt64)
  /-- `wait` finds no child. -/
  | notFound (waiter target : UInt64)
  deriving DecidableEq

/-- The statics of the kernel, the frames of memory, and a record of what has happened. -/
structure Kernel where
  alloc : PageAllocator
  processTable : Table maxProcesses Process
  nextPid : UInt64
  /-- Whether `PROCESS_TABLE_LOCK` is held. -/
  processTableLock : Bool
  /-- `CURRENT_PROCESS`. -/
  currentProcess : Fin maxProcesses
  /-- `current_pid` of the CPU. -/
  currentPid : Option UInt64
  /-- `KERNEL_STACKS_ALLOCATED`. -/
  kernelStacks : Fin maxProcesses → StackState
  /-- The physical address of `PAGE_TABLE_KERNEL_L1`. -/
  kernelL1 : Nat
  /-- The mutexes, by address. -/
  mutexes : UInt64 → Mutex
  /-- The latest event comes first. -/
  log : List Event

/-- The panics of the code that manages processes. -/
inductive KernelPanic where
  /-- `Spinlock::acquire` on a lock that the only CPU holds already. -/
  | acquire (name : String)
  /-- `Spinlock::release` on a lock that is not held. -/
  | release (name : String)
  | addOverflow
  /-- `free_queued_stacks` finds no current process. -/
  | noCurrentProcess
  | lastRunningDisappeared
  | currentDisappeared
  /-- `load_pctx` finds the chosen slot empty. -/
  | processNotFound
  /-- `sleep` or `sleep_for_mutex` finds no current process. -/
  | sleepInactive (caller : String)
  | nullGuard
  /-- `terminate` unwraps the error of `queue_stack_to_free`. -/
  | terminateUnwrap (error : String)
  /-- `handle_syscall` unwraps the error of a system call. -/
  | syscallUnwrap (error : String)
  | parentNotFound (parent child : UInt64)
  | mutexUnlocked (mutex : UInt64)
  | mutexOwner (mutex : UInt64) (owner : Option UInt64) (pid : UInt64)
  deriving DecidableEq

/-- The message of a panic; mutexes are named by their address. -/
def KernelPanic.message : KernelPanic → String
  | .acquire name => s!"acquire({name})"
  | .release name => s!"release({name})"
  | .addOverflow => "attempt to add with overflow"
  | .noCurrentProcess => "called `Option::unwrap()` on a `None` value"
  | .lastRunningDisappeared => "Last running process disappeared for unaccounted reason!"
  | .currentDisappeared => "Current process disappeared for unaccounted reason!"
  | .processNotFound => "in Scheduler::load_pctx(), process not found!"
  | .sleepInactive caller => s!"Scheduler::{caller}() was called when no process was active!"
  | .nullGuard => "Mutex guard pointer is null in sleep_for_mutex!"
  | .terminateUnwrap error => s!"called `Result::unwrap()` on an `Err` value: {error}"
  | .syscallUnwrap error => s!"called `Result::unwrap()` on an `Err` value: {error}"
  | .parentNotFound parent child =>
    s!"[SYS_EXIT] Parent process pid {parent} not found of child {child}"
  | .mutexUnlocked mutex => s!"Mutex release error: ({mutex}) is already unlocked!"
  | .mutexOwner mutex owner pid =>
    s!"Mutex release error: ({mutex}) is owned by PID {owner}, but PID {pid} tried to release it!"

/-- The ways the kernel stops for good. -/
inductive Stop where
  /-- A panic of the page allocator. -/
  | panic (panic : Panic)
  | failed (panic : KernelPanic)
  /-- `the_end`, with the statics it is called with. -/
  | theEnd (kernel : Kernel)
  /-- `unhandled_exception!`. -/
  | halted

/-- Add an event to the record. -/
def Kernel.record (k : Kernel) (event : Event) : Kernel := { k with log := event :: k.log }

/-- Replace the entry of a slot. -/
def Kernel.setEntry (k : Kernel) (slot : Fin maxProcesses) (entry : Option Process) : Kernel :=
  { k with processTable := put k.processTable slot entry }

/-- `PROCESS_TABLE_LOCK.acquire()`: the only CPU would spin forever on a lock it holds, so it panics. -/
def Kernel.acquireLock (k : Kernel) : Except Stop Kernel :=
  if k.processTableLock then .error (.failed (.acquire "process_table"))
  else .ok { k with processTableLock := true }

/-- `PROCESS_TABLE_LOCK.release()`. -/
def Kernel.releaseLock (k : Kernel) : Except Stop Kernel :=
  if k.processTableLock then .ok { k with processTableLock := false }
  else .error (.failed (.release "process_table"))

/-- `Scheduler::get_current_process`, through `find_by_ptable_index`. -/
def Kernel.getCurrentProcess (k : Kernel) : Option Process := k.processTable k.currentProcess

/-- `find_by_id`: the first entry with a pid, and its slot. -/
def Kernel.findById (k : Kernel) (pid : UInt64) : Option (Fin maxProcesses) :=
  find k.processTable fun process => process.pid == pid

/-- `Process::get_current`, through the pid the CPU has noted. -/
def Kernel.getCurrent (k : Kernel) : Option (Fin maxProcesses) :=
  match k.currentPid with
  | some pid => k.findById pid
  | none => none

/-- `reparent_children_to`. -/
def Kernel.reparentChildrenTo (k : Kernel) (pid newParentPid : UInt64) : Kernel :=
  { k with
    processTable := modifyAll
      (fun process =>
        if process.parentPid = pid then { process with parentPid := newParentPid } else process)
      k.processTable }

/-- `add_process_to_ptable`. -/
def Kernel.addProcessToPtable (k : Kernel) (process : Process) : Except String Kernel :=
  match firstFree k.processTable with
  | some slot => .ok ((k.setEntry slot (some process)).record (.created process.pid process.pctx))
  | none => .error "Process table is full"

/-- `remove_process_from_ptable`. -/
def Kernel.removeProcessFromPtable (k : Kernel) (pid : UInt64) : Except String Kernel :=
  match k.findById pid with
  | some slot => .ok (k.setEntry slot none)
  | none => .error "Process not found"

/--
The next pid: `NEXT_PID` before it is incremented.

The increment overflows after 2^64 - 1 processes, which a build with overflow checks reports. A
release build would give out pid 0 next.
-/
def Kernel.takePid (k : Kernel) : Except Stop (UInt64 × Kernel) :=
  if k.nextPid.toNat + 1 < 2 ^ 64 then .ok (k.nextPid, { k with nextPid := k.nextPid + 1 })
  else .error (.failed .addOverflow)

end AtOS
