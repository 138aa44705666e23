import AtOS.Processes.Kernel

/-! The round-robin scheduler, and sleeping and waking up on channels. -/

namespace AtOS

open SlotTable

/-- `AWAITING_UART_READ`, the channel of those who wait for input. -/
def awaitingUartRead : UInt64 := 0xFFFFFFFFFFFFFFFF

/-- Wake one process, if it is blocked on a channel. -/
def Process.wakeup (channel : UInt64) (process : Process) : Process :=
  if process.state = .blocked ∧ process.chan = channel then
    { process with state := .ready, blockReason := none, chan := 0 }
  else process

/-- `wakeup`. -/
def Kernel.wakeup (k : Kernel) (channel : UInt64) : Kernel :=
  { k with processTable := modifyAll (Process.wakeup channel) k.processTable }

/-- `awake_common_chans`, by whether the UART has a byte. -/
def Kernel.awakeCommonChans (k : Kernel) (uartReady : Bool) : Kernel :=
  if uartReady then k.wakeup awaitingUartRead else k

/-- `any_blocked`. -/
def Kernel.anyBlocked (k : Kernel) : Option (Fin maxProcesses) :=
  find k.processTable fun process => process.state == .blocked

/-- The slot a number of places after the current one, in a circle. -/
def Kernel.slotAfter (k : Kernel) (i : Nat) : Fin maxProcesses :=
  ⟨(k.currentProcess.val + i) % maxProcesses, Nat.mod_lt _ (by decide)⟩

/-- The places `choose_next_process` looks at, once round and back to the current slot. -/
def scanOrder : List Nat := (List.range maxProcesses).map (· + 1)

/-- `choose_next_process`. -/
def Kernel.chooseNextProcess (k : Kernel) : Option (Fin maxProcesses × Kernel) :=
  if (k.processTable k.currentProcess).any fun process => process.state == .running then
    some (k.currentProcess, k)
  else
    match scanOrder.find? fun i => (k.processTable (k.slotAfter i)).any fun process =>
      process.state == .ready with
    | some i => some (k.slotAfter i, { k with currentProcess := k.slotAfter i })
    | none => none

/-- `load_pctx`. -/
def Kernel.loadPctx (k : Kernel) (slot : Fin maxProcesses) (ctx : ExceptionContext) :
    Except Stop (Kernel × ExceptionContext) :=
  match k.processTable slot with
  | some process =>
    let ctx := ctx.updateFromPctx process.pctx
    .ok (({ k with
        currentProcess := slot
        processTable := put k.processTable slot (some { process with state := .running })
        currentPid := some process.pid }.record (.loaded process.pid (.fromEctx ctx))), ctx)
  | none => .error (.failed .processNotFound)

/-- What one pass of the loop of `schedule_next` comes to. -/
inductive Pass where
  | loaded (k : Kernel) (ctx : ExceptionContext)
  /-- Nobody is ready, and the loop goes round. -/
  | idle (k : Kernel)
  | stopped (stop : Stop)

/-- One pass of the loop of `schedule_next`. -/
def Kernel.schedulePass (k : Kernel) (uartReady : Bool) (ctx : ExceptionContext) : Pass :=
  match k.chooseNextProcess with
  | some (slot, k) =>
    match k.loadPctx slot ctx with
    | .ok (k, ctx) => .loaded k ctx
    | .error stop => .stopped stop
  | none =>
    if k.anyBlocked.isSome then .idle (k.awakeCommonChans uartReady)
    else .stopped (.theEnd k)

/-- `update_last_running_pctx`. -/
def Kernel.updateLastRunningPctx (k : Kernel) (pctx : ProcessContext) : Except Stop Kernel :=
  match k.processTable k.currentProcess with
  | some process =>
    .ok ((k.setEntry k.currentProcess (some { process with pctx })).record (.saved process.pid pctx))
  | none => .error (.failed .lastRunningDisappeared)

/-- `timeslice_up`. -/
def Kernel.timesliceUp (k : Kernel) : Except Stop Kernel :=
  match k.processTable k.currentProcess with
  | some process => .ok (k.setEntry k.currentProcess (some { process with state := .ready }))
  | none => .error (.failed .currentDisappeared)

/-- What `Scheduler::sleep` and `sleep_for_mutex` note of the current process before their `svc`. -/
def Kernel.noteSleep (k : Kernel) (caller : String) (channel : UInt64) (reason : BlockReason) :
    Except Stop Kernel :=
  match k.processTable k.currentProcess with
  | some process =>
    .ok (k.setEntry k.currentProcess
      (some { process with chan := channel, blockReason := some reason }))
  | none => .error (.failed (.sleepInactive caller))

end AtOS
