import AtOS.Console.KernelIo
import AtOS.Processes.MutexSafety

/-! Any number of processes that read from the console, and switch only where they sleep. -/

namespace AtOS

/-- What a call of `getch` returns for a byte, unless it goes on to the next byte. -/
def getchResult (c : UInt8) : Option UInt8 :=
  if c = backspaceByte ∨ c = deleteByte then some c
  else if c = returnByte then some newlineByte
  else if c = newlineByte then none
  else some c

/-- What a call of `getch` writes to the device for a byte. -/
def getchEcho (c : UInt8) : List UInt8 :=
  if c = backspaceByte ∨ c = deleteByte then []
  else if c = returnByte then [newlineByte]
  else if c = newlineByte then []
  else [c]

/-- What is done next in a call of `getch`. -/
inductive GetchPoint where
  /-- The mutex is taken, before the first poll or after a sleep. -/
  | acquiring
  /-- The device is polled. -/
  | polling
  /-- The mutex is given back, as the device had no byte. -/
  | empty
  /-- The reader goes to sleep, without the mutex. -/
  | sleeping
  /-- The mutex is given back, as the device had a byte. -/
  | polled (c : UInt8)
  deriving DecidableEq

/-- A call of `getch` that has not returned. -/
structure GetchCall where
  number : Nat
  point : GetchPoint

/-- A machine with its UART, and with the calls of `getch` that its processes are in. -/
structure ReaderMachine where
  machine : Machine
  /-- The receive FIFO, with the oldest byte first. -/
  fifo : List UInt8
  /-- A record of the bytes that came. -/
  arrived : List UInt8
  /-- A record of the bytes that were taken from the FIFO. -/
  taken : List UInt8
  /-- A record of the bytes that `getch` wrote. -/
  echoed : List UInt8
  /-- How many calls of `getch` there were, which are numbered in order. -/
  calls : Nat
  /-- The call that a process is in, by pid. -/
  inGetch : UInt64 → Option GetchCall
  /-- A record of what each call has returned, in order. -/
  returned : List (Nat × UInt8)

/-- Whether the UART has a byte, as a step finds it. -/
def Action.uartReady : Action → Option Bool
  | .trap _ devices => some devices.uartReady
  | .sleep _ devices => some devices.uartReady
  | .acquire _ _ devices => some devices.uartReady
  | .schedule uartReady => some uartReady
  | _ => none

/-- A step finds the UART as the FIFO is. -/
def ReaderMachine.Hears (r : ReaderMachine) (action : Action) : Prop :=
  ∀ uartReady ∈ action.uartReady, uartReady = true ↔ r.fifo ≠ []

/-- The process that runs goes on in its call of `getch`. -/
def ReaderMachine.goOn (r : ReaderMachine) (pid : UInt64) (call : GetchCall) (point : GetchPoint) :
    UInt64 → Option GetchCall :=
  Function.update r.inGetch pid (some { call with point })

/-- `poll_byte`, for a call of `getch`; nothing comes between its look at the UART and its read. -/
def ReaderMachine.pollByte (r : ReaderMachine) (pid : UInt64) (call : GetchCall) : ReaderMachine :=
  match r.fifo with
  | [] => { r with inGetch := r.goOn pid call .empty }
  | c :: fifo => { r with
      fifo
      taken := r.taken ++ [c]
      inGetch := r.goOn pid call (.polled c) }

/--
The code of the process that runs is outside of `getch`.

Only `getch` sleeps for input. Memory changes at any time, and what runs is not in a system call
when it traps.
-/
def ReaderMachine.Elsewhere (r : ReaderMachine) : Action → Prop
  | .sleep _ _ => False
  | .acquire _ _ _ | .release _ | .finish _ =>
    ∀ self, r.machine.kernel.getCurrentProcess = some self → r.inGetch self.pid = none
  | _ => True

/-- The steps of a machine with readers, whose mutex is that of `KERNEL_IO`. -/
inductive ReaderMachine.Step (files : String → Option (List UInt8)) (kernelIo : UInt64) :
    ReaderMachine → ReaderMachine → Prop
  | arrives {r : ReaderMachine} (c : UInt8) :
      Step files kernelIo r { r with fifo := r.fifo ++ [c], arrived := r.arrived ++ [c] }
  /-- `read` calls `getch` without the mutex. -/
  | calls {r : ReaderMachine} {outer : ExceptionContext} {self : Process}
      (inside : r.machine.control = .syscall ⟨outer, none⟩)
      (current : r.machine.kernel.getCurrentProcess = some self)
      (outside : r.inGetch self.pid = none) (free : self.pid ∉ r.machine.holders kernelIo) :
      Step files kernelIo r { r with
        calls := r.calls + 1
        inGetch := Function.update r.inGetch self.pid (some ⟨r.calls, .acquiring⟩) }
  /-- The reader has the mutex afterwards, or sleeps for it and tries again. -/
  | acquires {r : ReaderMachine} {self : Process} {call : GetchCall} {ctx : ExceptionContext}
      {devices : Devices} {next : Machine}
      (current : r.machine.kernel.getCurrentProcess = some self)
      (reads : r.inGetch self.pid = some call) (here : call.point = .acquiring)
      (hears : r.Hears (.acquire kernelIo ctx devices))
      (step : r.machine.Step files (.acquire kernelIo ctx devices) (.ok next)) :
      Step files kernelIo r { r with
        machine := next
        inGetch := r.goOn self.pid call
          (if self.pid ∈ next.holders kernelIo then .polling else .acquiring) }
  | polls {r : ReaderMachine} {outer : ExceptionContext} {self : Process} {call : GetchCall}
      (inside : r.machine.control = .syscall ⟨outer, none⟩)
      (current : r.machine.kernel.getCurrentProcess = some self)
      (reads : r.inGetch self.pid = some call) (here : call.point = .polling) :
      Step files kernelIo r (r.pollByte self.pid call)
  | givesUp {r : ReaderMachine} {self : Process} {call : GetchCall} {next : Machine}
      (current : r.machine.kernel.getCurrentProcess = some self)
      (reads : r.inGetch self.pid = some call) (here : call.point = .empty)
      (step : r.machine.Step files (.release kernelIo) (.ok next)) :
      Step files kernelIo r { r with
        machine := next
        inGetch := r.goOn self.pid call .sleeping }
  | sleeps {r : ReaderMachine} {self : Process} {call : GetchCall} {ctx : ExceptionContext}
      {devices : Devices} {next : Machine}
      (current : r.machine.kernel.getCurrentProcess = some self)
      (reads : r.inGetch self.pid = some call) (here : call.point = .sleeping)
      (hears : r.Hears (.sleep ctx devices))
      (step : r.machine.Step files (.sleep ctx devices) (.ok next)) :
      Step files kernelIo r { r with
        machine := next
        inGetch := r.goOn self.pid call .acquiring }
  | returns {r : ReaderMachine} {self : Process} {call : GetchCall} {c result : UInt8}
      {next : Machine} (current : r.machine.kernel.getCurrentProcess = some self)
      (reads : r.inGetch self.pid = some call) (here : call.point = .polled c)
      (isResult : getchResult c = some result)
      (step : r.machine.Step files (.release kernelIo) (.ok next)) :
      Step files kernelIo r { r with
        machine := next
        echoed := r.echoed ++ getchEcho c
        inGetch := Function.update r.inGetch self.pid none
        returned := r.returned ++ [(call.number, result)] }
  /-- A raw newline is dropped, and the outer loop starts again. -/
  | drops {r : ReaderMachine} {self : Process} {call : GetchCall} {c : UInt8} {next : Machine}
      (current : r.machine.kernel.getCurrentProcess = some self)
      (reads : r.inGetch self.pid = some call) (here : call.point = .polled c)
      (noResult : getchResult c = none)
      (step : r.machine.Step files (.release kernelIo) (.ok next)) :
      Step files kernelIo r { r with
        machine := next
        inGetch := r.goOn self.pid call .acquiring }
  /-- Everything else that programs, the kernel and the devices do. -/
  | other {r : ReaderMachine} {action : Action} {next : Machine} (elsewhere : r.Elsewhere action)
      (hears : r.Hears action) (step : r.machine.Step files action (.ok next)) :
      Step files kernelIo r { r with machine := next }

/-- Before anybody reads, with the bytes that have come already. -/
def ReaderMachine.start (boot : Machine) (fifo : List UInt8) : ReaderMachine where
  machine := boot
  fifo
  arrived := fifo
  taken := []
  echoed := []
  calls := 0
  inGetch := fun _ => none
  returned := []

/-- What some run from boot reaches. -/
def ReaderMachine.Reachable (files : String → Option (List UInt8)) (kernelIo : UInt64)
    (r : ReaderMachine) : Prop :=
  ∃ start boot fifo, Machine.Booted files start boot ∧
    Relation.ReflTransGen (ReaderMachine.Step files kernelIo) (.start boot fifo) r

/-- What is to be returned for a byte that was polled. -/
def GetchPoint.held : GetchPoint → List UInt8
  | .polled c => (getchResult c).toList
  | _ => []

/-- What the reader that runs has polled and not returned yet. -/
def ReaderMachine.held (r : ReaderMachine) : List UInt8 :=
  match r.machine.running.bind r.inGetch with
  | some call => call.point.held
  | none => []

end AtOS
