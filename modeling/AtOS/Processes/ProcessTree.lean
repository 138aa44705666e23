import AtOS.Processes.Exceptions

/-!
What the process table is for: processes by pid, of which at most one runs at a time.

Slots, locks and memory are left out; what is chosen by their order is left open here.
-/

namespace AtOS

/-- The processes, who runs, and who sleeps inside the kernel. -/
structure ProcessTree where
  entries : UInt64 → Option Process
  nextPid : UInt64
  running : Option UInt64
  /-- Whether a process was put to sleep inside the kernel and has not run since. -/
  inKernel : UInt64 → Bool
  log : List Event

/-- Replace or remove the process of a pid. -/
def ProcessTree.set (t : ProcessTree) (pid : UInt64) (process : Option Process) : ProcessTree :=
  { t with entries := Function.update t.entries pid process }

/-- Change every process in the same way. -/
def ProcessTree.mapAll (t : ProcessTree) (change : Process → Process) : ProcessTree :=
  { t with entries := fun pid => (t.entries pid).map change }

/-- Give a process to another parent, if it is a child of a pid. -/
def Process.reparent (pid newParentPid : UInt64) (process : Process) : Process :=
  if process.parentPid = pid then { process with parentPid := newParentPid } else process

/-- A process that is blocked in `wait` and can be handed the exit of a child. -/
structure Process.IsWaitingFor (process : Process) (child : UInt64) : Prop where
  blocked : process.state = .blocked
  reason : process.blockReason = some .waitingForChild
  target : process.pctx.x.get 0 = 0 ∨ child = process.pctx.x.get 0

/-- The tree after a process has terminated and its children were given to `init`. -/
def ProcessTree.terminated (t : ProcessTree) (process : Process) (code : UInt64) : ProcessTree :=
  let gone := { process with exitCode := code.toInt64, state := .terminated }
  { (t.set process.pid (some gone)).mapAll (Process.reparent process.pid 1) with
    running := none
    log := .exited process.pid code :: t.log }

/-- The tree after a waiting parent was handed the exit of a child, which is gone then. -/
def ProcessTree.delivered (t : ProcessTree) (parent : Process) (child code : UInt64) :
    ProcessTree :=
  let woken := { parent with state := .ready, pctx := parent.pctx.deliver child code }
  { (t.set parent.pid (some woken)).set child none with
    log := .delivered parent.pid (parent.pctx.x.get 0) child code :: t.log }

/-- The registers a process is to be resumed with, as the record has them. -/
def lastContext (pid : UInt64) : List Event → Option ProcessContext
  | [] => none
  | .created other pctx :: log => if other = pid then some pctx else lastContext pid log
  | .saved other pctx :: log => if other = pid then some pctx else lastContext pid log
  | .delivered waiter _ child code :: log =>
    if waiter = pid then (lastContext pid log).map (·.deliver child code) else lastContext pid log
  | .loaded _ _ :: log => lastContext pid log
  | .exited _ _ :: log => lastContext pid log
  | .reaped _ _ _ _ :: log => lastContext pid log
  | .notFound _ _ :: log => lastContext pid log

/-- What can happen to the processes, one change at a time. -/
inductive ProcessTree.Move (t : ProcessTree) : ProcessTree → Prop
  /-- An exception from the program of the running process saves its registers. -/
  | save {self : Process} (runs : t.running = some self.pid)
      (here : t.entries self.pid = some self) (pctx : ProcessContext) :
      Move t { t.set self.pid (some { self with pctx }) with log := .saved self.pid pctx :: t.log }
  | wakeup {channel : UInt64} (proper : channel ≠ 0) : Move t (t.mapAll (Process.wakeup channel))
  /-- The time slice of a process is over, once its registers are saved. -/
  | preempt {self : Process} (runs : t.running = some self.pid)
      (here : t.entries self.pid = some self)
      (saved : lastContext self.pid t.log = some self.pctx) :
      Move t { t.set self.pid (some { self with state := .ready }) with running := none }
  /-- The running process executes another program. -/
  | exec {self : Process} (runs : t.running = some self.pid)
      (here : t.entries self.pid = some self) (pctx : ProcessContext) (name : Vector UInt8 32) :
      Move t (t.set self.pid (some { self with pctx, name }))
  | fork {self child : Process} (runs : t.running = some self.pid)
      (here : t.entries self.pid = some self) (room : t.nextPid.toNat + 1 < 2 ^ 64)
      (pid : child.pid = t.nextPid) (parent : child.parentPid = self.pid)
      (ready : child.state = .ready) (awake : child.chan = 0) :
      Move t { t.set child.pid (some child) with
        nextPid := t.nextPid + 1
        log := .created child.pid child.pctx :: t.log }
  /-- A process exits, and its parent does not wait for it. -/
  | exit {self : Process} (runs : t.running = some self.pid)
      (here : t.entries self.pid = some self) (code : UInt64)
      (unheard : ∀ parent, (t.terminated self code).entries self.parentPid = some parent →
        ¬ parent.IsWaitingFor self.pid) :
      Move t (t.terminated self code)
  | exitDelivered {self parent : Process} (runs : t.running = some self.pid)
      (here : t.entries self.pid = some self) (code : UInt64)
      (above : (t.terminated self code).entries self.parentPid = some parent)
      (waits : parent.IsWaitingFor self.pid) :
      Move t ((t.terminated self code).delivered parent self.pid code)
  /-- `wait` finds a terminated child. -/
  | reap {self child : Process} (runs : t.running = some self.pid)
      (here : t.entries self.pid = some self) (target : UInt64)
      (there : t.entries child.pid = some child) (awaited : child.isAwaited self.pid target = true)
      (ended : child.state = .terminated) :
      Move t { t.set child.pid none with
        log := .reaped self.pid target child.pid child.exitCode.toUInt64 :: t.log }
  /-- `wait` finds no child. -/
  | notFound {self : Process} (runs : t.running = some self.pid)
      (here : t.entries self.pid = some self) (target : UInt64)
      (none : ∀ pid child, t.entries pid = some child → child.isAwaited self.pid target = false) :
      Move t { t with log := .notFound self.pid target :: t.log }
  /-- `wait` finds a child, and all it finds are alive. -/
  | await {self child : Process} (runs : t.running = some self.pid)
      (here : t.entries self.pid = some self)
      (saved : lastContext self.pid t.log = some self.pctx) (there : t.entries child.pid = some child)
      (awaited : child.isAwaited self.pid (self.pctx.x.get 0) = true)
      (alive : ∀ pid child, t.entries pid = some child →
        child.isAwaited self.pid (self.pctx.x.get 0) = true → child.state ≠ .terminated) :
      Move t { t.set self.pid (some
        { self with state := .blocked, blockReason := some .waitingForChild }) with running := none }
  /-- The running process goes to sleep inside the kernel. -/
  | sleep {self : Process} (runs : t.running = some self.pid)
      (here : t.entries self.pid = some self) {channel : UInt64} (proper : channel ≠ 0)
      {reason : BlockReason} (other : reason ≠ .waitingForChild) (pctx : ProcessContext) :
      Move t { t.set self.pid (some
        { self with chan := channel, blockReason := some reason, state := .blocked, pctx }) with
        running := none
        inKernel := Function.update t.inKernel self.pid true
        log := .saved self.pid pctx :: t.log }
  | load {self : Process} (idle : t.running = none) (here : t.entries self.pid = some self)
      (ready : self.state = .ready) :
      Move t { t.set self.pid (some { self with state := .running }) with
        running := some self.pid
        inKernel := Function.update t.inKernel self.pid false
        log := .loaded self.pid self.pctx :: t.log }

end AtOS
