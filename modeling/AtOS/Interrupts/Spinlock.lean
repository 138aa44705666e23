import Mathlib.Logic.Function.Basic

/-! Spinlocks of one CPU, and the interrupts that they mask while one of them is held. -/

namespace AtOS

/-- `Spinlock`. -/
structure Spinlock where
  lock : Bool
  holdingCpuid : Option Nat
  name : String

/-- `Cpu`, without the pid of the current process. -/
structure Cpu where
  cid : Nat
  /-- The depth of nested spinlocks. -/
  ncli : Nat
  interruptsEnabled : Bool

/-- The spinlocks, the CPU, and whether IRQs are masked. -/
structure LockState (Lock : Type) where
  locks : Lock → Spinlock
  cpu : Cpu
  irqMasked : Bool

variable {Lock : Type}

/-- `is_irq_enabled`. -/
def LockState.isIrqEnabled (s : LockState Lock) : Bool := !s.irqMasked

/-- `irq_disable`. -/
def LockState.irqDisable (s : LockState Lock) : LockState Lock := { s with irqMasked := true }

/-- `irq_enable`. -/
def LockState.irqEnable (s : LockState Lock) : LockState Lock := { s with irqMasked := false }

/-- `push_off` after it has read and masked: the CPU remembers what was read by the outermost call. -/
def LockState.count (s : LockState Lock) (enabled : Bool) : LockState Lock :=
  { s with
    cpu := { s.cpu with
      ncli := s.cpu.ncli + 1
      interruptsEnabled := if s.cpu.ncli = 0 then enabled else s.cpu.interruptsEnabled } }

/-- `pop_off`. -/
def LockState.popOff (s : LockState Lock) : Except String (LockState Lock) :=
  if s.isIrqEnabled then .error "pop_off: interrupts active when they should be masked"
  else if s.cpu.ncli < 1 then .error "pop_off: nesting underflow!"
  else
    let s := { s with cpu := { s.cpu with ncli := s.cpu.ncli - 1 } }
    .ok (if s.cpu.ncli = 0 ∧ s.cpu.interruptsEnabled then s.irqEnable else s)

variable [DecidableEq Lock]

/-- Replace a spinlock. -/
def LockState.setLock (s : LockState Lock) (lock : Lock) (value : Spinlock) : LockState Lock :=
  { s with locks := Function.update s.locks lock value }

/-- `acquire` after `push_off`: it panics on a lock that this CPU holds, and spins on any other. -/
def LockState.take (s : LockState Lock) (lock : Lock) : Except String (Option (LockState Lock)) :=
  let spinlock := s.locks lock
  if spinlock.lock ∧ spinlock.holdingCpuid = some s.cpu.cid then
    .error s!"acquire({spinlock.name})"
  else if spinlock.lock then .ok none
  else .ok (some (s.setLock lock { spinlock with lock := true, holdingCpuid := some s.cpu.cid }))

omit [DecidableEq Lock] in
/-- The checks at the start of `release`. -/
def LockState.mayRelease (s : LockState Lock) (lock : Lock) : Except String Unit :=
  let spinlock := s.locks lock
  if ¬ spinlock.lock then .error s!"release({spinlock.name})"
  else if spinlock.holdingCpuid ≠ some s.cpu.cid then
    .error (s!"Spinlock release error: ({spinlock.name}) owned by CPU {spinlock.holdingCpuid}, " ++
      s!"but CPU {s.cpu.cid} tried to release it!")
  else .ok ()

/-- `release` before `pop_off`. -/
def LockState.clear (s : LockState Lock) (lock : Lock) : LockState Lock :=
  s.setLock lock { s.locks lock with lock := false, holdingCpuid := none }

/-- Where the CPU is, between two steps that an interrupt can come in between. -/
inductive LockPc (Lock : Type) where
  /-- Neither in `acquire` nor in `release`. -/
  | outside
  /-- `acquire` has been called. -/
  | acquiring (lock : Lock)
  /-- `push_off` has read whether IRQs are enabled. -/
  | read (lock : Lock) (enabled : Bool)
  /-- `push_off` has masked IRQs. -/
  | masked (lock : Lock) (enabled : Bool)
  /-- `push_off` has returned. -/
  | pushed (lock : Lock)
  /-- `release` has passed its checks. -/
  | releasing (lock : Lock)
  /-- `release` has given the lock back, and `pop_off` comes next. -/
  | cleared

/-- What an interrupt handler returns to. -/
structure Interrupted (Lock : Type) where
  pc : LockPc Lock
  maskedBefore : Bool
  /-- The flags of the locks when the interrupt came. -/
  flags : Lock → Bool

/-- A CPU that uses spinlocks, in a handler of an interrupt or not. -/
structure Nesting (Lock : Type) where
  state : LockState Lock
  pc : LockPc Lock
  /-- A record of whether IRQs were masked before the first `acquire` of the present nest. -/
  maskedBefore : Bool
  /-- What has been interrupted; the latest comes first. -/
  interrupted : List (Interrupted Lock)

/-- The locks that are held. -/
def LockState.held (s : LockState Lock) : Set Lock := { lock | (s.locks lock).lock = true }

/-- The steps of a CPU that meets no panic of a spinlock. -/
inductive Nesting.Step : Nesting Lock → Nesting Lock → Prop
  /-- A call of `acquire`; the first one of a nest is made while no lock is held. -/
  | acquire {n : Nesting Lock} (lock : Lock) (before : Bool) (outside : n.pc = .outside)
      (first : n.state.held = ∅ → before = n.state.irqMasked)
      (inner : n.state.held ≠ ∅ → before = n.maskedBefore) :
      Step n { n with pc := .acquiring lock, maskedBefore := before }
  | read {n : Nesting Lock} {lock : Lock} (called : n.pc = .acquiring lock) :
      Step n { n with pc := .read lock n.state.isIrqEnabled }
  | mask {n : Nesting Lock} {lock : Lock} {enabled : Bool} (read : n.pc = .read lock enabled) :
      Step n { n with state := n.state.irqDisable, pc := .masked lock enabled }
  | count {n : Nesting Lock} {lock : Lock} {enabled : Bool} (masked : n.pc = .masked lock enabled) :
      Step n { n with state := n.state.count enabled, pc := .pushed lock }
  | take {n : Nesting Lock} {lock : Lock} {state : LockState Lock} (pushed : n.pc = .pushed lock)
      (taken : n.state.take lock = .ok (some state)) : Step n { n with state, pc := .outside }
  | release {n : Nesting Lock} {lock : Lock} (outside : n.pc = .outside)
      (allowed : n.state.mayRelease lock = .ok ()) : Step n { n with pc := .releasing lock }
  | clear {n : Nesting Lock} {lock : Lock} (releasing : n.pc = .releasing lock) :
      Step n { n with state := n.state.clear lock, pc := .cleared }
  | pop {n : Nesting Lock} {state : LockState Lock} (cleared : n.pc = .cleared)
      (popped : n.state.popOff = .ok state) : Step n { n with state, pc := .outside }
  /-- An IRQ is taken wherever it is not masked, and masks further ones. -/
  | interrupt {n : Nesting Lock} (unmasked : n.state.irqMasked = false) :
      Step n { n with
        state := n.state.irqDisable
        pc := .outside
        interrupted := ⟨n.pc, n.maskedBefore, fun lock => (n.state.locks lock).lock⟩ ::
          n.interrupted }
  /-- A handler has given back what it took, and `eret` unmasks as before. -/
  | resume {n : Nesting Lock} {top : Interrupted Lock} {rest : List (Interrupted Lock)}
      (outside : n.pc = .outside) (inside : n.interrupted = top :: rest)
      (balanced : ∀ lock, (n.state.locks lock).lock = top.flags lock) :
      Step n ⟨n.state.irqEnable, top.pc, top.maskedBefore, rest⟩

/-- A CPU that has not used a spinlock yet. -/
structure Nesting.Initial (n : Nesting Lock) : Prop where
  unlocked : n.state.held = ∅
  count : n.state.cpu.ncli = 0
  outside : n.pc = .outside
  started : n.interrupted = []

end AtOS
