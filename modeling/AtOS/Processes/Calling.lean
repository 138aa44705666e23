import AtOS.Processes.Delivery

/-! A program that runs can make every system call, and an idle CPU takes up whoever is ready. -/

namespace AtOS

open SlotTable

variable {files : String → Option (List UInt8)} {m : Machine} {k mid : Kernel} {self : Process}
  {frame : ExceptionContext}

/-- Registers of which all but the first three are zero. -/
def argumentRegisters (x0 x1 x2 : UInt64) : Vector UInt64 31 :=
  (((Vector.replicate 31 0).setIfInBounds 0 x0).setIfInBounds 1 x1).setIfInBounds 2 x2

/-- The frame of a system call that a program makes from another frame. -/
def ExceptionContext.calling (frame : ExceptionContext) (number : Nat) (x : Vector UInt64 31) :
    ExceptionContext :=
  { frame with
    etype := .sync
    esource := .el064
    x
    esr := UInt64.ofNat (svcClass * 2 ^ 26 + number) }

/-- Such a frame asks for the system call of that number. -/
theorem ExceptionContext.isSyscall_calling (frame : ExceptionContext) (number : Nat)
    (small : number < 2 ^ 16) (x : Vector UInt64 31) : (frame.calling number x).IsSyscall number := by
  have word : (UInt64.ofNat (svcClass * 2 ^ 26 + number)).toNat = svcClass * 2 ^ 26 + number := by
    rw [UInt64.toNat_ofNat', svcClass, Nat.mod_eq_of_lt (by omega)]
  refine ⟨rfl, rfl, ?_, ?_⟩
  · show (UInt64.ofNat (svcClass * 2 ^ 26 + number)).toNat / 2 ^ 26 % 2 ^ 6 = svcClass
    rw [word, svcClass]
    omega
  · show (UInt64.ofNat (svcClass * 2 ^ 26 + number)).toNat % 2 ^ 16 = number
    rw [word, svcClass]
    omega

/-- Once its exception is entered, the handler of that call is what runs. -/
theorem Kernel.Runs.calls {inKernel : UInt64 → Bool} (runs : k.Runs inKernel self)
    (files : String → Option (List UInt8)) (devices : Devices) {ctx : ExceptionContext}
    {number : Nat} (isSyscall : ctx.IsSyscall number) (entry : k.entered devices ctx = .ok mid) :
    k.Entered inKernel self ctx devices mid ∧
      k.handleExceptionEl1 files devices ctx = mid.handleSyscall files ctx := by
  have fromUser : wasFromUserEl0 ctx = true := by
    rw [wasFromUserEl0, isSyscall.source]
    rfl
  obtain ⟨other, entered, leads, cases⟩ := runs.handleExceptionEl1_cases files devices fromUser
  rw [entry, Except.ok.injEq] at entered
  subst entered
  rcases cases with ⟨-, same⟩ | ⟨notSyscall, -⟩
  · exact ⟨leads, same⟩
  · rw [isSyscall.immediate] at notSyscall
    exact absurd isSyscall notSyscall

/-- The frame of an interrupt of a program. -/
def ExceptionContext.interrupted (frame : ExceptionContext) : ExceptionContext :=
  { frame with
    etype := .irq
    esource := .el064 }

/-- Once an interrupt is entered, its handler is what runs. -/
theorem Kernel.entered_irq {ctx : ExceptionContext} {devices : Devices} (irq : ctx.etype = .irq)
    (files : String → Option (List UInt8)) (entry : k.entered devices ctx = .ok mid) :
    k.handleExceptionEl1 files devices ctx =
      mid.handleIrqException devices.timerPending devices.otherPending ctx := by
  unfold Kernel.entered at entry
  unfold Kernel.handleExceptionEl1
  cases enters : k.enterFromEl0 ctx with
  | error stop =>
    rw [enters] at entry
    cases entry
  | ok after =>
    rw [enters, Except.map, Except.ok.injEq] at entry
    dsimp only
    rw [entry, irq]

/-- While no input arrives, an exception from a program only saves its registers in the table. -/
theorem Kernel.Runs.entered_quiet {inKernel : UInt64 → Bool} (runs : k.Runs inKernel self)
    {ctx : ExceptionContext} {devices : Devices} (fromUser : wasFromUserEl0 ctx = true)
    (quiet : devices.uartReady = false) (entry : k.entered devices ctx = .ok mid) :
    mid.processTable =
        put k.processTable k.currentProcess (some { self with pctx := .fromEctx ctx }) ∧
      mid.currentProcess = k.currentProcess ∧ mid.nextPid = k.nextPid := by
  obtain ⟨alloc, freed⟩ := Kernel.freeQueuedStacks_eq runs.current
  unfold Kernel.entered Kernel.enterFromEl0 at entry
  rw [if_pos fromUser, freed] at entry
  unfold Kernel.updateLastRunningPctx at entry
  dsimp only at entry
  rw [runs.current] at entry
  simp only [Except.map, quiet, Kernel.awakeCommonChans, Except.ok.injEq] at entry
  subst entry
  exact ⟨rfl, rfl, rfl⟩

end AtOS
