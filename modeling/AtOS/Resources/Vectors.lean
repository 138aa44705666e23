import AtOS.Resources.Programs
import AtOS.Resources.VectorRegisters

/-! Nobody saves the vector registers: they are kept exactly if program and kernel leave them alone. -/

namespace AtOS

variable {files : String → Option (List UInt8)} {code : KernelCode} {m next : VectorMachine}

/-- A register is looked up by its number. -/
theorem vectorRegister_eq (v : VectorRegisters) (i : Fin 32) : v.get i = v[i.val] := rfl

/-- Four of the vector registers hold already what `kernel8.img` leaves in them at a trap. -/
theorem ExceptionContext.copiedThrough_eq_iff (ctx : ExceptionContext) (v : VectorRegisters) :
    ctx.copiedThrough v = v ↔
      v.get 0 = inVector ctx.spsr 0 ∧ v.get 1 = inVector ctx.spEl1 0 ∧
        v.get 2 = inVector ctx.spEl0 ctx.spEl1 ∧ v.get 3 = inVector ctx.elr ctx.spsr := by
  unfold ExceptionContext.copiedThrough
  constructor
  · intro same
    refine ⟨?_, ?_, ?_, ?_⟩ <;> rw [← same] <;> simp [vectorRegister_eq]
  · rintro ⟨first, second, third, fourth⟩
    simp [← first, ← second, ← third, ← fourth, vectorRegister_eq]

/--
With the code of `kernel8.img`, even a process that is alone loses four vector registers.

Its interrupt is considerate only if they hold the words that the kernel copies through them.
-/
theorem VectorMachine.considerate_image_iff {ctx : ExceptionContext} {devices : Devices}
    (noExit : ¬ ctx.IsSyscall 3) (alone : ¬ m.AwayBeside (m.trapping (.trap ctx devices))) :
    m.Considerate imageCode (.act (.trap ctx devices)) ↔
      m.v.get 0 = inVector ctx.spsr 0 ∧ m.v.get 1 = inVector ctx.spEl1 0 ∧
        m.v.get 2 = inVector ctx.spEl0 ctx.spEl1 ∧ m.v.get 3 = inVector ctx.elr ctx.spsr := by
  rw [← ctx.copiedThrough_eq_iff m.v]
  constructor
  · intro considerate
    exact considerate.trap ctx devices rfl noExit
  · intro same
    constructor
    · intro _ _ action _
      cases action
      exact same
    · intro _ action _ away
      cases action
      exact absurd away alone

section Turns

variable {before after : Machine} {self : Process} {ctx : ExceptionContext} {devices : Devices}

/-- A pass of the scheduler records nothing. -/
theorem Machine.Goes.passes {uartReady : Bool} (goes : before.Goes files (.schedule uartReady) after)
    (code : KernelCode) (v : VectorRegisters) (interrupted : UInt64 → Option VectorRegisters)
    (found : VectorRegisters) :
    VectorMachine.Step files code ⟨before, v, interrupted, found⟩ (.act (.schedule uartReady))
      ⟨after, code before (.schedule uartReady) v, interrupted,
        code before (.schedule uartReady) v⟩ :=
  .act goes.2

/-- A system call leaves in the vector registers whatever its code does. -/
theorem Machine.Goes.calls (goes : before.Goes files (.trap ctx devices) after) (code : KernelCode)
    (v : VectorRegisters) (interrupted : UInt64 → Option VectorRegisters)
    (found : VectorRegisters) : ∃ interruptedAfter,
    VectorMachine.Step files code ⟨before, v, interrupted, found⟩ (.act (.trap ctx devices))
      ⟨after, code before (.trap ctx devices) v, interruptedAfter,
        code before (.trap ctx devices) v⟩ :=
  ⟨_, .act goes.2⟩

end Turns

end AtOS
