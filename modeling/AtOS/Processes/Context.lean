import Mathlib.Algebra.Group.Nat.Defs

/-! The registers of a process, as they are saved and as an exception finds them. -/

namespace AtOS

/-- The registers have a first one, so that numerals name them. -/
instance neZeroRegisters : @NeZero Nat ⟨0⟩ 31 := ⟨by decide⟩

/-- `ExceptionType`. -/
inductive ExceptionType where
  | sync
  | irq
  | fiq
  | se
  deriving DecidableEq

/-- `ExceptionSource`. -/
inductive ExceptionSource where
  | el1t
  | el1h
  | el064
  | el032
  deriving DecidableEq

/-- `ProcessContext`, the registers a process is resumed with. -/
structure ProcessContext where
  x : Vector UInt64 31
  elr : UInt64
  spsr : UInt64
  spEl0 : UInt64
  spEl1 : UInt64
  ttbr0 : UInt64
  deriving DecidableEq

/-- `ExceptionContext`, the frame an exception leaves on the kernel stack. -/
structure ExceptionContext where
  etype : ExceptionType
  esource : ExceptionSource
  x : Vector UInt64 31
  elr : UInt64
  spsr : UInt64
  esr : UInt64
  far : UInt64
  spEl0 : UInt64
  spEl1 : UInt64
  ttbr0 : UInt64
  deriving DecidableEq

/-- A register, as an element of the array. -/
theorem register_eq (x : Vector UInt64 31) (i : Fin 31) : x.get i = x[i.val] := rfl

/-- `ProcessContext::new`: all general registers and `spsr` are zero. -/
def ProcessContext.new (entryPoint userSp kernelSp ttbr0 : UInt64) : ProcessContext where
  x := Vector.replicate 31 0
  elr := entryPoint
  spsr := 0
  spEl0 := userSp
  spEl1 := kernelSp
  ttbr0 := ttbr0

/-- `ProcessContext::from_ectx`. -/
def ProcessContext.fromEctx (ctx : ExceptionContext) : ProcessContext :=
  { ProcessContext.new ctx.elr ctx.spEl0 ctx.spEl1 ctx.ttbr0 with
    x := ctx.x
    spsr := ctx.spsr }

/-- `update_from_pctx`. -/
def ExceptionContext.updateFromPctx (ctx : ExceptionContext) (pctx : ProcessContext) :
    ExceptionContext :=
  { ctx with
    x := pctx.x
    elr := pctx.elr
    spsr := pctx.spsr
    spEl0 := pctx.spEl0
    spEl1 := pctx.spEl1
    ttbr0 := pctx.ttbr0 }

/-- A frame that was loaded from a context is saved as that context. -/
@[simp] theorem ProcessContext.fromEctx_updateFromPctx (ctx : ExceptionContext)
    (pctx : ProcessContext) : ProcessContext.fromEctx (ctx.updateFromPctx pctx) = pctx := rfl

end AtOS
