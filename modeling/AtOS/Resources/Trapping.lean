import AtOS.Processes.Calling
import AtOS.Resources.Owners

/-! A system call of the program that runs, with what its handler finds and has left. -/

namespace AtOS

open RadixForest SlotTable

/-- The same frames are free. -/
def SameFree (before after : PageAllocator) : Prop :=
  ∃ free left, FreeChain before.mem before.freeFrameList free ∧
    FreeChain after.mem after.freeFrameList left ∧ ∀ pa, pa ∈ left ↔ pa ∈ free

variable {files : String → Option (List UInt8)} {m : Machine} {mid : Kernel} {self : Process}
  {frame ctx : ExceptionContext} {devices : Devices} {handled : Handled} {roots : Set Nat}
  {free : List Nat} {managed : Set Nat}

/-- A program that runs can be interrupted, and can make any system call. -/
theorem Machine.Valid.traps (valid : m.Valid) (running : m.control = .user frame)
    (fromUser : wasFromUserEl0 ctx = true) (stack : ctx.spEl1 = frame.spEl1)
    (table : ctx.ttbr0 = frame.ttbr0) (files : String → Option (List UInt8)) (devices : Devices) :
    ∃ self mid,
      m.Traps files self ctx devices mid (m.kernel.handleExceptionEl1 files devices ctx) ∧
      m.Step files (.trap ctx devices)
        (m.after (m.kernel.handleExceptionEl1 files devices ctx)) := by
  -- Registers and tables are those of the program, so it may trap.
  have step : m.Step files (.trap ctx devices) _ := .trap running fromUser stack table
  have outcome := step.outcome valid
  generalize result : m.after (m.kernel.handleExceptionEl1 files devices ctx) = comes at outcome
  cases outcome with
  | trap runningNow runs fromUser stackNow tableNow entered leads reports =>
    -- On its way through the kernel the call uses what it is said to use.
    obtain ⟨mid, entry, entered, uses⟩ := runs.handleExceptionEl1_uses files devices fromUser
    refine ⟨_, mid, ⟨⟨frame, running, ?_⟩, runs, fromUser, entry, entered, uses,
      fun returned => ?_⟩, step⟩
    · rw [ExceptionContext.holding, stack, table]
      rfl
    · -- If the kernel returns, the same process runs on.
      rw [returned] at leads
      obtain ⟨-, changed, pid, runsAfter, -⟩ := leads
      exact runsAfter.currentPid.trans (congrArg some pid)

/-- A program that runs gets the handler of the system call that it asks for. -/
theorem Machine.Valid.calls (valid : m.Valid) (running : m.control = .user frame) {number : Nat}
    (isSyscall : ctx.IsSyscall number) (stack : ctx.spEl1 = frame.spEl1)
    (table : ctx.ttbr0 = frame.ttbr0) (files : String → Option (List UInt8)) (devices : Devices) :
    ∃ self mid, m.Traps files self ctx devices mid (mid.handleSyscall files ctx) ∧
      m.kernel.handleExceptionEl1 files devices ctx = mid.handleSyscall files ctx ∧
      m.Step files (.trap ctx devices) (m.after (mid.handleSyscall files ctx)) := by
  have fromUser : wasFromUserEl0 ctx = true := by
    rw [wasFromUserEl0, isSyscall.source]
    rfl
  obtain ⟨self, mid, traps, step⟩ := valid.traps running fromUser stack table files devices
  obtain ⟨-, handles⟩ := traps.runs.calls files devices isSyscall traps.entry
  rw [handles] at traps step
  exact ⟨self, mid, traps, handles, step⟩

/-- Entering an exception frees kernel stacks at most, and touches no program. -/
theorem Machine.Traps.kept (traps : m.Traps files self ctx devices mid handled)
    (owns : m.Owns roots free managed) :
    Kept m.kernel.alloc.mem mid.alloc.mem roots ∧
      m.kernel.alloc.freeFrameCount ≤ mid.alloc.freeFrameCount := by
  obtain ⟨freed, -, accounted, kept⟩ := traps.frees owns.sound.accounted
  have before : m.kernel.alloc.freeFrameCount = free.length := owns.sound.accounted.owned.count
  have later : mid.alloc.freeFrameCount = (freed ++ free).length := accounted.owned.count
  rw [before, later, List.length_append]
  exact ⟨kept, by omega⟩

/-- The page table of the process that traps is in use. -/
theorem Machine.Traps.live (traps : m.Traps files self ctx devices mid handled)
    (owns : m.Owns roots free managed) : ctx.ttbr0.toNat ∈ roots := by
  obtain ⟨held, holds, table⟩ := (owns.based traps.base.2).table
  have live := owns.sound.assigned.live holds
  rwa [table] at live

end AtOS
