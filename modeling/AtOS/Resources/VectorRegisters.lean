import AtOS.Resources.Answers

/-! The vector registers of the CPU, which programs and the kernel use and no exception saves. -/

namespace AtOS

open SlotTable

/-- `V0` to `V31`. -/
abbrev VectorRegisters := Vector (BitVec 128) 32

/--
What the compiled code of the kernel makes of the vector registers in a step.

The source does not say: it is compiled for a target that has these registers, and any of its code
may use them.
-/
abbrev KernelCode := Machine → Action → VectorRegisters → VectorRegisters

/-- Two words in one vector register. -/
def inVector (low high : UInt64) : BitVec 128 := high.toBitVec ++ low.toBitVec

/--
The registers of a frame that the code of `handle_exception_el1` has left in vector registers.

In `kernel8.img`, the contexts of processes are copied through `V0` to `V3`.
-/
def ExceptionContext.copiedThrough (ctx : ExceptionContext) (v : VectorRegisters) :
    VectorRegisters :=
  (((v.set 0 (inVector ctx.spsr 0)).set 1 (inVector ctx.spEl1 0)).set 2
    (inVector ctx.spEl0 ctx.spEl1)).set 3 (inVector ctx.elr ctx.spsr)

/--
The code of `kernel8.img` on the way of a timer interrupt: saving a context, and loading the next.

The code behind a system call uses more of the vector registers, and is not followed here.
-/
def imageCode : KernelCode := fun m action v =>
  match action, m.control with
  | .trap ctx _, _ => ctx.copiedThrough v
  | .schedule uartReady, .scheduling frame _ =>
    match m.kernel.schedulePass uartReady frame with
    | .loaded _ ctx => v.set 0 (inVector ctx.spEl0 ctx.spEl1)
    | _ => v
  | _, _ => v

/--
A machine with the vector registers of its CPU.

`SAVE_REG`, `LOAD_REG` and the contexts of processes leave them out, so they stay in the CPU.
-/
structure VectorMachine where
  machine : Machine
  v : VectorRegisters
  /-- A record of their values when each process was last interrupted at EL0, by pid. -/
  interrupted : UInt64 → Option VectorRegisters
  /-- A record of their values when the kernel last returned to a program. -/
  found : VectorRegisters

/-- A step of the machine, or a computation of the program that runs. -/
inductive VectorAction where
  | act (action : Action)
  | compute (v : VectorRegisters)

/-- Whether a step only writes to memory. -/
def Action.isStore : Action → Bool
  | .store _ _ => true
  | .stackStore _ _ => true
  | _ => false

/-- The process that a step interrupts. -/
def VectorMachine.trapping (m : VectorMachine) (action : Action) : Option UInt64 :=
  match action, m.machine.kernel.getCurrentProcess with
  | .trap _ _, some self => some self.pid
  | _, _ => none

/-- The record of the values at interruptions, after a step. -/
def VectorMachine.record (m : VectorMachine) (action : Action) :
    UInt64 → Option VectorRegisters :=
  match m.trapping action with
  | some pid => Function.update m.interrupted pid (some m.v)
  | none => m.interrupted

/-- What a step leaves in the vector registers, where a write to memory alone leaves them alone. -/
def VectorMachine.left (m : VectorMachine) (code : KernelCode) (action : Action) :
    VectorRegisters :=
  if action.isStore then m.v else code m.machine action m.v

/-- The steps of a machine whose programs compute with vector registers, which `FPEN` permits. -/
inductive VectorMachine.Step (files : String → Option (List UInt8)) (code : KernelCode) :
    VectorMachine → VectorAction → VectorMachine → Prop
  | act {m : VectorMachine} {action : Action} {next : Machine}
      (step : m.machine.Step files action (.ok next)) :
      Step files code m (.act action)
        { machine := next
          v := m.left code action
          interrupted := m.record action
          found := if action.isStore then m.found else m.left code action }
  | compute {m : VectorMachine} {frame : ExceptionContext}
      (running : m.machine.control = .user frame) (v : VectorRegisters) :
      Step files code m (.compute v) { m with v }

/-- A run whose steps all meet a condition on the machine before and the action. -/
def VectorMachine.Runs (files : String → Option (List UInt8)) (code : KernelCode)
    (allowed : VectorMachine → VectorAction → Prop) : VectorMachine → VectorMachine → Prop :=
  Relation.ReflTransGen fun m next => ∃ action, allowed m action ∧ m.Step files code action next

/-- A machine that has just been started, with any values in its vector registers. -/
def VectorMachine.start (boot : Machine) (v : VectorRegisters) : VectorMachine where
  machine := boot
  v
  interrupted _ := none
  found := v

/-- The kernel gives the CPU to a program, which may be another one than before. -/
def VectorMachine.Resumes (next : VectorMachine) (action : Action) : Prop :=
  action.isStore = false ∧ ∃ frame, next.machine.control = .user frame

/-- Somebody was interrupted before and is still alive, besides the process that traps. -/
def VectorMachine.AwayBeside (m : VectorMachine) (trapping : Option UInt64) : Prop :=
  ∃ slot process, m.machine.kernel.processTable slot = some process ∧
    process.state ≠ .terminated ∧ trapping ≠ some process.pid ∧ m.interrupted process.pid ≠ none

/--
A step leaves the vector registers to whoever has something to lose.

That is the program that traps, unless it exits, and everybody else who has been interrupted before
and is still alive.
-/
structure VectorMachine.Considerate (code : KernelCode) (m : VectorMachine)
    (action : VectorAction) : Prop where
  /-- The code of the kernel leaves what the program had in them. -/
  trap : ∀ ctx devices, action = .act (.trap ctx devices) → ¬ ctx.IsSyscall 3 →
    m.left code (.trap ctx devices) = m.v
  /-- Program and kernel together leave what the kernel last returned with. -/
  others : ∀ step, action = .act step → step.isStore = false →
    m.AwayBeside (m.trapping step) → m.left code step = m.found

section Step

variable {files : String → Option (List UInt8)} {code : KernelCode} {m next : VectorMachine}
  {action : Action}

/-- What considerate steps keep up: everybody away was interrupted with the same values. -/
structure VectorMachine.Agrees (m : VectorMachine) : Prop where
  valid : m.machine.Valid
  below : ∀ {pid v}, m.interrupted pid = some v → pid < m.machine.kernel.nextPid
  away : ∀ {pid v}, m.interrupted pid = some v → m.machine.tree.living pid = true →
    (∀ frame, m.machine.control = .user frame → m.machine.tree.running ≠ some pid) → m.found = v

/-- A program runs whenever a step is a trap, and only then or when memory is written. -/
theorem Machine.Step.trap_or_inside {m : Machine} {next : Except Stop Machine}
    (step : m.Step files action next) :
    (∃ ctx devices, action = .trap ctx devices) ∨ action.isStore = true ∨
      ∀ frame, m.control ≠ .user frame := by
  cases step with
  | trap => exact Or.inl ⟨_, _, rfl⟩
  | sleep inside => simp [inside]
  | sleepFails inside => simp [inside]
  | acquire _ inside => simp [inside]
  | release _ inside => simp [inside]
  | finish _ inside => simp [inside]
  | schedule _ looping => simp [looping]
  | store => exact Or.inr (Or.inl rfl)
  | stackStore => exact Or.inr (Or.inl rfl)

/-- A write to memory changes neither who runs nor how. -/
theorem Machine.Step.stores {m next : Machine} (step : m.Step files action (.ok next))
    (isStore : action.isStore = true) : next.control = m.control ∧ next.tree = m.tree := by
  -- A byte in memory is no entry of the table.
  have same : ∀ root va byte,
      (m.kernel.storeByte root va byte).tree = m.kernel.tree ∧
        (m.kernel.storeByte root va byte).currentPid = m.kernel.currentPid := by
    intro root va byte
    obtain ⟨alloc, states, changed⟩ := m.kernel.storeByte_same root va byte
    rw [changed]
    exact ⟨rfl, rfl⟩
  generalize isNext : (Except.ok next : Except Stop Machine) = result at step
  cases step with
  | @store va byte low busy =>
    rw [Except.ok.injEq] at isNext
    subst isNext
    obtain ⟨tree, currentPid⟩ := same m.control.ttbr0.toNat va byte
    refine ⟨rfl, ?_⟩
    unfold Machine.tree Machine.running Machine.inKernel
    dsimp only
    rw [tree, currentPid]
  | @stackStore va byte slot inside =>
    rw [Except.ok.injEq] at isNext
    subst isNext
    obtain ⟨tree, currentPid⟩ := same m.kernel.kernelL1 va byte
    refine ⟨rfl, ?_⟩
    unfold Machine.tree Machine.running Machine.inKernel
    dsimp only
    rw [tree, currentPid]
  | _ => cases isStore

/-- A trap comes from the process that runs. -/
theorem Machine.Step.trapping {m : Machine} {next : Except Stop Machine} {ctx : ExceptionContext}
    {devices : Devices} (step : m.Step files (.trap ctx devices) next) (valid : m.Valid) :
    ∃ self, m.kernel.getCurrentProcess = some self ∧ m.tree.running = some self.pid ∧
      self.pid < m.kernel.nextPid ∧ (∃ frame, m.control = .user frame) := by
  cases step with
  | @trap frame _ _ running =>
    obtain ⟨self, runs⟩ := valid.user running
    refine ⟨self, runs.current, ?_, runs.invariant.formed.rooted.below runs.here, frame, running⟩
    rw [m.tree_runs runs (by simp [running])]
    rfl

/-- A process that has exited is not alive when the handler is done. -/
theorem Machine.Outcome.exit_ends {m after : Machine} {ctx : ExceptionContext}
    {devices : Devices} {pid : UInt64} (outcome : m.Outcome files (.trap ctx devices) (.ok after))
    (valid : after.Valid) (running : m.running = some pid) (isExit : ctx.IsSyscall 3) :
    after.tree.living pid = false := by
  have exiting : pid ∈ after.tree.log.filterMap Event.exiting :=
    List.mem_filterMap.mpr ⟨_, outcome.exits_trap running isExit, rfl⟩
  cases here : after.tree.entries pid with
  | none => simp [ProcessTree.living, here]
  | some process =>
    have ended := (valid.invariant.statuses.exited exiting).2 process here
    simp [ProcessTree.living, here, ended]

/-- The step of a trap interrupts the process that runs, and records its values. -/
theorem VectorMachine.record_trap {self : Process}
    (current : m.machine.kernel.getCurrentProcess = some self) (ctx : ExceptionContext)
    (devices : Devices) : m.trapping (.trap ctx devices) = some self.pid ∧
      m.record (.trap ctx devices) = Function.update m.interrupted self.pid (some m.v) := by
  have trapping : m.trapping (.trap ctx devices) = some self.pid := by
    unfold VectorMachine.trapping
    rw [current]
  refine ⟨trapping, ?_⟩
  unfold VectorMachine.record
  rw [trapping]

/-- Any other step interrupts nobody. -/
theorem VectorMachine.record_other (noTrap : ∀ ctx devices, action ≠ .trap ctx devices) :
    m.trapping action = none ∧ m.record action = m.interrupted := by
  have trapping : m.trapping action = none := by
    unfold VectorMachine.trapping
    cases action with
    | trap ctx devices => exact absurd rfl (noTrap ctx devices)
    | _ => rfl
  refine ⟨trapping, ?_⟩
  unfold VectorMachine.record
  rw [trapping]

/-- Who has been interrupted by the end of a step has a pid that is given out. -/
theorem VectorMachine.Agrees.below_step (agrees : m.Agrees) {after : Machine}
    (step : m.machine.Step files action (.ok after)) {pid : UInt64} {v : VectorRegisters}
    (recorded : m.record action pid = some v) : pid < m.machine.kernel.nextPid := by
  by_cases isTrap : ∃ ctx devices, action = .trap ctx devices
  · obtain ⟨ctx, devices, rfl⟩ := isTrap
    obtain ⟨self, current, -, below, -⟩ := step.trapping agrees.valid
    rw [(m.record_trap current ctx devices).2, Function.update_apply] at recorded
    split at recorded
    · rename_i same
      exact same ▸ below
    · exact agrees.below recorded
  · rw [(m.record_other fun ctx devices same => isTrap ⟨ctx, devices, same⟩).2] at recorded
    exact agrees.below recorded

/-- A considerate step leaves the values with which anybody alive was interrupted. -/
theorem VectorMachine.Agrees.leaves (agrees : m.Agrees) {after : Machine}
    (step : m.machine.Step files action (.ok after)) (noStore : action.isStore = false)
    (considerate : m.Considerate code (.act action)) {pid : UInt64} {v : VectorRegisters}
    (recorded : m.record action pid = some v) (alive : after.tree.living pid = true) :
    m.left code action = v := by
  -- Who is alive after the step was alive before, since pids are not reused.
  have outcome := step.outcome agrees.valid
  have turned := outcome.turn agrees.valid rfl
  have aliveBefore :=
    turned.2.living_back agrees.valid.invariant (agrees.below_step step recorded) alive
  obtain ⟨process, here, living⟩ := (Option.any_eq_true _ _).mp aliveBefore
  obtain ⟨slot, inSlot, rfl⟩ := Machine.slot_of_entries here
  -- Anybody who was away before the step was interrupted with what was found then.
  have others : m.trapping action ≠ some process.pid → m.interrupted process.pid = some v →
      (∀ frame, m.machine.control = .user frame → m.machine.tree.running ≠ some process.pid) →
      m.left code action = v := by
    intro other before away
    rw [considerate.others action rfl noStore
      ⟨slot, process, inSlot, by simpa using living, other, by simp [before]⟩]
    exact agrees.away before aliveBefore away
  -- The step is a trap, a store, or one in the kernel.
  rcases step.trap_or_inside with ⟨ctx, devices, rfl⟩ | isStore | inside
  · obtain ⟨self, current, running, -, frame, control⟩ := step.trapping agrees.valid
    obtain ⟨trapping, record⟩ := m.record_trap current ctx devices
    rw [record, Function.update_apply] at recorded
    split at recorded
    · -- The process that trapped is still alive, so it did not exit.
      rename_i same
      refine (considerate.trap ctx devices rfl fun isExit => ?_).trans (Option.some.inj recorded)
      rw [outcome.exit_ends turned.1 (running.trans (congrArg some same.symm)) isExit] at alive
      cases alive
    · rename_i other
      refine others ?_ recorded fun _ _ => ?_
      · rw [trapping]
        exact fun same => other (Option.some.inj same).symm
      · rw [running]
        exact fun same => other (Option.some.inj same).symm
  · rw [noStore] at isStore
    cases isStore
  · have noTrap : ∀ ctx devices, action ≠ .trap ctx devices := by
      rintro ctx devices rfl
      obtain ⟨self, -, -, -, frame, control⟩ := step.trapping agrees.valid
      exact inside frame control
    obtain ⟨trapping, record⟩ := m.record_other noTrap
    rw [record] at recorded
    exact others (by simp [trapping]) recorded fun frame control => absurd control (inside frame)

/-- A considerate step keeps it that way. -/
theorem VectorMachine.Agrees.step (agrees : m.Agrees) {action : VectorAction}
    (step : m.Step files code action next) (considerate : m.Considerate code action) :
    next.Agrees := by
  -- A computation changes neither what is recorded nor the machine.
  cases step with
  | compute running v => exact ⟨agrees.valid, agrees.below, agrees.away⟩
  | @act action after step =>
    have turned := (step.outcome agrees.valid).turn agrees.valid rfl
    -- Pids only grow.
    have below : ∀ {pid v}, m.record action pid = some v → pid < after.kernel.nextPid :=
      fun recorded => UInt64.lt_of_lt_of_le (agrees.below_step step recorded) turned.2.nextPid_le
    refine ⟨turned.1, below, fun {pid v} recorded alive away => ?_⟩
    have recorded : m.record action pid = some v := recorded
    have alive : after.tree.living pid = true := alive
    show (if action.isStore then m.found else m.left code action) = v
    cases isStore : action.isStore with
    | false => exact agrees.leaves step isStore considerate recorded alive
    | true =>
      -- Writing to memory touches no register, and changes nobody's turn.
      obtain ⟨control, tree⟩ := step.stores isStore
      have noTrap : ∀ ctx devices, action ≠ .trap ctx devices := by
        rintro ctx devices rfl
        cases isStore
      rw [(m.record_other noTrap).2] at recorded
      rw [tree] at alive
      refine agrees.away recorded alive fun frame same runs => ?_
      exact away frame (control.trans same) (by rw [tree]; exact runs)

/-- In a run of considerate steps, everybody away was interrupted with the same values. -/
theorem VectorMachine.Runs.agrees {start : Kernel} {boot : Machine} {v : VectorRegisters}
    (run : VectorMachine.Runs files code (VectorMachine.Considerate code) (.start boot v) m)
    (booted : Machine.Booted files start boot) : m.Agrees := by
  unfold VectorMachine.Runs at run
  induction run with
  | refl =>
    -- At first nobody has been interrupted.
    refine ⟨booted.tree.1, fun {pid v} recorded => ?_, fun {pid v} recorded => ?_⟩
    · cases recorded
    · cases recorded
  | tail _ step ih =>
    obtain ⟨action, considerate, step⟩ := step
    exact ih.step step considerate

end Step

end AtOS
