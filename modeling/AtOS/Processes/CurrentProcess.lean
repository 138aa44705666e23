import AtOS.Processes.Starting

/-! One process runs, and both notions of the current process agree on it. -/

namespace AtOS

open SlotTable

variable {files : String → Option (List UInt8)} {m next : Machine}

/-- What holds of the first machine of a run, and is kept by its steps, holds of the last one. -/
theorem Machine.Runs.induction {allowed : Machine → Action → Prop} {motive : Machine → Prop}
    (run : Machine.Runs files allowed m next) (valid : m.Valid) (start : motive m)
    (step : ∀ {m next action}, m.Valid → motive m → allowed m action →
      m.Outcome files action (.ok next) → next.Valid → motive next) :
    next.Valid ∧ motive next := by
  induction run with
  | refl => exact ⟨valid, start⟩
  | tail _ last ih =>
    obtain ⟨action, admitted, taken⟩ := last
    obtain ⟨validBefore, before⟩ := ih
    have outcome := taken.outcome validBefore
    have validAfter := (outcome.turn validBefore rfl).1
    exact ⟨validAfter, step validBefore before admitted outcome validAfter⟩

/-- A run under one condition is a run under a weaker one. -/
theorem Machine.Runs.weaken {allowed weaker : Machine → Action → Prop}
    (run : Machine.Runs files allowed m next)
    (subset : ∀ m action, allowed m action → weaker m action) :
    Machine.Runs files weaker m next := by
  induction run with
  | refl => exact .refl
  | tail _ last ih =>
    obtain ⟨action, meets, step⟩ := last
    exact ih.tail ⟨action, subset _ _ meets, step⟩

/-- A step of the machine reaches another machine. -/
theorem Machine.Reachable.step {action : Action} (reached : m.Reachable files)
    (step : m.Step files action (.ok next)) : next.Reachable files := by
  obtain ⟨start, boot, booted, run⟩ := reached
  exact ⟨start, boot, booted, run.tail ⟨action, trivial, step⟩⟩

/-- In every reachable machine it is clear who runs. -/
theorem Machine.Reachable.valid (reached : m.Reachable files) : m.Valid := by
  obtain ⟨start, boot, booted, run⟩ := reached
  exact (run.induction booted.tree.1 trivial fun _ _ _ _ _ => trivial).1

/-- A reachable machine stops in one of the possible ways only. -/
theorem Machine.Reachable.stops (reached : m.Reachable files) {action : Action} {stop : Stop}
    (step : m.Step files action (.error stop)) : stop.Possible :=
  (step.outcome reached.valid).stops rfl

/-- A slot holds a process exactly if the tree has it under its pid. -/
theorem Machine.Valid.entries_slot (valid : m.Valid) {slot : Fin maxProcesses} {process : Process}
    (there : m.kernel.processTable slot = some process) :
    m.tree.entries process.pid = some process :=
  valid.distinct.entriesOf_slot there

/-- What the tree has under a pid is in some slot. -/
theorem Machine.slot_of_entries {pid : UInt64} {process : Process}
    (here : m.tree.entries pid = some process) :
    ∃ slot, m.kernel.processTable slot = some process ∧ process.pid = pid :=
  slot_of_entriesOf here

/-- The handler of the last exception has returned. -/
def Machine.Returned (m : Machine) : Prop :=
  ∀ frame lockHeld, m.control ≠ .scheduling frame lockHeld

/-- Where the machine has returned to a process, that process is in the kernel's current slot. -/
theorem Machine.Valid.returned (valid : m.Valid) (returned : m.Returned) :
    ∃ self, m.kernel.Runs m.inKernel self := by
  cases control : m.control with
  | user frame => exact valid.user control
  | syscall suspension => exact valid.syscall control
  | scheduling frame lockHeld => exact absurd control (returned frame lockHeld)

/-- One process is in the running state, and the slot index and the noted pid both lead to it. -/
structure Kernel.AgreesOn (k : Kernel) (process : Process) : Prop where
  running : process.state = .running
  only : ∀ {slot other}, k.processTable slot = some other →
    (other.state = .running ↔ slot = k.currentProcess)
  noted : k.currentPid = some process.pid
  byIndex : k.getCurrentProcess = some process
  byPid : k.getCurrent.bind k.processTable = some process

/-- The panics about a current process that is not there. -/
def KernelPanic.isDisappearance : KernelPanic → Bool
  | .noCurrentProcess => true
  | .lastRunningDisappeared => true
  | .currentDisappeared => true
  | .processNotFound => true
  | _ => false

/-- Whoever runs is found in both ways. -/
theorem Kernel.Runs.agrees {k : Kernel} {inKernel : UInt64 → Bool} {self : Process}
    (runs : k.Runs inKernel self) : k.AgreesOn self := by
  refine ⟨runs.state, fun {slot other} there => ?_, runs.currentPid, runs.current, runs.currentEntry⟩
  constructor
  · intro state
    have same := (runs.invariant.formed.one.running (runs.distinct.entriesOf_slot there)).mp state
    exact runs.distinct.slot_eq there runs.current (Option.some.inj same).symm
  · rintro rfl
    rw [runs.current, Option.some.injEq] at there
    exact there ▸ runs.state

/-- No possible stop is about a current process that is not there. -/
theorem Stop.Possible.notDisappearance {panic : KernelPanic} (possible : (Stop.failed panic).Possible) :
    panic.isDisappearance = false := by
  cases possible with
  | excused excused =>
    rcases excused with (⟨_, memory⟩ | memory) | overflow | ⟨_, unwrapped⟩ | ⟨_, unwrapped⟩
    · cases memory
    · cases memory
    · cases overflow
      rfl
    · cases unwrapped
      rfl
    · cases unwrapped
      rfl
  | guard => rfl
  | unlocked mutex => rfl
  | owner mutex owner pid => rfl

/-- When a handler has returned, one process runs, and it cannot disappear from under the kernel. -/
theorem Machine.Reachable.agreesOnCurrent (reached : m.Reachable files) :
    (m.Returned → ∃ self, m.kernel.AgreesOn self) ∧
    (∀ action panic, m.Step files action (.error (.failed panic)) →
      panic.isDisappearance = false) ∧
    ∀ action k, m.Step files action (.error (.theEnd k)) →
      ∀ slot process, k.processTable slot = some process → process.state = .terminated := by
  -- The three parts are the running process, the stops of a step and the end of the run.
  refine ⟨fun returned => ?_, fun action panic step => ?_, fun action k step => ?_⟩
  · obtain ⟨self, runs⟩ := reached.valid.returned returned
    exact ⟨self, runs.agrees⟩
  · exact (reached.stops step).notDisappearance
  · -- Every excused stop is another outcome than the end of the system.
    cases reached.stops step with
    | theEnd ended => exact ended
    | excused excused =>
      rcases excused with (⟨_, memory⟩ | memory) | overflow | ⟨_, unwrapped⟩ | ⟨_, unwrapped⟩
      · cases memory
      · cases memory
      · cases overflow
      · cases unwrapped
      · cases unwrapped

/-- The small program runs as the current process. -/
theorem agreesOnCurrent_words :
    ∃ m self, Machine.Reachable wordsFiles m ∧ m.kernel.AgreesOn self := by
  obtain ⟨m, frame, reached, running⟩ := wordsFiles_runs
  have returned : m.Returned := fun other lockHeld looping => by
    rw [running] at looping
    cases looping
  obtain ⟨self, agrees⟩ := reached.agreesOnCurrent.1 returned
  exact ⟨m, self, reached, agrees⟩

end AtOS
