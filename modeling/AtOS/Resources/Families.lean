import AtOS.Resources.Waiters

/-! Families: parents are there, waiting cannot deadlock, and each exit is reported once. -/

namespace AtOS

open SlotTable

variable {files : String → Option (List UInt8)} {m : Machine} {t : ProcessTree}

/-- Where a process has its place: only pid 1 has no parent, and any other is in the table. -/
def Kernel.HasFamily (k : Kernel) (process : Process) : Prop :=
  (process.pid = 1 ∧ process.parentPid = 0) ∨
    (process.pid ≠ 1 ∧ process.parentPid < process.pid ∧ ∃ slot parent,
      k.processTable slot = some parent ∧ parent.pid = process.parentPid ∧
        (parent.state ≠ .terminated ∨ parent.pid = 1))

/-- No possible stop is about a parent that is not there. -/
theorem Stop.Possible.notOrphan {parent child : UInt64} :
    ¬ (Stop.failed (.parentNotFound parent child)).Possible := by
  intro possible
  cases possible with
  | excused excused =>
    rcases excused with (⟨_, memory⟩ | memory) | overflow | ⟨_, unwrapped⟩ | ⟨_, unwrapped⟩
    · cases memory
    · cases memory
    · cases overflow
    · cases unwrapped
    · cases unwrapped

/-- Every process has its parent in the table, pid 1 stays there, and `sys_exit` finds the parent. -/
theorem Machine.Reachable.hasFamily (reached : m.Reachable files) :
    (∀ slot process, m.kernel.processTable slot = some process → m.kernel.HasFamily process) ∧
    (∃ slot init, m.kernel.processTable slot = some init ∧ init.pid = 1) ∧
    ∀ action parent child,
      ¬ m.Step files action (.error (.failed (.parentNotFound parent child))) := by
  have valid := reached.valid
  have rooted := valid.invariant.formed.rooted
  -- Pid 1 is the root of the tree, and everybody else has an older parent in it.
  refine ⟨fun slot process there => ?_, ?_, fun action parent child step => ?_⟩
  · have here := valid.entries_slot there
    by_cases first : process.pid = 1
    · obtain ⟨init, initHere, orphan⟩ := rooted.init
      rw [first, initHere, Option.some.injEq] at here
      exact Or.inl ⟨first, here ▸ orphan⟩
    · obtain ⟨parent, parentHere, alive⟩ := rooted.parent here first
      obtain ⟨other, parentThere, pid⟩ := Machine.slot_of_entries parentHere
      refine Or.inr ⟨first, rooted.older here first, other, parent, parentThere, pid, ?_⟩
      exact alive.imp_right fun init => pid.trans init
  · obtain ⟨init, initHere, -⟩ := rooted.init
    obtain ⟨slot, there, pid⟩ := Machine.slot_of_entries initHere
    exact ⟨slot, init, there, pid⟩
  · exact Stop.Possible.notOrphan (reached.stops step)

/-- The grandchild of pid 1 has its parent in the table. -/
theorem hasFamily_words : ∃ m slot process, Machine.Reachable wordsFiles m ∧
    m.kernel.processTable slot = some process ∧ process.pid = 3 ∧ process.parentPid = 2 ∧
    m.kernel.HasFamily process := by
  obtain ⟨boot, m, _, _, third, _, _, booted, run, -, family⟩ := wordsStart_generations
  have reached : Machine.Reachable wordsFiles m := ⟨_, boot, booted, Machine.Runs.weaken run fun _ _ _ => trivial⟩
  have there : m.kernel.processTable m.kernel.currentProcess = some third := family.current
  exact ⟨m, _, third, reached, there, family.pids.2.2, family.parents.2.2,
    reached.hasFamily.1 _ _ there⟩

/--
Below a living process there is a living one that does not wait.

A process that waits has a living child, whose pid is greater, and pids are bounded.
-/
theorem ProcessTree.Awaited.active (awaited : t.Awaited) (rooted : t.Rooted) (room : Nat) :
    ∀ {pid process}, t.entries pid = some process → process.state ≠ .terminated →
      2 ^ 64 ≤ pid.toNat + room → ∃ other active, t.entries other = some active ∧
        active.state ≠ .terminated ∧ ¬ active.Waits := by
  induction room with
  | zero =>
    intro pid process here living few
    have bound := pid.toNat_lt
    omega
  | succ room ih =>
    intro pid process here living few
    by_cases waits : process.Waits
    · -- Whoever waits has a living child, which is younger, so the search gets closer to the last
      -- pid.
      obtain ⟨child, childHere, isChild, alive⟩ := awaited.child here waits
      have parent := (Process.isAwaited_iff.mp isChild).1
      have above : t.entries child.parentPid = some process := parent ▸ here
      have older := rooted.older childHere (rooted.child_ne_init childHere above)
      rw [parent] at older
      exact ih childHere alive (by omega)
    · exact ⟨pid, process, here, living, waits⟩

/-- Whoever waits for a child has a living one, so somebody alive does not wait. -/
theorem Machine.Reachable.waitingProgresses (reached : m.Reachable files) :
    (∀ slot process, m.kernel.processTable slot = some process → process.Waits →
      ∃ other child, m.kernel.processTable other = some child ∧
        child.isAwaited process.pid process.target = true ∧ child.state ≠ .terminated) ∧
    ((∃ slot process, m.kernel.processTable slot = some process ∧ process.state ≠ .terminated) →
      ∃ slot process, m.kernel.processTable slot = some process ∧ process.state ≠ .terminated ∧
        ¬ process.Waits) ∧
    ∀ frame lockHeld uartReady k, m.control = .scheduling frame lockHeld →
      m.kernel.schedulePass uartReady frame = .idle k →
      ∃ slot process, m.kernel.processTable slot = some process ∧ process.state = .blocked ∧
        process.blockReason ≠ some .waitingForChild := by
  -- In every reachable machine whoever waits has somebody to wait for.
  have valid := reached.valid
  have invariant := valid.invariant
  have active : ∀ slot process, m.kernel.processTable slot = some process →
      process.state ≠ .terminated → ∃ slot process, m.kernel.processTable slot = some process ∧
        process.state ≠ .terminated ∧ ¬ process.Waits := by
    intro slot process there living
    obtain ⟨pid, other, here, alive, free⟩ := invariant.awaited.active invariant.formed.rooted (2 ^ 64)
      (valid.entries_slot there) living (by omega)
    obtain ⟨second, secondThere, -⟩ := Machine.slot_of_entries here
    exact ⟨second, other, secondThere, alive, free⟩
  refine ⟨fun slot process there waits => ?_, ?_, ?_⟩
  · obtain ⟨child, here, isChild, alive⟩ := invariant.awaited.child (valid.entries_slot there) waits
    obtain ⟨other, childThere, -⟩ := Machine.slot_of_entries here
    exact ⟨other, child, childThere, isChild, alive⟩
  · rintro ⟨slot, process, there, living⟩
    exact active slot process there living
  · intro frame lockHeld uartReady k looping idle
    have idles := valid.scheduling looping
    -- The scheduler idles, so there is nobody to load.
    rcases idles.schedulePass uartReady frame with ⟨_, _, _, _, result⟩ |
      ⟨notReady, ⟨slot, blocked, there, isBlocked⟩, -⟩ | ⟨-, result⟩
    · rw [result] at idle
      cases idle
    · obtain ⟨other, process, otherThere, living, free⟩ :=
        active slot blocked there (by simp [isBlocked])
      -- Nobody runs and nobody is ready, so whoever is alive is blocked.
      have state : process.state = .blocked := by
        have notRunning := idles.notRunning otherThere
        have notReady := notReady other process otherThere
        cases state : process.state with
        | blocked => rfl
        | ready => exact absurd state notReady
        | running => exact absurd state notRunning
        | terminated => exact absurd state living
      exact ⟨other, process, otherThere, state, fun reason => free ⟨state, reason⟩⟩
    · rw [result] at idle
      cases idle

/-- While its grandchild runs, pid 1 waits for a child that lives. -/
theorem waitingProgresses_words : ∃ m slot process other child, Machine.Reachable wordsFiles m ∧
    m.kernel.processTable slot = some process ∧ process.pid = 1 ∧ process.Waits ∧
    m.kernel.processTable other = some child ∧
    child.isAwaited process.pid process.target = true ∧ child.state ≠ .terminated := by
  obtain ⟨boot, m, first, second, third, pctx, saved, booted, run, -, family⟩ :=
    wordsStart_generations
  have reached : Machine.Reachable wordsFiles m := ⟨_, boot, booted, Machine.Runs.weaken run fun _ _ _ => trivial⟩
  have here : m.entries 1 = some (first.waiting pctx) := by
    rw [family.entries]
    rfl
  obtain ⟨slot, there, pid⟩ := slot_of_entriesOf here
  have waits : (first.waiting pctx).Waits := ⟨rfl, rfl⟩
  obtain ⟨other, child, found, isChild, alive⟩ := reached.waitingProgresses.1 slot _ there waits
  exact ⟨m, slot, _, other, child, reached, there, pid, waits, found, isChild, alive⟩

/--
What `wait` returns is the exit of a child, with the code it passed to `exit`, and only once.

A process that waits is handed the exit in its saved registers, and is loaded with these.
-/
theorem Machine.Reachable.exitsDelivered (reached : m.Reachable files) :
    (m.kernel.log.filterMap Event.settled).Nodup ∧
    (m.kernel.log.filterMap Event.exiting).Nodup ∧
    (∀ {pid pctx earlier}, .loaded pid pctx :: earlier <:+ m.kernel.log →
      lastContext pid earlier = some pctx) ∧
    ∀ action next, m.Step files action (.ok next) → ∃ new, m.Settles action next new := by
  have invariant := reached.valid.invariant
  exact ⟨invariant.statuses.once, invariant.statuses.exits, invariant.faithful.loaded,
    fun action next step => (step.outcome reached.valid).settles reached.valid⟩

/-- When the child of pid 1 exits, `wait` of pid 1 is handed the exit. -/
theorem exitsDelivered_words : ∃ (m next : Machine) (frame : ExceptionContext) (new : List Event)
    (child code : UInt64), Machine.Reachable wordsFiles m ∧
    m.Step wordsFiles (.trap (frame.calling 3 (argumentRegisters 7 0 0)) ⟨false, false, false⟩)
      (.ok next) ∧
    m.Settles (.trap (frame.calling 3 (argumentRegisters 7 0 0)) ⟨false, false, false⟩) next new ∧
    .delivered 1 0 child code ∈ new := by
  -- Pid 1 waits for any child, and the child exits with code 7.
  obtain ⟨boot, _, m, init, child, _, pctx, booted, goes, orderly, descends, pid, -, pidChild, -,
    entries⟩ := wordsStart_descends 0 (by decide)
  have reached : Machine.Reachable wordsFiles m :=
    ⟨_, boot, booted, Machine.Runs.weaken (goes.run.trans descends.run) fun _ _ _ => trivial⟩
  obtain ⟨frame, running⟩ := descends.running
  have here : m.entries 1 = some (init.waiting pctx) := by
    rw [entries]
    rfl
  have parent : child.parentPid = 1 := descends.parent.trans pid
  obtain ⟨next, woken, step, -, hereNext, ready⟩ := orderly.wakesParent wordsFiles_loadsFresh running
    descends.current (parent ▸ here) ⟨rfl, rfl⟩ descends.any 7
  rw [parent] at hereNext
  obtain ⟨new, settles⟩ := reached.exitsDelivered.2.2.2 _ _ step.2
  -- Pid 1 waited before, and is ready now, so an exit was handed to it.
  obtain ⟨slot, there, pidFirst⟩ := slot_of_entriesOf here
  obtain ⟨other, found, pidWoken⟩ := slot_of_entriesOf hereNext
  rcases settles.wakes there found (pidWoken.trans pidFirst.symm) ⟨rfl, rfl⟩ with
    waits | ⟨child, code, delivered⟩
  · have blocked := waits.blocked
    rw [ready] at blocked
    cases blocked
  · have target : (init.waiting pctx).target = 0 := descends.any
    rw [pidFirst, target] at delivered
    exact ⟨m, next, frame, new, child, code, reached, step.2, settles, delivered⟩

end AtOS
