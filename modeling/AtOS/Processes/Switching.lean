import AtOS.Processes.Sleeping

/-! The scheduler picks a process that is ready, waits for one, or finds that all have terminated. -/

namespace AtOS

open SlotTable

variable {k next : Kernel} {inKernel : UInt64 → Bool} {lockHeld : Bool}

/-- Once round, the scan looks at every slot. -/
theorem Kernel.slotAfter_surjective (k : Kernel) (slot : Fin maxProcesses) :
    ∃ i ∈ scanOrder, k.slotAfter i = slot := by
  have current := k.currentProcess.isLt
  have inside := slot.isLt
  have size : maxProcesses = 50 := rfl
  -- The scan starts behind the current slot, so slots up to it come in the second half.
  by_cases later : k.currentProcess.val < slot.val
  · refine ⟨slot.val - k.currentProcess.val, ?_, ?_⟩
    · rw [scanOrder, List.mem_map]
      exact ⟨slot.val - k.currentProcess.val - 1, List.mem_range.mpr (by omega), by omega⟩
    · apply Fin.ext
      show (k.currentProcess.val + (slot.val - k.currentProcess.val)) % maxProcesses = slot.val
      rw [show k.currentProcess.val + (slot.val - k.currentProcess.val) = slot.val by omega,
        Nat.mod_eq_of_lt inside]
  · refine ⟨slot.val + maxProcesses - k.currentProcess.val, ?_, ?_⟩
    · rw [scanOrder, List.mem_map]
      exact ⟨slot.val + maxProcesses - k.currentProcess.val - 1,
        List.mem_range.mpr (by omega), by omega⟩
    · apply Fin.ext
      show (k.currentProcess.val + (slot.val + maxProcesses - k.currentProcess.val)) %
        maxProcesses = slot.val
      rw [show k.currentProcess.val + (slot.val + maxProcesses - k.currentProcess.val) =
        slot.val + maxProcesses by omega, Nat.add_mod_right, Nat.mod_eq_of_lt inside]

/-- The kernel after a process was loaded. -/
def Kernel.loadedFrom (k : Kernel) (slot : Fin maxProcesses) (process : Process) : Kernel :=
  { k.setEntry slot (some { process with state := .running }) with
    currentProcess := slot
    currentPid := some process.pid
    log := .loaded process.pid process.pctx :: k.log }

/-- Nobody is in the running state while the scheduler looks for a process. -/
theorem Kernel.Idles.notRunning (idles : k.Idles inKernel lockHeld) {slot : Fin maxProcesses}
    {process : Process} (there : k.processTable slot = some process) : process.state ≠ .running := by
  intro runs
  have idle := (idles.invariant.formed.one.running (idles.distinct.entriesOf_slot there)).mp runs
  cases idle

/-- What a pass of the loop comes to. -/
theorem Kernel.Idles.schedulePass (idles : k.Idles inKernel lockHeld) (uartReady : Bool)
    (ctx : ExceptionContext) :
    (∃ slot process, k.processTable slot = some process ∧ process.state = .ready ∧
      k.schedulePass uartReady ctx =
        .loaded (k.loadedFrom slot process) (ctx.updateFromPctx process.pctx)) ∨
    ((∀ slot process, k.processTable slot = some process → process.state ≠ .ready) ∧
      (∃ slot process, k.processTable slot = some process ∧ process.state = .blocked) ∧
      k.schedulePass uartReady ctx = .idle (k.awakeCommonChans uartReady)) ∨
    ((∀ slot process, k.processTable slot = some process → process.state = .terminated) ∧
      k.schedulePass uartReady ctx = .stopped (.theEnd k)) := by
  -- The current slot has no running process, since the scheduler is between two of them.
  have nobody : ((k.processTable k.currentProcess).any
      fun process => process.state == .running) = false := by
    cases there : k.processTable k.currentProcess with
    | none => rfl
    | some process =>
      have idle := idles.notRunning there
      simpa using idle
  unfold Kernel.schedulePass Kernel.chooseNextProcess
  rw [nobody]
  simp only [Bool.false_eq_true, if_false]
  cases found : scanOrder.find? fun i => (k.processTable (k.slotAfter i)).any fun process =>
      process.state == .ready with
  | some i =>
    -- The process that is found is ready, and its registers are those in its entry.
    have passes := List.find?_some found
    obtain ⟨process, there, ready⟩ := (Option.any_eq_true _ _).mp passes
    refine Or.inl ⟨k.slotAfter i, process, there, by simpa using ready, ?_⟩
    simp only [Kernel.loadPctx, there, ProcessContext.fromEctx_updateFromPctx]
    rfl
  -- Nobody is ready, since the scan comes by every slot.
  | none =>
    have notReady : ∀ slot process, k.processTable slot = some process →
        process.state ≠ .ready := by
      intro slot process there ready
      obtain ⟨i, inside, rfl⟩ := k.slotAfter_surjective slot
      have missing := List.find?_eq_none.mp found i inside
      rw [there] at missing
      exact missing (by simp [ready])
    refine Or.inr ?_
    dsimp only
    cases any : k.anyBlocked with
    -- Somebody who is blocked may become ready, so the scheduler waits for an interrupt.
    | some slot =>
      obtain ⟨process, there, blocked⟩ := find_some any
      exact Or.inl ⟨notReady, ⟨slot, process, there, by simpa using blocked⟩, rfl⟩
    | none =>
      refine Or.inr ⟨fun slot process there => ?_, rfl⟩
      have notBlocked := find_none.mp any slot process there
      have notRunning := idles.notRunning there
      have notReady := notReady slot process there
      -- A process that is neither ready, running nor blocked has terminated.
      cases state : process.state with
      | terminated => rfl
      | ready => exact absurd state notReady
      | running => exact absurd state notRunning
      | blocked => simp [state] at notBlocked

/-- Loading a process that is ready makes it the one that runs. -/
theorem Kernel.Idles.load (idles : k.Idles inKernel lockHeld) {slot : Fin maxProcesses}
    {process : Process} (there : k.processTable slot = some process)
    (ready : process.state = .ready) :
    { k.loadedFrom slot process with processTableLock := false }.Runs
        (Function.update inKernel process.pid false) { process with state := .running } ∧
      (k.tree inKernel none).Move ((k.loadedFrom slot process).tree
        (Function.update inKernel process.pid false) (some process.pid)) := by
  have move := @ProcessTree.Move.load (k.tree inKernel none) process rfl
    (idles.distinct.entriesOf_slot there) ready
  have after := @Kernel.tree_put k (k.loadedFrom slot process)
    (Function.update inKernel process.pid false) process (some process.pid) slot idles.distinct
    { process with state := .running } there rfl rfl rfl
  -- Loading is one move of the tree, along with the log and the suspended set.
  have same : (k.loadedFrom slot process).tree (Function.update inKernel process.pid false)
      (some process.pid) =
      { (k.tree inKernel none).set process.pid (some { process with state := .running }) with
        running := some process.pid
        inKernel := Function.update inKernel process.pid false
        log := .loaded process.pid process.pctx :: k.log } := by
    rw [after]
    rfl
  have moved : (k.tree inKernel none).Move ((k.loadedFrom slot process).tree
      (Function.update inKernel process.pid false) (some process.pid)) := by
    rw [same]
    exact move
  refine ⟨⟨(idles.distinct.put_same there ?_).1, ?_, ?_, rfl, rfl⟩, moved⟩
  · rfl
  · exact moved.invariant idles.invariant
  · exact put_self ..

/-- A pass that wakes the readers of the UART leaves nobody running. -/
theorem Kernel.Idles.awake (idles : k.Idles inKernel lockHeld) (uartReady : Bool) :
    (k.awakeCommonChans uartReady).Idles inKernel lockHeld ∧
      (k.awakeCommonChans uartReady).tree inKernel none = (k.tree inKernel none).awoken uartReady := by
  have tree := @Kernel.tree_awake k inKernel none idles.distinct uartReady
  refine ⟨⟨?_, ?_, ?_⟩, tree⟩
  · unfold Kernel.awakeCommonChans
    split
    · exact (idles.distinct.modifyAll (Process.wakeup_pid _)).1
    · exact idles.distinct
  · rw [tree]
    exact idles.invariant.awoken uartReady
  · rw [← idles.lock]
    unfold Kernel.awakeCommonChans
    split <;> rfl

end AtOS
