import AtOS.Processes.Starting

/-! Round robin: a process that stays ready is chosen before any other one is chosen twice. -/

namespace AtOS

open SlotTable

/-- How far one has to go round the table to get from one slot to the next occurrence of another. -/
def wayRound (start target : Fin maxProcesses) : Nat :=
  if start.val < target.val then target.val - start.val
  else target.val + maxProcesses - start.val

section Way

variable {start target middle : Fin maxProcesses}

/-- The way round to a slot is never empty, not even to the slot itself. -/
theorem wayRound_pos (start target : Fin maxProcesses) : 0 < wayRound start target := by
  have inside := start.isLt
  unfold wayRound
  split <;> omega

/-- The way round is at most once around the table. -/
theorem wayRound_le (start target : Fin maxProcesses) : wayRound start target ≤ maxProcesses := by
  have inside := start.isLt
  have bound := target.isLt
  unfold wayRound
  split <;> omega

/-- The number of places after the current slot is the way to get there. -/
theorem Kernel.wayRound_slotAfter (k : Kernel) {i : Nat} (positive : 0 < i)
    (bound : i ≤ maxProcesses) : wayRound k.currentProcess (k.slotAfter i) = i := by
  have inside := k.currentProcess.isLt
  have value : (k.slotAfter i).val = (k.currentProcess.val + i) % 50 := rfl
  have size : maxProcesses = 50 := rfl
  unfold wayRound
  rw [value]
  split <;> omega

/-- A slot on the way divides it. -/
theorem wayRound_split (nearer : wayRound start middle ≤ wayRound start target)
    (other : middle ≠ target) :
    wayRound start target = wayRound start middle + wayRound middle target := by
  have distinct : middle.val ≠ target.val := fun same => other (Fin.ext same)
  have inside := start.isLt
  have bound := target.isLt
  have between := middle.isLt
  simp only [wayRound] at *
  repeat' split at nearer
  all_goals repeat' split
  all_goals omega

/-- Two ways of the same length lead to the same slot. -/
theorem wayRound_inj (same : wayRound start middle = wayRound start target) : middle = target := by
  have bound := target.isLt
  have between := middle.isLt
  apply Fin.ext
  simp only [wayRound] at same
  repeat' split at same
  all_goals omega

end Way

/-- The process of a slot is ready. -/
def Kernel.ReadyAt (k : Kernel) (slot : Fin maxProcesses) : Prop :=
  ∃ process, k.processTable slot = some process ∧ process.state = .ready

/-- A decision of `schedule_next` while the current entry is not running: it loads a process. -/
structure Kernel.Decides (k next : Kernel) : Prop where
  notRunning : ∀ process, k.processTable k.currentProcess = some process → process.state ≠ .running
  loads : ∃ uartReady ctx frame, k.schedulePass uartReady ctx = .loaded next frame

/--
Decisions of the scheduler, one after the other, by the slots that they choose.

A process stays ready until it is chosen; between two decisions all may change but
`CURRENT_PROCESS`, which only a decision writes.
-/
inductive Decisions (waiting : Fin maxProcesses) : Fin maxProcesses → List (Fin maxProcesses) → Prop
  | none (current : Fin maxProcesses) : Decisions waiting current []
  | decided {k next : Kernel} {slots : List (Fin maxProcesses)} (ready : k.ReadyAt waiting)
      (decides : k.Decides next) (later : Decisions waiting next.currentProcess slots) :
      Decisions waiting k.currentProcess (next.currentProcess :: slots)

section Decisions

variable {k next : Kernel} {waiting current : Fin maxProcesses} {slots : List (Fin maxProcesses)}

/-- The scan finds a ready slot that is no farther than any other ready slot. -/
theorem Kernel.scan_nearest {i : Nat}
    (found : (scanOrder.find? fun i => (k.processTable (k.slotAfter i)).any fun process =>
      process.state == .ready) = some i) (ready : k.ReadyAt waiting) :
    0 < i ∧ i ≤ maxProcesses ∧ i ≤ wayRound k.currentProcess waiting := by
  obtain ⟨-, before, after, split, missing⟩ := List.find?_eq_some_iff_append.mp found
  -- The scan looks at the slots in the order of their distance.
  have ordered : scanOrder.Pairwise (· < ·) := by
    rw [scanOrder, List.pairwise_map]
    exact List.pairwise_lt_range.imp fun less => Nat.add_lt_add_right less 1
  have member : i ∈ scanOrder := by
    rw [split]
    simp
  rw [scanOrder, List.mem_map] at member
  obtain ⟨step, listed, rfl⟩ := member
  have bound := List.mem_range.mp listed
  refine ⟨Nat.succ_pos _, bound, ?_⟩
  -- The ready slot is scanned too, and it does not come earlier.
  obtain ⟨other, inside, isSlot⟩ := k.slotAfter_surjective waiting
  have otherRange := inside
  rw [scanOrder, List.mem_map] at otherRange
  obtain ⟨position, positionListed, isOther⟩ := otherRange
  have otherBound := List.mem_range.mp positionListed
  rw [← isSlot, k.wayRound_slotAfter (by omega) (by omega)]
  -- What is scanned before the found one is not ready, and what is scanned later is further away.
  rw [split, List.mem_append, List.mem_cons] at inside
  rcases inside with earlier | same | later
  · obtain ⟨process, there, isReady⟩ := ready
    have notReady := missing other earlier
    rw [isSlot, there] at notReady
    simp [isReady] at notReady
  · exact Nat.le_of_eq same.symm
  · rw [split] at ordered
    have rest := (List.pairwise_append.mp ordered).2.1
    exact Nat.le_of_lt ((List.pairwise_cons.mp rest).1 other later)

/-- Somebody who is ready makes every pass of the loop a decision. -/
theorem Kernel.ReadyAt.decides (ready : k.ReadyAt waiting)
    (notRunning : ∀ process, k.processTable k.currentProcess = some process →
      process.state ≠ .running) (uartReady : Bool) (ctx : ExceptionContext) :
    ∃ next frame, k.schedulePass uartReady ctx = .loaded next frame ∧
      wayRound k.currentProcess next.currentProcess ≤ wayRound k.currentProcess waiting := by
  -- The slot of the old process does not hold a running one, so it is scanned like the others.
  have nobody : ((k.processTable k.currentProcess).any
      fun process => process.state == .running) = false := by
    cases there : k.processTable k.currentProcess with
    | none => rfl
    | some process =>
      have idle := notRunning process there
      simpa using idle
  unfold Kernel.schedulePass Kernel.chooseNextProcess
  rw [nobody]
  simp only [Bool.false_eq_true, if_false]
  cases found : scanOrder.find? fun i => (k.processTable (k.slotAfter i)).any fun process =>
      process.state == .ready with
  | some i =>
    obtain ⟨positive, bound, near⟩ := Kernel.scan_nearest found ready
    -- The slot that is found is ready, and its process is loaded.
    have passes := List.find?_some found
    obtain ⟨process, there, -⟩ := (Option.any_eq_true _ _).mp passes
    refine ⟨k.loadedFrom (k.slotAfter i) process, ctx.updateFromPctx process.pctx, ?_, ?_⟩
    · simp only [Kernel.loadPctx, there, ProcessContext.fromEctx_updateFromPctx]
      rfl
    show wayRound k.currentProcess (k.slotAfter i) ≤ _
    rw [k.wayRound_slotAfter positive bound]
    exact near
  | none =>
    -- The scan cannot find nothing, since it comes by the ready slot.
    obtain ⟨process, there, isReady⟩ := ready
    obtain ⟨i, inside, isSlot⟩ := k.slotAfter_surjective waiting
    have missing := List.find?_eq_none.mp found i inside
    rw [isSlot, there] at missing
    simp [isReady] at missing

/-- A decision goes no farther than to the process that waits for it. -/
theorem Kernel.Decides.near (decides : k.Decides next) (ready : k.ReadyAt waiting) :
    wayRound k.currentProcess next.currentProcess ≤ wayRound k.currentProcess waiting := by
  obtain ⟨uartReady, ctx, frame, loads⟩ := decides.loads
  obtain ⟨other, context, again, near⟩ := ready.decides decides.notRunning uartReady ctx
  rw [loads] at again
  cases again
  exact near

/-- Before the waiting process is chosen, the slots that are chosen lie ever farther on the way. -/
theorem Decisions.ahead (decisions : Decisions waiting current slots) (unchosen : waiting ∉ slots) :
    (slots.map (wayRound current)).Pairwise (· < ·) ∧
      ∀ slot ∈ slots, wayRound current slot < wayRound current waiting := by
  -- The induction is on the decisions, and each one brings the next slot nearer.
  induction decisions with
  | none current => exact ⟨List.Pairwise.nil, fun slot member => (by cases member)⟩
  | @decided k next slots ready decides later ih =>
    simp only [List.mem_cons, not_or] at unchosen
    obtain ⟨other, rest⟩ := unchosen
    obtain ⟨sorted, short⟩ := ih rest
    have near := decides.near ready
    have split := wayRound_split near (Ne.symm other)
    -- The way from the old slot is the way from the new one, and the same more for all.
    have shifted : ∀ slot ∈ slots, wayRound k.currentProcess slot =
        wayRound k.currentProcess next.currentProcess + wayRound next.currentProcess slot := by
      intro slot member
      have less := short slot member
      have positive := wayRound_pos next.currentProcess slot
      have bound := wayRound_le k.currentProcess waiting
      have inside := k.currentProcess.isLt
      have between := next.currentProcess.isLt
      have target := slot.isLt
      simp only [wayRound] at *
      repeat' split at split
      all_goals repeat' split at less
      all_goals repeat' split
      all_goals omega
    -- The first slot is nearer than all later ones, which are shifted by the same way.
    refine ⟨?_, fun slot member => ?_⟩
    · rw [List.map_cons, List.pairwise_cons]
      refine ⟨fun distance member => ?_, ?_⟩
      · obtain ⟨slot, listed, rfl⟩ := List.mem_map.mp member
        have positive := wayRound_pos next.currentProcess slot
        rw [shifted slot listed]
        omega
      · rw [List.map_congr_left shifted]
        rw [List.pairwise_map] at sorted ⊢
        exact sorted.imp fun less => Nat.add_lt_add_left less _
    · have positive := wayRound_pos next.currentProcess waiting
      rcases List.mem_cons.mp member with rfl | listed
      · omega
      · have less := short slot listed
        rw [shifted slot listed]
        omega

/--
While a process stays ready, each decision chooses a slot on the way to it and comes closer.

It is chosen within `MAX_PROCESSES` decisions, and no slot is chosen twice before.
-/
theorem Decisions.fair (decisions : Decisions waiting current slots) :
    (∀ {k : Kernel} (_ : k.ReadyAt waiting) (_ : ∀ process,
        k.processTable k.currentProcess = some process → process.state ≠ .running) (uartReady : Bool)
        (ctx : ExceptionContext), ∃ next frame, k.schedulePass uartReady ctx = .loaded next frame ∧
      0 < wayRound k.currentProcess next.currentProcess ∧
      wayRound k.currentProcess next.currentProcess ≤ wayRound k.currentProcess waiting ∧
      (next.currentProcess ≠ waiting →
        wayRound next.currentProcess waiting < wayRound k.currentProcess waiting)) ∧
    (waiting ∉ slots → slots.length < maxProcesses ∧ slots.Nodup) := by
  refine ⟨fun {k} ready notRunning uartReady ctx => ?_, fun unchosen => ?_⟩
  · -- One decision takes a slot no further away, and a different one brings the waiting slot
    -- nearer.
    obtain ⟨next, frame, loads, near⟩ := ready.decides notRunning uartReady ctx
    have positive := wayRound_pos k.currentProcess next.currentProcess
    refine ⟨next, frame, loads, positive, near, fun other => ?_⟩
    have split := wayRound_split near other
    omega
  · obtain ⟨sorted, short⟩ := decisions.ahead unchosen
    have distinct : (slots.map (wayRound current)).Nodup := sorted.imp fun less => Nat.ne_of_lt less
    refine ⟨?_, distinct.of_map⟩
    -- The distances are different numbers between 1 and that of the waiting process.
    have bound := wayRound_le current waiting
    have inside : slots.map (wayRound current) ⊆ (List.range (maxProcesses - 1)).map (· + 1) := by
      intro distance member
      obtain ⟨slot, listed, rfl⟩ := List.mem_map.mp member
      have less := short slot listed
      have positive := wayRound_pos current slot
      exact List.mem_map.mpr ⟨wayRound current slot - 1, List.mem_range.mpr (by omega), by omega⟩
    -- So many different distances do not fit twice.
    have count := (distinct.subperm inside).length_le
    rw [List.length_map, List.length_map, List.length_range] at count
    have positive : 0 < maxProcesses := by decide
    omega

/-- After boot, the first decision is about `init`, which waits in the first slot. -/
theorem fair_words : ∃ (k next : Kernel), k.ReadyAt ⟨0, by decide⟩ ∧ k.Decides next ∧
    (⟨0, by decide⟩ ∉ [next.currentProcess] → [next.currentProcess].length < maxProcesses ∧
      [next.currentProcess].Nodup) := by
  obtain ⟨boot, booted⟩ := wordsStart_boots
  obtain ⟨init, -, -, -, -, -, table, isInit⟩ := booted.schedules
  -- Init is ready in the first slot, so a decision has to choose somebody.
  have ready : boot.kernel.ReadyAt ⟨0, by decide⟩ := ⟨init, by rw [table, put_self], isInit.ready⟩
  have notRunning : ∀ process, boot.kernel.processTable boot.kernel.currentProcess = some process →
      process.state ≠ .running := by
    intro process there
    rw [table, put_eq_some] at there
    rcases there with ⟨-, same⟩ | ⟨-, impossible⟩
    · rw [← Option.some.inj same, isInit.ready]
      exact fun same => nomatch same
    · cases impossible
  obtain ⟨ctx, -⟩ := exists_sleepFrame
  obtain ⟨next, frame, loads, -⟩ := ready.decides notRunning false ctx
  -- The run of one decision is enough to instantiate the statement.
  have decides : boot.kernel.Decides next := ⟨notRunning, false, ctx, frame, loads⟩
  have decisions := Decisions.decided ready decides (.none next.currentProcess)
  exact ⟨boot.kernel, next, ready, decides, decisions.fair.2⟩

end Decisions

end AtOS
