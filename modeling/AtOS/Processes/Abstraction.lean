import AtOS.Processes.History
import AtOS.Processes.LostWakeup
import AtOS.Processes.Machine
import AtOS.Processes.Statuses

/-! The tree of processes that the process table stands for. -/

namespace AtOS

open SlotTable

/-- The process of a pid, in whatever slot it is. -/
def entriesOf (table : Table maxProcesses Process) (pid : UInt64) : Option Process :=
  (find table fun process => process.pid == pid).bind table

/-- No two slots hold the same pid. -/
structure Distinct (table : Table maxProcesses Process) : Prop where
  slot_eq : ∀ {slot other process second}, table slot = some process → table other = some second →
    process.pid = second.pid → slot = other

/-- The tree a kernel stands for, with who runs and who sleeps inside the kernel. -/
def Kernel.tree (k : Kernel) (inKernel : UInt64 → Bool) (running : Option UInt64) : ProcessTree where
  entries := entriesOf k.processTable
  nextPid := k.nextPid
  running
  inKernel
  log := k.log

section Entries

variable {table : Table maxProcesses Process}

/-- What a pid stands for is in some slot. -/
theorem slot_of_entriesOf {pid : UInt64} {process : Process}
    (here : entriesOf table pid = some process) :
    ∃ slot, table slot = some process ∧ process.pid = pid := by
  obtain ⟨slot, found, there⟩ := Option.bind_eq_some_iff.mp here
  obtain ⟨other, otherThere, same⟩ := find_some found
  rw [there, Option.some.injEq] at otherThere
  subst otherThere
  exact ⟨slot, there, by simpa using same⟩

/-- A slot holds what its pid stands for. -/
theorem Distinct.entriesOf_slot (distinct : Distinct table) {slot : Fin maxProcesses}
    {process : Process} (there : table slot = some process) :
    entriesOf table process.pid = some process := by
  have found : find table (fun other => other.pid == process.pid) = some slot := by
    refine find_unique there (by simp) fun other second otherThere same => ?_
    exact distinct.slot_eq otherThere there (by simpa using same)
  rw [entriesOf, found, Option.bind_some, there]

/-- In a table of distinct pids a pid's entry is the slot that holds it. -/
theorem Distinct.entriesOf_iff (distinct : Distinct table) {pid : UInt64} {process : Process} :
    entriesOf table pid = some process ↔ ∃ slot, table slot = some process ∧ process.pid = pid := by
  constructor
  · exact slot_of_entriesOf
  · rintro ⟨slot, there, rfl⟩
    exact distinct.entriesOf_slot there

/-- The slot that `find_by_id` finds. -/
theorem Distinct.find_pid (distinct : Distinct table) {slot : Fin maxProcesses} {process : Process}
    (there : table slot = some process) :
    find table (fun other => other.pid == process.pid) = some slot := by
  refine find_unique there (by simp) fun other second otherThere same => ?_
  exact distinct.slot_eq otherThere there (by simpa using same)

/-- No slot is found for a pid exactly when it stands for nothing. -/
theorem find_pid_none {pid : UInt64} :
    find table (fun other => other.pid == pid) = none ↔ entriesOf table pid = none := by
  constructor
  · intro missing
    rw [entriesOf, missing, Option.bind_none]
  · intro vacant
    cases found : find table (fun other => other.pid == pid) with
    | none => rfl
    | some slot =>
      obtain ⟨process, there, -⟩ := find_some found
      rw [entriesOf, found, Option.bind_some, there] at vacant
      cases vacant

/-- Two functions from pids that agree on what they have are the same. -/
theorem entries_ext {first second : UInt64 → Option Process}
    (same : ∀ pid process, first pid = some process ↔ second pid = some process) :
    first = second :=
  funext fun pid => Option.ext fun process => same pid process

variable {slot : Fin maxProcesses}

/-- Replacing the entry of a slot by one with the same pid. -/
theorem Distinct.put_same (distinct : Distinct table) {self changed : Process}
    (there : table slot = some self) (pid : changed.pid = self.pid) :
    Distinct (put table slot (some changed)) ∧
      entriesOf (put table slot (some changed)) =
        Function.update (entriesOf table) self.pid (some changed) := by
  -- The slot's pid is unchanged, so the pids stay distinct.
  have after : Distinct (put table slot (some changed)) := by
    refine ⟨fun {first second process other} firstThere secondThere same => ?_⟩
    rw [put_eq_some] at firstThere secondThere
    rcases firstThere with ⟨rfl, isChanged⟩ | ⟨notFirst, old⟩ <;>
      rcases secondThere with ⟨rfl, isOther⟩ | ⟨notSecond, oldOther⟩
    · rfl
    · rw [Option.some.injEq] at isChanged
      exact distinct.slot_eq there oldOther (by rw [← same, ← isChanged, pid])
    · rw [Option.some.injEq] at isOther
      exact distinct.slot_eq old there (by rw [same, ← isOther, pid])
    · exact distinct.slot_eq old oldOther same
  refine ⟨after, entries_ext fun other process => ?_⟩
  rw [after.entriesOf_iff, Function.update_apply]
  constructor
  · -- The slot holds the changed entry, and the others hold what they held.
    rintro ⟨second, secondThere, rfl⟩
    rw [put_eq_some] at secondThere
    rcases secondThere with ⟨rfl, isChanged⟩ | ⟨notSlot, old⟩
    · rw [Option.some.injEq] at isChanged
      rw [if_pos (by rw [← isChanged, pid]), isChanged]
    · rw [if_neg fun same => notSlot (distinct.slot_eq old there same)]
      exact distinct.entriesOf_slot old
  · intro found
    split at found
    · rename_i same
      rw [Option.some.injEq] at found
      exact ⟨slot, by rw [put_self, found], by rw [← found, pid, same]⟩
    · rename_i notSelf
      obtain ⟨second, secondThere, rfl⟩ := slot_of_entriesOf found
      refine ⟨second, ?_, rfl⟩
      rw [put_eq_some]
      refine Or.inr ⟨?_, secondThere⟩
      rintro rfl
      rw [there, Option.some.injEq] at secondThere
      exact notSelf (secondThere ▸ rfl)

/-- Putting a process with a new pid into an empty slot. -/
theorem Distinct.put_new (distinct : Distinct table) {child : Process} (vacant : table slot = none)
    (fresh : entriesOf table child.pid = none) :
    Distinct (put table slot (some child)) ∧
      entriesOf (put table slot (some child)) =
        Function.update (entriesOf table) child.pid (some child) := by
  -- The child's pid is nobody's, so no other slot has it.
  have other : ∀ {second process}, table second = some process → process.pid ≠ child.pid := by
    intro second process there same
    have found := distinct.entriesOf_slot there
    rw [same, fresh] at found
    cases found
  have after : Distinct (put table slot (some child)) := by
    refine ⟨fun {first second process third} firstThere secondThere same => ?_⟩
    rw [put_eq_some] at firstThere secondThere
    rcases firstThere with ⟨rfl, isChild⟩ | ⟨notFirst, old⟩ <;>
      rcases secondThere with ⟨rfl, isThird⟩ | ⟨notSecond, oldThird⟩
    · rfl
    · rw [Option.some.injEq] at isChild
      exact absurd (by rw [← same, ← isChild]) (other oldThird)
    · rw [Option.some.injEq] at isThird
      exact absurd (by rw [same, ← isThird]) (other old)
    · exact distinct.slot_eq old oldThird same
  -- The child is found under its own pid, and nobody else is displaced.
  refine ⟨after, entries_ext fun pid process => ?_⟩
  rw [after.entriesOf_iff, Function.update_apply]
  constructor
  · rintro ⟨second, secondThere, rfl⟩
    rw [put_eq_some] at secondThere
    rcases secondThere with ⟨rfl, isChild⟩ | ⟨notSlot, old⟩
    · rw [Option.some.injEq] at isChild
      rw [if_pos (by rw [isChild]), isChild]
    · rw [if_neg (other old)]
      exact distinct.entriesOf_slot old
  · intro found
    split at found
    · rename_i same
      rw [Option.some.injEq] at found
      exact ⟨slot, by rw [put_self, found], by rw [← found, same]⟩
    · obtain ⟨second, secondThere, rfl⟩ := slot_of_entriesOf found
      refine ⟨second, ?_, rfl⟩
      rw [put_eq_some]
      refine Or.inr ⟨?_, secondThere⟩
      rintro rfl
      rw [vacant] at secondThere
      cases secondThere

/-- Emptying a slot. -/
theorem Distinct.put_none (distinct : Distinct table) {gone : Process}
    (there : table slot = some gone) :
    Distinct (put table slot none) ∧
      entriesOf (put table slot none) = Function.update (entriesOf table) gone.pid none := by
  -- What is left in the table was there before.
  have old : ∀ {second process}, put table slot none second = some process →
      second ≠ slot ∧ table second = some process := by
    intro second process found
    rw [put_eq_some] at found
    exact found.resolve_left fun empty => by cases empty.2
  have after : Distinct (put table slot none) :=
    ⟨fun first second same => distinct.slot_eq (old first).2 (old second).2 same⟩
  refine ⟨after, entries_ext fun pid process => ?_⟩
  rw [after.entriesOf_iff, Function.update_apply]
  constructor
  · rintro ⟨second, found, rfl⟩
    obtain ⟨notSlot, secondThere⟩ := old found
    rw [if_neg fun same => notSlot (distinct.slot_eq secondThere there same)]
    exact distinct.entriesOf_slot secondThere
  · -- An entry found under another pid is not the one that is gone.
    intro found
    split at found
    · cases found
    · rename_i notGone
      obtain ⟨second, secondThere, rfl⟩ := slot_of_entriesOf found
      refine ⟨second, ?_, rfl⟩
      rw [put_eq_some]
      refine Or.inr ⟨?_, secondThere⟩
      rintro rfl
      rw [there, Option.some.injEq] at secondThere
      exact notGone (secondThere ▸ rfl)

/-- Changing every process without changing its pid. -/
theorem Distinct.modifyAll (distinct : Distinct table) {change : Process → Process}
    (pid : ∀ process, (change process).pid = process.pid) :
    Distinct (modifyAll change table) ∧
      entriesOf (SlotTable.modifyAll change table) = fun pid => (entriesOf table pid).map change := by
  -- The change keeps the pids, so slots stay distinct.
  have after : Distinct (SlotTable.modifyAll change table) := by
    refine ⟨fun {first second process other} firstThere secondThere same => ?_⟩
    obtain ⟨before, firstBefore, rfl⟩ := (modifyAll_eq_some table).mp firstThere
    obtain ⟨otherBefore, secondBefore, rfl⟩ := (modifyAll_eq_some table).mp secondThere
    rw [pid, pid] at same
    exact distinct.slot_eq firstBefore secondBefore same
  refine ⟨after, entries_ext fun other process => ?_⟩
  rw [after.entriesOf_iff, Option.map_eq_some_iff]
  -- An entry after the change is the change of the entry before it.
  constructor
  · rintro ⟨slot, there, rfl⟩
    obtain ⟨before, beforeThere, rfl⟩ := (modifyAll_eq_some table).mp there
    rw [pid]
    exact ⟨before, distinct.entriesOf_slot beforeThere, rfl⟩
  · rintro ⟨before, found, rfl⟩
    obtain ⟨slot, there, rfl⟩ := slot_of_entriesOf found
    exact ⟨slot, (modifyAll_eq_some table).mpr ⟨before, there, rfl⟩, pid before⟩

end Entries

end AtOS
