import Mathlib.Data.Fin.Basic
import Mathlib.Logic.Function.Basic
import Mathlib.Data.List.FinRange

/-! Tables of a fixed number of slots, each of which is empty or has an entry. -/

namespace SlotTable

variable {Entry : Type*} {size : Nat}

/-- What each slot holds. -/
abbrev Table (size : Nat) (Entry : Type*) := Fin size → Option Entry

/-- The first slot with an entry that passes a test. -/
def find (table : Table size Entry) (test : Entry → Bool) : Option (Fin size) :=
  (List.finRange size).find? fun slot => (table slot).any test

/-- The first empty slot. -/
def firstFree (table : Table size Entry) : Option (Fin size) :=
  (List.finRange size).find? fun slot => (table slot).isNone

/-- Put an entry into a slot, or empty it. -/
def put (table : Table size Entry) (slot : Fin size) (value : Option Entry) : Table size Entry :=
  Function.update table slot value

/-- Change every entry in the same way. -/
def modifyAll (change : Entry → Entry) (table : Table size Entry) : Table size Entry :=
  fun slot => (table slot).map change

section Find

variable {table : Table size Entry} {test : Entry → Bool} {slot : Fin size}

/-- The slot that was found has an entry that passes the test. -/
theorem find_some (found : find table test = some slot) :
    ∃ entry, table slot = some entry ∧ test entry = true := by
  have passed := List.find?_some found
  cases here : table slot with
  | none => simp [here] at passed
  | some entry => exact ⟨entry, rfl, by simpa [here] using passed⟩

/-- Nothing is found exactly when no entry passes the test. -/
theorem find_none : find table test = none ↔
    ∀ slot entry, table slot = some entry → test entry = false := by
  rw [find, List.find?_eq_none]
  constructor
  · intro missing slot entry here
    have failed := missing slot (List.mem_finRange slot)
    simpa [here] using failed
  · intro missing slot _
    cases here : table slot with
    | none => simp
    | some entry => simp [missing slot entry here]

/-- An entry that passes the test is found, at this or an earlier slot. -/
theorem find_isSome {entry : Entry} (here : table slot = some entry) (passes : test entry = true) :
    ∃ first, find table test = some first := by
  cases result : find table test with
  | some first => exact ⟨first, rfl⟩
  | none =>
    have failed := find_none.mp result slot entry here
    rw [passes] at failed
    cases failed

/-- When no other entry passes the test, this one is found. -/
theorem find_unique {entry : Entry} (here : table slot = some entry) (passes : test entry = true)
    (only : ∀ other second, table other = some second → test second = true → other = slot) :
    find table test = some slot := by
  obtain ⟨first, found⟩ := find_isSome here passes
  obtain ⟨second, there, passed⟩ := find_some found
  rw [found, only first second there passed]

/-- The first free slot is free. -/
theorem firstFree_some (found : firstFree table = some slot) : table slot = none := by
  have free := List.find?_some found
  simpa using free

/-- There is no free slot if every slot has an entry. -/
theorem firstFree_none : firstFree table = none ↔ ∀ slot, (table slot).isSome := by
  rw [firstFree, List.find?_eq_none]
  constructor
  · intro full slot
    have taken := full slot (List.mem_finRange slot)
    simpa [Option.isSome_iff_ne_none] using taken
  · intro full slot _
    have taken := full slot
    simpa [Option.isSome_iff_ne_none] using taken

end Find

section Put

variable (table : Table size Entry) (slot : Fin size) (value : Option Entry)

/-- A slot that has been written holds what was written. -/
@[simp] theorem put_self : put table slot value slot = value := Function.update_self ..

/-- Writing a slot leaves the other slots alone. -/
theorem put_of_ne {other : Fin size} (distinct : other ≠ slot) :
    put table slot value other = table other := Function.update_of_ne distinct ..

/-- An entry of the changed table is the new one, or is at another slot. -/
theorem put_eq_some {other : Fin size} {entry : Entry} :
    put table slot value other = some entry ↔
      (other = slot ∧ value = some entry) ∨ (other ≠ slot ∧ table other = some entry) := by
  by_cases same : other = slot
  · subst same
    simp
  · simp [same, put_of_ne]

/-- An entry of the changed table is a changed entry. -/
theorem modifyAll_eq_some {change : Entry → Entry} {other : Fin size} {entry : Entry} :
    modifyAll change table other = some entry ↔
      ∃ before, table other = some before ∧ change before = entry := by
  simp [modifyAll]

/-- Of two entries put into the same slot the later one stays. -/
@[simp] theorem put_put (later : Option Entry) :
    put (put table slot value) slot later = put table slot later := Function.update_idem ..

/-- A new entry is changed with the others. -/
theorem modifyAll_put (change : Entry → Entry) :
    modifyAll change (put table slot value) =
      put (modifyAll change table) slot (value.map change) := by
  funext other
  by_cases same : other = slot
  · subst same
    simp [modifyAll]
  · simp only [modifyAll, put_of_ne _ _ _ same]

end Put

end SlotTable
