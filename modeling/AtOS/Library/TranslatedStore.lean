import AtOS.Library.ByteMemory

/-! Byte strings stored through an address translation, one byte after the other. -/

namespace TranslatedStore

open ByteMemory

/-- Set the one byte an address is translated to, if it is translated at all. -/
def setByte (mem : Mem) (target : Option Nat) (byte : UInt8) : Mem := fun address =>
  if target = some address then byte else mem address

/-- Store a byte string from a virtual address on. -/
def storeThrough (translate : Nat → Option Nat) (mem : Mem) (start : Nat) : List UInt8 → Mem
  | [] => mem
  | byte :: rest => storeThrough translate (setByte mem (translate start) byte) (start + 1) rest

section Laws

variable {translate : Nat → Option Nat}

/-- Storing nothing leaves the memory as it is. -/
@[simp] theorem storeThrough_nil (mem : Mem) (start : Nat) :
    storeThrough translate mem start [] = mem := rfl

/-- A string is stored one part after the other. -/
theorem storeThrough_append (translate : Nat → Option Nat) (mem : Mem) (start : Nat)
    (data rest : List UInt8) :
    storeThrough translate mem start (data ++ rest) =
      storeThrough translate (storeThrough translate mem start data) (start + data.length) rest := by
  induction data generalizing mem start with
  | nil => simp
  | cons byte data ih =>
    simp only [List.cons_append, storeThrough, ih, List.length_cons]
    rw [show start + 1 + data.length = start + (data.length + 1) by omega]

/-- Addresses no byte of the string is translated to are kept. -/
theorem storeThrough_kept {mem : Mem} {start : Nat} {data : List UInt8} {address : Nat}
    (missed : ∀ offset < data.length, translate (start + offset) ≠ some address) :
    storeThrough translate mem start data address = mem address := by
  induction data generalizing mem start with
  | nil => rfl
  | cons byte data ih =>
    have head : translate start ≠ some address := missed 0 (by simp)
    have tail : ∀ offset < data.length, translate (start + 1 + offset) ≠ some address := by
      intro offset within
      rw [show start + 1 + offset = start + (offset + 1) by omega]
      exact missed (offset + 1) (by simpa using within)
    rw [storeThrough, ih tail, setByte, if_neg head]

/-- Each byte is found where its address is translated to, unless a later byte lands there too. -/
theorem storeThrough_written {mem : Mem} {start : Nat} {data : List UInt8} {offset address : Nat}
    (within : offset < data.length) (lands : translate (start + offset) = some address)
    (last : ∀ later < data.length, offset < later → translate (start + later) ≠ some address) :
    storeThrough translate mem start data address = data[offset] := by
  -- The induction is on the data, and a byte that is stored first is not overwritten.
  induction data generalizing mem start offset with
  | nil => simp at within
  | cons byte data ih =>
    cases offset with
    | zero =>
      -- The first byte is written at once, and the bytes behind it land elsewhere.
      have rest : ∀ later < data.length, translate (start + 1 + later) ≠ some address := by
        intro later bound
        rw [show start + 1 + later = start + (later + 1) by omega]
        exact last (later + 1) (by simpa using bound) (by omega)
      have here : translate start = some address := lands
      rw [storeThrough, storeThrough_kept rest, setByte, if_pos here]
      rfl
    | succ offset =>
      -- The byte is one of those that are still to be stored.
      simp only [List.length_cons] at within last
      refine ih (by omega) ?_ ?_
      · rw [show start + 1 + offset = start + (offset + 1) by omega]
        exact lands
      · intro later bound behind
        rw [show start + 1 + later = start + (later + 1) by omega]
        exact last (later + 1) (by omega) (by omega)

/-- Where the translation is one block, storing through it is an ordinary store. -/
theorem storeThrough_block {mem : Mem} {start base : Nat} {data : List UInt8}
    (linear : ∀ offset < data.length, translate (start + offset) = some (base + offset)) :
    storeThrough translate mem start data = store mem base data := by
  -- An address is in the block, and then only one byte of the data lands there, or it is outside.
  funext address
  by_cases inside : base ≤ address ∧ address < base + data.length
  · obtain ⟨offset, rfl⟩ := Nat.exists_eq_add_of_le inside.1
    have within : offset < data.length := by omega
    rw [store_inside mem base data within]
    refine storeThrough_written within (linear offset within) fun later bound behind => ?_
    rw [linear later bound]
    simp only [ne_eq, Option.some.injEq]
    omega
  · have outside : address ∉ block base data.length := by simpa [block] using inside
    rw [store_outside mem base data outside]
    refine storeThrough_kept fun offset within same => ?_
    rw [linear offset within] at same
    cases same
    omega

end Laws

end TranslatedStore
