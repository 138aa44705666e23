import Mathlib.Algebra.Group.Nat.Defs
import Mathlib.Data.Set.Function
import Mathlib.Data.Set.Insert
import Mathlib.Order.Interval.Set.Defs

/-! A byte-addressed memory with little-endian words, filled ranges and stored byte strings. -/

namespace ByteMemory

/-- A memory gives one byte for every address. -/
abbrev Mem := Nat → UInt8

/-- The addresses of a block of the given length. -/
abbrev block (start length : Nat) : Set Nat := Set.Ico start (start + length)

/-- The little-endian value of the bytes at the start of a block. -/
def readLE (mem : Mem) (start : Nat) : Nat → Nat
  | 0 => 0
  | count + 1 => (mem start).toNat + 256 * readLE mem (start + 1) count

/-- Write a value as little-endian bytes. -/
def writeLE (mem : Mem) (start count value : Nat) : Mem := fun address =>
  if start ≤ address ∧ address < start + count then
    UInt8.ofNat (value / 256 ^ (address - start))
  else mem address

/-- Set every byte of a block to one value. -/
def fill (mem : Mem) (start length : Nat) (byte : UInt8) : Mem := fun address =>
  if start ≤ address ∧ address < start + length then byte else mem address

/-- Store a byte string at consecutive addresses. -/
def store (mem : Mem) (start : Nat) (data : List UInt8) : Mem := fun address =>
  if start ≤ address then data.getD (address - start) (mem address) else mem address

/-- Copy a block to another place; the two blocks are read as not overlapping. -/
def copy (mem : Mem) (source target length : Nat) : Mem := fun address =>
  if target ≤ address ∧ address < target + length then mem (source + (address - target))
  else mem address

/-- Blocks that do not overlap share no address. -/
theorem block_disjoint {start length other extent : Nat}
    (apart : start + length ≤ other ∨ other + extent ≤ start) {address : Nat}
    (inside : address ∈ block start length) : address ∉ block other extent := by
  simp only [block, Set.mem_Ico] at *
  omega

section Read

variable {mem next : Mem}

/-- The digits of a word are its bytes. -/
theorem readLE_digit {start count offset : Nat} (within : offset < count) :
    readLE mem start count / 256 ^ offset % 256 = (mem (start + offset)).toNat := by
  -- The first byte is the lowest digit, and dividing by 256 leaves the word of the others.
  induction count generalizing start offset with
  | zero => exact absurd within (Nat.not_lt_zero _)
  | succ count ih =>
    have head := (mem start).toNat_lt
    cases offset with
    | zero =>
      simp only [readLE, Nat.pow_zero, Nat.div_one, Nat.add_zero]
      omega
    | succ offset =>
      have rest := @ih (start + 1) offset (by omega)
      have shifted : ((mem start).toNat + 256 * readLE mem (start + 1) count) / 256 =
          readLE mem (start + 1) count := by omega
      rw [readLE, Nat.pow_succ', ← Nat.div_div_eq_div_mul, shifted, rest,
        show start + 1 + offset = start + (offset + 1) by omega]

/-- A word depends only on the bytes of its own block. -/
theorem readLE_congr {start count : Nat} (same : Set.EqOn mem next (block start count)) :
    readLE mem start count = readLE next start count := by
  -- The first byte and the remaining block both lie inside the block.
  induction count generalizing start with
  | zero => rfl
  | succ count ih =>
    have head : mem start = next start := same (by simp [block])
    have tail : Set.EqOn mem next (block (start + 1) count) := fun address inside =>
      same (by simp only [block, Set.mem_Ico] at *; omega)
    simp only [readLE, head, ih tail]

/-- Zero bytes read as the number zero. -/
theorem readLE_zero {start count : Nat}
    (zero : ∀ address ∈ block start count, mem address = 0) : readLE mem start count = 0 := by
  -- Every digit of the value is zero.
  induction count generalizing start with
  | zero => rfl
  | succ count ih =>
    have head : mem start = 0 := zero start (by simp [block])
    have tail : readLE mem (start + 1) count = 0 := ih fun address inside =>
      zero address (by simp only [block, Set.mem_Ico] at *; omega)
    simp [readLE, head, tail]

end Read

section Write

variable (mem : Mem) (start count value : Nat)

/-- A write leaves every byte outside its block alone. -/
theorem writeLE_outside {address : Nat} (outside : address ∉ block start count) :
    writeLE mem start count value address = mem address := by
  simp only [block, Set.mem_Ico] at outside
  simp [writeLE, outside]

/-- Reading a written word gives the value, cut to the width of the word. -/
theorem readLE_writeLE :
    readLE (writeLE mem start count value) start count = value % 256 ^ count := by
  -- Each byte holds one digit, and the remaining digits form the quotient by 256.
  have general : ∀ (width : Nat) (origin digits : Nat) (target : Mem),
      (∀ offset, offset < width →
        target (origin + offset) = UInt8.ofNat (digits / 256 ^ offset)) →
      readLE target origin width = digits % 256 ^ width := by
    -- The induction is on the width, and the word of the remaining bytes starts one address later.
    intro width
    induction width with
    | zero => intro origin digits target _; simp [readLE, Nat.mod_one]
    | succ width ih =>
      intro origin digits target holds
      have head : (target origin).toNat = digits % 256 := by
        have first := holds 0 (by omega)
        simp only [Nat.add_zero, Nat.pow_zero, Nat.div_one] at first
        rw [first, UInt8.toNat_ofNat']
      have tail : readLE target (origin + 1) width = digits / 256 % 256 ^ width := by
        -- The digits of the quotient by 256 are those that follow.
        refine ih (origin + 1) (digits / 256) target fun offset within => ?_
        have byte := holds (offset + 1) (by omega)
        rw [show origin + 1 + offset = origin + (offset + 1) by omega, byte,
          Nat.div_div_eq_div_mul, Nat.pow_succ, Nat.mul_comm]
      rw [readLE, head, tail, Nat.pow_succ, Nat.mul_comm (256 ^ width), Nat.mod_mul]
  -- What was written is a memory of this kind.
  refine general count start value _ fun offset within => ?_
  simp [writeLE, within]

/-- A word outside the written block keeps its value. -/
theorem readLE_writeLE_apart {other width : Nat}
    (apart : start + count ≤ other ∨ other + width ≤ start) :
    readLE (writeLE mem start count value) other width = readLE mem other width := by
  -- No byte of the other word belongs to the written block.
  refine readLE_congr fun address inside => writeLE_outside mem start count value ?_
  exact block_disjoint (Or.symm apart) inside

end Write

section Fill

variable (mem : Mem) (start length : Nat) (byte : UInt8)

/-- A filled block holds the chosen byte. -/
theorem fill_inside {address : Nat} (inside : address ∈ block start length) :
    fill mem start length byte address = byte := by
  simp only [block, Set.mem_Ico] at inside
  simp [fill, inside]

/-- Filling a block leaves every byte outside it alone. -/
theorem fill_outside {address : Nat} (outside : address ∉ block start length) :
    fill mem start length byte address = mem address := by
  simp only [block, Set.mem_Ico] at outside
  simp [fill, outside]

end Fill

section Store

variable (mem : Mem) (start : Nat) (data : List UInt8)

/-- A stored string is found at consecutive addresses. -/
theorem store_inside {offset : Nat} (within : offset < data.length) :
    store mem start data (start + offset) = data[offset] := by
  simp [store, within]

/-- Storing a string leaves every byte outside its block alone. -/
theorem store_outside {address : Nat} (outside : address ∉ block start data.length) :
    store mem start data address = mem address := by
  -- Past the end of the string the lookup falls back on the old byte.
  simp only [block, Set.mem_Ico] at outside
  unfold store
  split
  · rw [List.getD_eq_getElem?_getD, List.getElem?_eq_none (by omega), Option.getD_none]
  · rfl

end Store

section Copy

variable (mem : Mem) (source target length : Nat)

/-- A copied block repeats the bytes of its source. -/
theorem copy_inside {offset : Nat} (within : offset < length) :
    copy mem source target length (target + offset) = mem (source + offset) := by
  simp [copy, within]

/-- Copying leaves every byte outside the target block alone. -/
theorem copy_outside {address : Nat} (outside : address ∉ block target length) :
    copy mem source target length address = mem address := by
  simp only [block, Set.mem_Ico] at outside
  simp [copy, outside]

end Copy

end ByteMemory
