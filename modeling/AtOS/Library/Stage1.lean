import Mathlib.Algebra.Group.Nat.Defs

/-!
Stage 1 address translation of ARMv8-A for EL0 and EL1, with tables of 512 descriptors.

The granule is 4 KB, and the first table of a range is a full one. There is neither hardware
management of the access flag, nor `WXN`, nor `PAN`.
-/

namespace Stage1

/-- The exception level that an access is made from. -/
inductive Privilege where
  | el0
  | el1
  deriving DecidableEq

inductive Access where
  | read
  | write
  | fetch
  deriving DecidableEq

/-- Why an access is not translated, with the level of the table where this is found. -/
inductive Fault where
  | translation (level : Nat)
  | addressSize (level : Nat)
  | accessFlag (level : Nat)
  | permission (level : Nat)
  deriving DecidableEq

/-- What the table descriptors on the way take from everything below them. -/
structure Limits where
  noEl0 : Bool
  readOnly : Bool
  noFetchEl0 : Bool
  noFetchEl1 : Bool
  deriving DecidableEq

/-- Nothing is taken away. -/
def Limits.none : Limits := ⟨false, false, false, false⟩

/-- `APTable`, `UXNTable` and `PXNTable` of one more table descriptor. -/
def Limits.below (limits : Limits) (descriptor : Nat) : Limits where
  noEl0 := limits.noEl0 || descriptor.testBit 61
  readOnly := limits.readOnly || descriptor.testBit 62
  noFetchEl0 := limits.noFetchEl0 || descriptor.testBit 60
  noFetchEl1 := limits.noFetchEl1 || descriptor.testBit 59

/-- Where a walk ends: the descriptor of a page or of a block, and the address it gives. -/
structure Leaf where
  level : Nat
  descriptor : Nat
  limits : Limits
  address : Nat
  deriving DecidableEq

/-- The address bits of a descriptor from the given position up. -/
def outputAddress (descriptor low : Nat) : Nat := descriptor % 2 ^ 48 / 2 ^ low * 2 ^ low

/-- The kinds of descriptors, in a table with so many levels below it. -/
inductive Kind where
  | invalid
  | table
  | leaf
  deriving DecidableEq

/-- Bit 0 makes a descriptor valid, and bit 1 tells a table or a page from a block. -/
def kind (below descriptor : Nat) : Kind :=
  if ¬ descriptor.testBit 0 then .invalid
  else if descriptor.testBit 1 then
    if below = 0 then .leaf else .table
  else if below = 1 ∨ below = 2 then .leaf else .invalid

/--
The walk from a table, with so many levels left; the tables are read through the first argument.

The second argument is the number of bits of a physical address.
-/
def walk (readWord : Nat → Nat) (addressBits va : Nat) :
    Nat → Nat → Limits → Except Fault Leaf
  | 0, _, _ => .error (.translation 0)
  | below + 1, table, limits =>
    let level := 3 - below
    let shift := 12 + 9 * below
    let descriptor := readWord (table + 8 * (va / 2 ^ shift % 512))
    match kind below descriptor with
    | .invalid => .error (.translation level)
    | .table =>
      let next := outputAddress descriptor 12
      if 2 ^ addressBits ≤ next then .error (.addressSize level)
      else walk readWord addressBits va below next (limits.below descriptor)
    | .leaf =>
      let frame := outputAddress descriptor shift
      if 2 ^ addressBits ≤ frame then .error (.addressSize level)
      -- The access flag is bit 10.
      else if ¬ descriptor.testBit 10 then .error (.accessFlag level)
      else .ok ⟨level, descriptor, limits, frame + va % 2 ^ shift⟩

/-- EL0 may access the data: bit 6 of the descriptor. -/
def Leaf.openToEl0 (leaf : Leaf) : Bool := leaf.descriptor.testBit 6 && !leaf.limits.noEl0

/-- Nobody may write: bit 7 of the descriptor. -/
def Leaf.readOnly (leaf : Leaf) : Bool := leaf.descriptor.testBit 7 || leaf.limits.readOnly

/-- `UXN`, bit 54. -/
def Leaf.noFetchEl0 (leaf : Leaf) : Bool := leaf.descriptor.testBit 54 || leaf.limits.noFetchEl0

/-- `PXN`, bit 53. -/
def Leaf.noFetchEl1 (leaf : Leaf) : Bool := leaf.descriptor.testBit 53 || leaf.limits.noFetchEl1

/-- Whether an access is permitted; what EL0 may write is never executed at EL1. -/
def Leaf.permits (leaf : Leaf) : Privilege → Access → Bool
  | .el0, .read => leaf.openToEl0
  | .el0, .write => leaf.openToEl0 && !leaf.readOnly
  | .el0, .fetch => !leaf.noFetchEl0
  | .el1, .read => true
  | .el1, .write => !leaf.readOnly
  | .el1, .fetch => !leaf.noFetchEl1 && !(leaf.openToEl0 && !leaf.readOnly)

/-- The index of a leaf into `MAIR_EL1`, and the attributes it finds there. -/
def Leaf.memoryAttributes (leaf : Leaf) (mair : Nat) : Nat :=
  mair / 2 ^ (8 * (leaf.descriptor / 4 % 8)) % 256

/-- A leaf that leads to an address, with these attribute bits, below tables that limit nothing. -/
structure Leaf.Maps (leaf : Leaf) (pa flags : Nat) : Prop where
  address : leaf.address = pa
  limits : leaf.limits = .none
  /-- The attributes are the bits on both sides of the address. -/
  attributes : ∀ position < 64, position < 12 ∨ 48 ≤ position →
    leaf.descriptor.testBit position = flags.testBit position

/-- What `TCR_EL1` says: the levels of the two ranges, and the number of physical address bits. -/
structure Regime where
  levels0 : Nat
  levels1 : Nat
  addressBits : Nat
  deriving DecidableEq

/-- The number of address bits of a range with so many levels. -/
def rangeBits (levels : Nat) : Nat := 12 + 9 * levels

/-- The number of physical address bits that `IPS` stands for. -/
def ipsBits : Nat → Nat
  | 0 => 32
  | 1 => 36
  | 2 => 40
  | 3 => 42
  | 4 => 44
  | _ => 48

/--
Read `TCR_EL1`: `T0SZ` and `T1SZ`, `EPD0` and `EPD1`, `TG0` and `TG1`, `IPS`, `TBI0` and `TBI1`.

Only two enabled ranges with the 4 KB granule, full first tables and no ignored top byte are read.
-/
def Regime.ofTcr (tcr : Nat) : Option Regime :=
  let size0 := 64 - tcr % 64
  let size1 := 64 - tcr / 2 ^ 16 % 64
  if tcr.testBit 7 ∨ tcr.testBit 23 ∨ tcr.testBit 37 ∨ tcr.testBit 38 then none
  else if tcr / 2 ^ 14 % 4 ≠ 0 ∨ tcr / 2 ^ 30 % 4 ≠ 2 then none
  else if (size0 - 12) % 9 ≠ 0 ∨ (size1 - 12) % 9 ≠ 0 then none
  else some ⟨(size0 - 12) / 9, (size1 - 12) / 9, ipsBits (tcr / 2 ^ 32 % 8)⟩

/-- The walk for a 64-bit address, in the range that it belongs to. -/
def Regime.lookup (regime : Regime) (readWord : Nat → Nat) (ttbr0 ttbr1 va : Nat) :
    Except Fault Leaf :=
  if va < 2 ^ rangeBits regime.levels0 then
    walk readWord regime.addressBits va regime.levels0 (outputAddress ttbr0 12) .none
  else if 2 ^ 64 - 2 ^ rangeBits regime.levels1 ≤ va then
    walk readWord regime.addressBits va regime.levels1 (outputAddress ttbr1 12) .none
  else .error (.translation 0)

/-- The translation of an access. -/
def Regime.translate (regime : Regime) (readWord : Nat → Nat) (ttbr0 ttbr1 va : Nat)
    (privilege : Privilege) (access : Access) : Except Fault Leaf :=
  match regime.lookup readWord ttbr0 ttbr1 va with
  | .error fault => .error fault
  | .ok leaf =>
    if leaf.permits privilege access then .ok leaf else .error (.permission leaf.level)

section Walk

variable {readWord : Nat → Nat} {addressBits va below table : Nat} {limits : Limits}

/-- An invalid descriptor ends a walk, -/
theorem walk_invalid
    (invalid : kind below (readWord (table + 8 * (va / 2 ^ (12 + 9 * below) % 512))) = .invalid) :
    walk readWord addressBits va (below + 1) table limits = .error (.translation (3 - below)) := by
  simp only [walk, invalid]

/-- a table is walked on from, -/
theorem walk_table {descriptor : Nat}
    (found : readWord (table + 8 * (va / 2 ^ (12 + 9 * below) % 512)) = descriptor)
    (isTable : kind below descriptor = .table)
    (inside : outputAddress descriptor 12 < 2 ^ addressBits) :
    walk readWord addressBits va (below + 1) table limits =
      walk readWord addressBits va below (outputAddress descriptor 12) (limits.below descriptor) := by
  simp only [walk, found, isTable, Nat.not_le.mpr inside, if_false]

/-- and a page or a block gives the address. -/
theorem walk_leaf {descriptor : Nat}
    (found : readWord (table + 8 * (va / 2 ^ (12 + 9 * below) % 512)) = descriptor)
    (isLeaf : kind below descriptor = .leaf)
    (inside : outputAddress descriptor (12 + 9 * below) < 2 ^ addressBits) :
    walk readWord addressBits va (below + 1) table limits =
      if descriptor.testBit 10 then
        .ok ⟨3 - below, descriptor, limits,
          outputAddress descriptor (12 + 9 * below) + va % 2 ^ (12 + 9 * below)⟩
      else .error (.accessFlag (3 - below)) := by
  simp only [walk, found, isLeaf, Nat.not_le.mpr inside, if_false]
  by_cases accessed : descriptor.testBit 10 = true
  · simp [accessed]
  · simp [accessed]

end Walk

section Attributes

variable {leaf : Leaf} {pa flags : Nat}

/-- The address bits are those from the given position up to bit 48. -/
theorem testBit_outputAddress (descriptor low position : Nat) :
    (outputAddress descriptor low).testBit position =
      (decide (low ≤ position) && (decide (position < 48) && descriptor.testBit position)) := by
  rw [outputAddress, Nat.testBit_mul_two_pow, Nat.testBit_div_two_pow, Nat.testBit_mod_two_pow]
  by_cases above : low ≤ position
  · simp [above]
  · simp [above]

/-- What a leaf permits is a matter of its attribute bits. -/
theorem Leaf.Maps.permits (maps : leaf.Maps pa flags) (privilege : Privilege) (access : Access) :
    leaf.permits privilege access = Leaf.permits ⟨3, flags, .none, 0⟩ privilege access := by
  -- The bits that are looked at are the sixth and the seventh, and those for fetches.
  have open6 := maps.attributes 6 (by decide) (by decide)
  have open7 := maps.attributes 7 (by decide) (by decide)
  have fetch53 := maps.attributes 53 (by decide) (by decide)
  have fetch54 := maps.attributes 54 (by decide) (by decide)
  cases privilege <;> cases access <;>
    simp [Leaf.permits, Leaf.openToEl0, Leaf.readOnly, Leaf.noFetchEl0, Leaf.noFetchEl1,
      maps.limits, open6, open7, fetch53, fetch54]

/-- So is the kind of its memory. -/
theorem Leaf.Maps.memoryAttributes (maps : leaf.Maps pa flags) (mair : Nat) :
    leaf.memoryAttributes mair = Leaf.memoryAttributes ⟨3, flags, .none, 0⟩ mair := by
  have low : leaf.descriptor % 2 ^ 12 = flags % 2 ^ 12 := by
    apply Nat.eq_of_testBit_eq
    intro position
    rw [Nat.testBit_mod_two_pow, Nat.testBit_mod_two_pow]
    by_cases inside : position < 12
    · rw [maps.attributes position (by omega) (Or.inl inside)]
    · simp [inside]
  have index : leaf.descriptor / 4 % 8 = flags / 4 % 8 := by omega
  simp only [Leaf.memoryAttributes, index]

end Attributes

end Stage1
