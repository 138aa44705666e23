import AtOS.Library.Stage1
import AtOS.Paging.PoolMoves

/-! The tables as the MMU reads them: what `TCR_EL1_VALUE` sets up, and what the walks find. -/

namespace AtOS

open ByteMemory RadixForest
open Stage1 hiding walk

/-- `TCR_EL1_VALUE`. -/
def tcrEl1Value : Nat :=
  let t0sz := 25
  let epd0 := 0 <<< 7
  let irgn0Wbwa := 0b01 <<< 8
  let orgn0Wbwa := 0b01 <<< 10
  let sh0Inner := 0b11 <<< 12
  let tg04k := 0b00 <<< 14
  let t1sz := 25 <<< 16
  let a1 := 0 <<< 22
  let epd1 := 0 <<< 23
  let irgn1Wbwa := 0b01 <<< 24
  let orgn1Wbwa := 0b01 <<< 26
  let sh1Inner := 0b11 <<< 28
  let tg14k := 0b10 <<< 30
  let ips36bit := 0b001 <<< 32
  t0sz ||| epd0 ||| irgn0Wbwa ||| orgn0Wbwa ||| sh0Inner ||| tg04k ||| t1sz ||| a1 ||| epd1 |||
    irgn1Wbwa ||| orgn1Wbwa ||| sh1Inner ||| tg14k ||| ips36bit

/-- `MAIR_EL1_VALUE`. -/
def mairEl1Value : Nat :=
  let mairAttrDevice := 0x00
  let mairAttrNormal := 0xFF
  mairAttrDevice <<< 0 ||| mairAttrNormal <<< 8

/-- Two ranges of 39 bits, with three levels each, and physical addresses of 36 bits. -/
def regime : Regime := ⟨3, 3, 36⟩

/-- That is what the value of `TCR_EL1` says. -/
theorem regime_tcr : Regime.ofTcr tcrEl1Value = some regime := by decide

/-- `ATTR_DEVICE`. -/
def attrDevice : Nat := 0 <<< 2

/-- `ATTR_NORMAL`. -/
def attrNormal : Nat := 1 <<< 2

/-- `kernel_l2_block_descriptor`. -/
def kernelL2BlockDescriptor (pa attr : Nat) : Nat :=
  let valid := 1 <<< 0
  let block := 0
  let apEl1Rw := 0b00 <<< 6
  let shInner := 0b11 <<< 8
  let shNon := 0b00 <<< 8
  let af := 1 <<< 10
  let pxnBit := 1 <<< 53
  let uxn := 1 <<< 54
  let sh := if attr = attrDevice then shNon else shInner
  let pxn := if attr = attrDevice then pxnBit else 0
  -- The mask is `!((1u64 << 21) - 1)` on 64 bits.
  (pa &&& 0xFFFFFFFFFFE00000) ||| valid ||| block ||| attr ||| apEl1Rw ||| sh ||| af ||| pxn ||| uxn

/-- The attribute that `kernel_l2_0` and `kernel_l2_1` choose for a block. -/
def blockAttr (pa : Nat) : Nat := if pa ≥ 0x3F000000 then attrDevice else attrNormal

/-- `kernel_l2_0`, the entries of `PAGE_TABLE_KERNEL_L2_0`. -/
def kernelL2_0 (index : EntryIndex) : Nat :=
  let pa := index.val <<< 21
  kernelL2BlockDescriptor pa (blockAttr pa)

/-- `kernel_l2_1`, the entries of `PAGE_TABLE_KERNEL_L2_1`. -/
def kernelL2_1 (index : EntryIndex) : Nat :=
  let pa := (index.val + 512) <<< 21
  kernelL2BlockDescriptor pa (blockAttr pa)

/-- What the MMU reads at a physical address. -/
def readWord (mem : Mem) (address : Nat) : Nat := readLE mem address 8

/-- An access as the MMU translates it, with the tables in the two registers. -/
def translate (mem : Mem) (ttbr0 ttbr1 va : Nat) (privilege : Privilege) (access : Access) :
    Except Fault Stage1.Leaf :=
  regime.translate (readWord mem) ttbr0 ttbr1 va privilege access

/-- An address leads to a physical one, of memory with these attributes, where that is allowed. -/
def Translates (mem : Mem) (ttbr0 ttbr1 va pa attributes : Nat)
    (allowed : Privilege → Access → Prop) : Prop :=
  ∃ leaf : Stage1.Leaf, leaf.address = pa ∧ leaf.memoryAttributes mairEl1Value = attributes ∧
    ∀ privilege access,
      (allowed privilege access → translate mem ttbr0 ttbr1 va privilege access = .ok leaf) ∧
      (¬ allowed privilege access →
        translate mem ttbr0 ttbr1 va privilege access = .error (.permission leaf.level))

/-- An address leads nowhere, whoever uses it for what. -/
def Faults (mem : Mem) (ttbr0 ttbr1 va : Nat) : Prop :=
  ∃ fault, ∀ privilege access, translate mem ttbr0 ttbr1 va privilege access = .error fault

section Descriptors

variable {mem : Mem} {va below table depth value : Nat}

/-- The MMU reads the entry that the indices of the address select. -/
theorem readWord_entry (mem : Mem) (table va below : Nat) :
    readWord mem (table + 8 * (va / 2 ^ (12 + 9 * below) % 512)) =
      entry mem table (tableIndex va (12 + 9 * below)) := by
  rw [entry, tableIndex_val, readWord]

/-- The address bits of a descriptor are those that the allocator takes out of an entry. -/
theorem outputAddress_eq (value : Nat) : outputAddress value 12 = value &&& addressMask := by
  apply Nat.eq_of_testBit_eq
  intro position
  have mask := BitMasks.testBit_range (show 12 ≤ 48 by decide) position
  rw [show (2 : Nat) ^ 48 - 2 ^ 12 = addressMask by decide] at mask
  rw [testBit_outputAddress, Nat.testBit_and, mask]
  by_cases above : 12 ≤ position
  · simp [above, Bool.and_comm]
  · simp [above]

/-- An attribute bit is the same in the isolated attributes. -/
theorem testBit_flags (value : Nat) {position : Nat} (isFlag : flagsMask.testBit position = true) :
    value.testBit position = (value &&& flagsMask).testBit position := by
  rw [Nat.testBit_and, isFlag, Bool.and_true]

/-- The attributes are the bits on both sides of the address. -/
theorem flagsMask_testBit : ∀ position < 64, position < 12 ∨ 48 ≤ position →
    flagsMask.testBit position = true := by decide

/-- A valid entry has its two low bits set. -/
theorem IsValid.bits (valid : IsValid value) : value.testBit 0 = true ∧ value.testBit 1 = true := by
  have masked : value &&& 0b11 = 0b11 := valid
  have bit : ∀ position, Nat.testBit 0b11 position = true → value.testBit position = true := by
    intro position set
    rw [← masked, Nat.testBit_and, Bool.and_eq_true] at set
    exact set.1
  exact ⟨bit 0 (by decide), bit 1 (by decide)⟩

/-- The MMU takes a valid entry for a table, or for a page in a last table. -/
theorem kind_valid (below : Nat) (valid : IsValid value) :
    kind below value = if below = 0 then .leaf else .table := by
  obtain ⟨low, high⟩ := valid.bits
  simp [kind, low, high]

/-- The table above a valid entry takes nothing from what is below. -/
theorem limits_below (formed : EntryFormed depth value) (valid : IsValid value)
    (upper : depth ≠ 2) : Limits.none.below value = .none := by
  -- The allocator sets nothing but the two low bits there.
  have flags : value &&& flagsMask = 0b11 := by
    rw [formed.flags_eq valid, entryFlags, if_neg upper]
  simp only [Limits.below, Limits.none, Bool.false_or]
  rw [testBit_flags value (show flagsMask.testBit 61 = true by decide),
    testBit_flags value (show flagsMask.testBit 62 = true by decide),
    testBit_flags value (show flagsMask.testBit 60 = true by decide),
    testBit_flags value (show flagsMask.testBit 59 = true by decide), flags]
  decide

/-- From a valid entry of an upper table, the MMU walks on from its frame. -/
theorem walk_child (depth below : Nat) {next : Nat} (level : depth + (below + 1) = 2)
    (formed : EntryFormed depth (entry mem table (tableIndex va (12 + 9 * (below + 1)))))
    (found : child mem table (tableIndex va (12 + 9 * (below + 1))) = some next)
    (small : next < 2 ^ 36) :
    Stage1.walk (readWord mem) 36 va (below + 2) table .none =
      Stage1.walk (readWord mem) 36 va (below + 1) next .none := by
  obtain ⟨valid, address⟩ := child_eq_some found
  have isTable := kind_valid (below + 1) valid
  rw [if_neg (by omega)] at isTable
  have output := (outputAddress_eq (entry mem table (tableIndex va (12 + 9 * (below + 1))))).trans
    address
  rw [walk_table (readWord_entry mem table va (below + 1)) isTable (output ▸ small), output,
    limits_below formed valid (by omega)]

/-- An entry that is not valid stops the MMU. -/
theorem walk_vacant (depth below : Nat) (level : depth + below = 2)
    (formed : EntryFormed depth (entry mem table (tableIndex va (12 + 9 * below))))
    (vacant : child mem table (tableIndex va (12 + 9 * below)) = none) :
    ∃ fault, Stage1.walk (readWord mem) 36 va (below + 1) table .none = .error fault := by
  have read := readWord_entry mem table va below
  have invalid := child_eq_none.mp vacant
  -- An entry that leads nowhere is vacant, or is the tag word of a link.
  generalize entry mem table (tableIndex va (12 + 9 * below)) = value at formed read invalid
  cases formed with
  | pointer valid _ => exact absurd valid invalid
  | vacant clear =>
    have isInvalid : kind below (readWord mem (table + 8 * (va / 2 ^ (12 + 9 * below) % 512))) =
        .invalid := by
      rw [read]
      simp [kind, clear]
    exact ⟨_, walk_invalid isInvalid⟩
  | leftover first tag =>
    -- The tag word of a link is a block of 1 GB whose access flag is clear.
    obtain rfl : below = 2 := by omega
    subst tag
    refine ⟨.accessFlag 1, (walk_leaf read (by decide) (by decide)).trans ?_⟩
    rw [if_neg (by decide)]

/-- A valid entry of a last table gives the frame of the page. -/
theorem walk_page {leaf : Nat} (found : child mem table (tableIndex va 12) = some leaf)
    (formed : EntryFormed 2 (entry mem table (tableIndex va 12))) (small : leaf < 2 ^ 36) :
    ∃ page, Stage1.walk (readWord mem) 36 va 1 table .none = .ok page ∧
      page.Maps (leaf + va % 4096) leafFlags := by
  obtain ⟨valid, address⟩ := child_eq_some found
  have flags : entry mem table (tableIndex va 12) &&& flagsMask = leafFlags := formed.flags_eq valid
  have output := (outputAddress_eq (entry mem table (tableIndex va 12))).trans address
  -- A valid entry of the last level is a page.
  have isLeaf : kind 0 (entry mem table (tableIndex va 12)) = .leaf := kind_valid 0 valid
  have accessed : (entry mem table (tableIndex va 12)).testBit 10 = true := by
    rw [testBit_flags _ (show flagsMask.testBit 10 = true by decide), flags]
    decide
  subst output
  refine ⟨_, (walk_leaf (readWord_entry mem table va 0) isLeaf small).trans (if_pos accessed), rfl,
    rfl, fun position small outside => ?_⟩
  -- The bits on both sides of the address are the attributes that `alloc_page` sets.
  have isFlag := flagsMask_testBit position small outside
  change (entry mem table (tableIndex va 12)).testBit position = leafFlags.testBit position
  rw [testBit_flags _ isFlag, flags]

end Descriptors

section Lookups

variable {mem : Mem} {ttbr0 ttbr1 va : Nat}

/-- The address of a frame is what the MMU takes out of a register that holds it. -/
theorem outputAddress_frame {pa : Nat} (isFrame : IsFrame pa) : outputAddress pa 12 = pa := by
  rw [outputAddress_eq]
  have address := pointer_address isFrame (show 0 &&& addressMask = 0 by decide)
  rwa [Nat.or_zero] at address

/-- Addresses of the lower half are looked up in `TTBR0_EL1`, -/
theorem lookup_low (isFrame : IsFrame ttbr0) (low : va < 2 ^ 39) :
    regime.lookup (readWord mem) ttbr0 ttbr1 va = Stage1.walk (readWord mem) 36 va 3 ttbr0 .none := by
  rw [Regime.lookup, outputAddress_frame isFrame]
  exact if_pos low

/-- those of the upper half in `TTBR1_EL1`, -/
theorem lookup_high (isFrame : IsFrame ttbr1) (high : 0xFFFFFF8000000000 ≤ va) :
    regime.lookup (readWord mem) ttbr0 ttbr1 va = Stage1.walk (readWord mem) 36 va 3 ttbr1 .none := by
  rw [Regime.lookup, outputAddress_frame isFrame]
  have notLow : ¬ va < 2 ^ rangeBits regime.levels0 := by
    simp only [rangeBits, regime]
    omega
  rw [if_neg notLow]
  exact if_pos high

/-- and those between the halves nowhere. -/
theorem faults_between (above : 2 ^ 39 ≤ va) (below : va < 0xFFFFFF8000000000) :
    Faults mem ttbr0 ttbr1 va := by
  refine ⟨.translation 0, fun privilege access => ?_⟩
  have notLow : ¬ va < 2 ^ rangeBits regime.levels0 := Nat.not_lt.mpr above
  have notHigh : ¬ 2 ^ 64 - 2 ^ rangeBits regime.levels1 ≤ va := Nat.not_le.mpr below
  simp only [translate, Regime.translate, Regime.lookup, if_neg notLow, if_neg notHigh]

/-- Where a walk stops, nobody gets anywhere. -/
theorem faults_of_lookup {fault : Fault}
    (stopped : regime.lookup (readWord mem) ttbr0 ttbr1 va = .error fault) :
    Faults mem ttbr0 ttbr1 va := by
  refine ⟨fault, fun privilege access => ?_⟩
  simp only [translate, Regime.translate, stopped]

/-- Where a walk ends at a leaf, its attributes decide. -/
theorem translates_of_lookup {leaf : Stage1.Leaf} {attributes : Nat}
    {allowed : Privilege → Access → Prop}
    (walked : regime.lookup (readWord mem) ttbr0 ttbr1 va = .ok leaf)
    (memory : leaf.memoryAttributes mairEl1Value = attributes)
    (permits : ∀ privilege access,
      leaf.permits privilege access = true ↔ allowed privilege access) :
    Translates mem ttbr0 ttbr1 va leaf.address attributes allowed := by
  refine ⟨leaf, rfl, memory, fun privilege access => ?_⟩
  simp only [translate, Regime.translate, walked]
  constructor
  · intro allow
    rw [if_pos ((permits privilege access).mpr allow)]
  · intro deny
    rw [if_neg fun permitted => deny ((permits privilege access).mp permitted)]

/-- Who gets somewhere was allowed to, and gets to that address. -/
theorem Translates.reached {pa attributes : Nat} {allowed : Privilege → Access → Prop}
    (translates : Translates mem ttbr0 ttbr1 va pa attributes allowed) {privilege : Privilege}
    {access : Access} {leaf : Stage1.Leaf}
    (done : translate mem ttbr0 ttbr1 va privilege access = .ok leaf) :
    allowed privilege access ∧ leaf.address = pa := by
  obtain ⟨found, address, -, decides⟩ := translates
  by_cases allow : allowed privilege access
  · rw [(decides privilege access).1 allow, Except.ok.injEq] at done
    exact ⟨allow, done ▸ address⟩
  · rw [(decides privilege access).2 allow] at done
    cases done

/-- Nobody gets anywhere where there is nothing. -/
theorem Faults.reached (faults : Faults mem ttbr0 ttbr1 va) {privilege : Privilege}
    {access : Access} {leaf : Stage1.Leaf} :
    translate mem ttbr0 ttbr1 va privilege access ≠ .ok leaf := by
  obtain ⟨fault, stops⟩ := faults
  intro done
  rw [stops privilege access] at done
  cases done

end Lookups

/-- A page that `alloc_page` maps may be read and written by both levels, and executed by EL0. -/
def PageAllows (privilege : Privilege) (access : Access) : Prop :=
  ¬ (privilege = .el1 ∧ access = .fetch)

section Pages

variable {leaf : Stage1.Leaf} {pa : Nat}

/-- A page may be accessed as its flags say, by the kernel and by programs. -/
theorem page_permits (page : leaf.Maps pa leafFlags) (privilege : Privilege) (access : Access) :
    leaf.permits privilege access = true ↔ PageAllows privilege access := by
  rw [page.permits, PageAllows]
  cases privilege <;> cases access <;> decide

/-- Its memory is normal, and not that of a device. -/
theorem page_normal (page : leaf.Maps pa leafFlags) :
    leaf.memoryAttributes mairEl1Value = 0xFF := by
  rw [page.memoryAttributes]
  decide

end Pages

section Programs

variable {may : Nat → EntryIndex → Prop} {alloc : PageAllocator} {roots : Set Nat}
  {free : List Nat} {managed : Set Nat} {root va : Nat}

/-- The first two tables on the way to a page, as the MMU passes them. -/
theorem Owned.walk_tables (owned : Owned alloc roots free managed)
    (formed : Formed may roots alloc.mem) (live : root ∈ roots) (allowed : may root (l1Index va))
    (small : ∀ pa ∈ managed, pa < 2 ^ 36) :
    match walk (child alloc.mem) root [l1Index va, l2Index va] with
    | some table => Stage1.walk (readWord alloc.mem) 36 va 3 root .none =
        Stage1.walk (readWord alloc.mem) 36 va 1 table .none
    | none => ∃ fault, Stage1.walk (readWord alloc.mem) 36 va 3 root .none = .error fault := by
  -- An entry of the first table leads on or stops the walk,
  have first := formed root live [] (by simp) root rfl (l1Index va) allowed
  cases upper : child alloc.mem root (l1Index va) with
  | none =>
    simp only [walk_cons, upper, Option.bind_none]
    exact walk_vacant 0 2 rfl first upper
  | some l2 =>
    have reached : walk (child alloc.mem) root [l1Index va] = some l2 := by simp [upper]
    have smallL2 := small l2 (owned.node_managed live (node_of_walk (by simp) reached))
    -- and so does one of the second.
    have second := formed root live [l1Index va] (by simp) l2 reached (l2Index va) allowed
    have step := walk_child 0 1 rfl first upper smallL2
    cases lower : child alloc.mem l2 (l2Index va) with
    -- A table of the second level that is missing stops the walk of the hardware, too.
    | none =>
      simp only [walk_cons, upper, lower, Option.bind_some, Option.bind_none]
      obtain ⟨fault, stopped⟩ := walk_vacant 1 1 rfl second lower
      exact ⟨fault, step.trans stopped⟩
    | some l3 =>
      have reached : walk (child alloc.mem) root [l1Index va, l2Index va] = some l3 := by
        simp [upper, lower]
      have smallL3 := small l3 (owned.node_managed live (node_of_walk (by simp) reached))
      simp only [reached]
      exact step.trans (walk_child 1 0 rfl second lower smallL3)

/-- The MMU finds a page exactly where the kernel's own walk finds it. -/
theorem Owned.walk_program (owned : Owned alloc roots free managed)
    (formed : Formed may roots alloc.mem) (live : root ∈ roots) (allowed : may root (l1Index va))
    (small : ∀ pa ∈ managed, pa < 2 ^ 36) :
    match ttbr0ToPa alloc.mem va root with
    | some pa => ∃ leaf, Stage1.walk (readWord alloc.mem) 36 va 3 root .none = .ok leaf ∧
        leaf.Maps pa leafFlags
    | none => ∃ fault, Stage1.walk (readWord alloc.mem) 36 va 3 root .none = .error fault := by
  -- The hardware and `ttbr0_to_pa` meet at the last table, or both stop before it.
  have upper := owned.walk_tables formed live allowed small
  have path : pagePath va = [l1Index va, l2Index va] ++ [l3Index va] := rfl
  rw [ttbr0ToPa_eq, path, walk_snoc]
  cases reached : walk (child alloc.mem) root [l1Index va, l2Index va] with
  | none =>
    rw [reached] at upper
    exact upper
  | some l3 =>
    rw [reached] at upper
    have last := formed root live [l1Index va, l2Index va] (by simp) l3 reached (l3Index va) allowed
    rw [Option.bind_some]
    -- At the last table, both find the page, or neither does.
    cases found : child alloc.mem l3 (l3Index va) with
    | none =>
      obtain ⟨fault, stopped⟩ := walk_vacant 2 0 rfl last found
      exact ⟨fault, upper.trans stopped⟩
    | some leaf =>
      have mapped : walk (child alloc.mem) root (pagePath va) = some leaf := by
        rw [path, walk_snoc, reached]
        exact found
      have smallLeaf := small leaf (owned.node_managed live (node_of_walk (by simp) mapped))
      obtain ⟨page, walked, maps⟩ := walk_page found last smallLeaf
      exact ⟨page, upper.trans walked, maps⟩

/-- So an access gets where the kernel's walk says, or nowhere, with the one register or the other. -/
theorem Owned.translates_program (owned : Owned alloc roots free managed)
    (formed : Formed may roots alloc.mem) (live : root ∈ roots) (allowed : may root (l1Index va))
    (small : ∀ pa ∈ managed, pa < 2 ^ 36) {ttbr0 ttbr1 : Nat}
    (looked : regime.lookup (readWord alloc.mem) ttbr0 ttbr1 va =
      Stage1.walk (readWord alloc.mem) 36 va 3 root .none) :
    match ttbr0ToPa alloc.mem va root with
    | some pa => Translates alloc.mem ttbr0 ttbr1 va pa 0xFF PageAllows
    | none => Faults alloc.mem ttbr0 ttbr1 va := by
  -- What the walk finds decides what the MMU does.
  have walked := owned.walk_program formed live allowed small
  cases found : ttbr0ToPa alloc.mem va root with
  | none =>
    rw [found] at walked
    obtain ⟨fault, stopped⟩ := walked
    exact faults_of_lookup (looked.trans stopped)
  | some pa =>
    rw [found] at walked
    obtain ⟨leaf, reached, page⟩ := walked
    exact page.address ▸ translates_of_lookup (looked.trans reached) (page_normal page)
      (page_permits page)

end Programs

end AtOS
