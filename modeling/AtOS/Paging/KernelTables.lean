import AtOS.Paging.Mmu

/-! The tables of the kernel: the static ones, how `entry.S` links them, and what the MMU finds. -/

namespace AtOS

open ByteMemory RadixForest
open Stage1 hiding walk

/-- The start and the length of the region `VMA`, in which the linker places the kernel. -/
def vmaOrigin : Nat := 0xFFFFFF8000080000
def vmaLength : Nat := 512 * 1024 * 1024

/--
Where the linker places the tables of the kernel and `_stack_top`.

The section of the tables comes before that of the stack, and both are aligned to pages.
-/
structure KernelLayout where
  /-- `PAGE_TABLE_KERNEL_L1`. -/
  l1 : Nat
  /-- `PAGE_TABLE_KERNEL_L2_0`. -/
  l2First : Nat
  /-- `PAGE_TABLE_KERNEL_L2_1`. -/
  l2Second : Nat
  stackTop : Nat
  distinct : [l1, l2First, l2Second].Nodup
  placed : ∀ table ∈ [l1, l2First, l2Second],
    table % 4096 = 0 ∧ vmaOrigin ≤ table ∧ table + 4096 ≤ stackTop
  aligned : stackTop % 4096 = 0
  fits : stackTop ≤ vmaOrigin + vmaLength

/-- `entry.S` makes physical addresses of those from the linker: `and x1, x1, x7`. -/
def toPhysical (address : Nat) : Nat := address &&& 0x3FFFFFFF

/-- The tables, at their physical addresses. -/
def KernelLayout.tables (layout : KernelLayout) : List Nat :=
  [layout.l1, layout.l2First, layout.l2Second].map toPhysical

/-- The static tables in the image that is loaded: `PAGE_TABLE_KERNEL_L1` is empty. -/
structure StaticTables (layout : KernelLayout) (mem : Mem) : Prop where
  empty : ∀ index, entry mem (toPhysical layout.l1) index = 0
  first : ∀ index, entry mem (toPhysical layout.l2First) index = kernelL2_0 index
  second : ∀ index, entry mem (toPhysical layout.l2Second) index = kernelL2_1 index

/-- The part of `_start` that links up the kernel page tables. -/
def linkKernelTables (layout : KernelLayout) (mem : Mem) : Mem :=
  let x1 := toPhysical layout.l2First ||| 0b11
  let x2 := toPhysical layout.l2Second ||| 0b11
  let x0 := toPhysical layout.l1
  writeLE (writeLE mem x0 8 x1) (x0 + 8) 8 x2

/--
The window of the kernel onto the memory, in the first 2 GB of a table.

The entry for the kernel stacks may be anything, and all others behind the window are empty.
-/
structure Window (mem : Mem) (l1 l2First l2Second : Nat) : Prop where
  linkedFirst : entry mem l1 0 = l2First ||| 0b11
  linkedSecond : entry mem l1 1 = l2Second ||| 0b11
  vacant : ∀ index : EntryIndex, 3 ≤ index.val → entry mem l1 index = 0
  first : ∀ index, entry mem l2First index = kernelL2_0 index
  second : ∀ index, entry mem l2Second index = kernelL2_1 index

section Layout

variable (layout : KernelLayout)

/-- A table is a frame below the stack. -/
theorem KernelLayout.placed_physical {address : Nat}
    (table : address ∈ [layout.l1, layout.l2First, layout.l2Second]) :
    toPhysical address = address - 0xFFFFFF8000000000 ∧ IsFrame (toPhysical address) ∧
      toPhysical address < 2 ^ 30 ∧ ttbr1ToPa address = toPhysical address := by
  obtain ⟨aligned, above, below⟩ := layout.placed address table
  have fits := layout.fits
  simp only [vmaOrigin, vmaLength] at above fits
  -- The mask keeps thirty bits, and the kernel has no more.
  have masked : toPhysical address = address % 2 ^ 30 := BitMasks.and_low address 30
  have window : ttbr1ToPa address = address % 2 ^ 39 := ttbr1ToPa_eq address
  rw [masked, window]
  refine ⟨?_, ⟨?_, ?_⟩, ?_, ?_⟩ <;> omega

/-- The tables of the kernel are frames in the first gigabyte. -/
theorem KernelLayout.tables_frame {table : Nat} (listed : table ∈ layout.tables) :
    IsFrame table ∧ table < 2 ^ 30 := by
  obtain ⟨address, placed, rfl⟩ := List.mem_map.mp listed
  obtain ⟨-, isFrame, small, -⟩ := layout.placed_physical placed
  exact ⟨isFrame, small⟩

/-- The three tables are different frames. -/
theorem KernelLayout.tables_nodup : layout.tables.Nodup := by
  refine layout.distinct.map_on fun address placed other placedOther same => ?_
  rw [(layout.placed_physical placed).1, (layout.placed_physical placedOther).1] at same
  -- All of them are in the upper half, where subtracting its start loses nothing.
  have above := (layout.placed address placed).2.1
  have aboveOther := (layout.placed other placedOther).2.1
  simp only [vmaOrigin] at above aboveOther
  omega

/-- Linking writes two entries of the first table. -/
theorem linkKernelTables_eq (mem : Mem) : linkKernelTables layout mem =
    setEntry (setEntry mem (toPhysical layout.l1) 0 (toPhysical layout.l2First ||| 0b11))
      (toPhysical layout.l1) 1 (toPhysical layout.l2Second ||| 0b11) := rfl

variable {layout} {image mem : Mem}

/-- Memory with the tables as they are linked has a window, and nothing is mapped behind it. -/
theorem StaticTables.linked (static : StaticTables layout image)
    (same : ∀ table ∈ layout.tables, Set.EqOn mem (linkKernelTables layout image) (frame table)) :
    Window mem (toPhysical layout.l1) (toPhysical layout.l2First) (toPhysical layout.l2Second) ∧
      entry mem (toPhysical layout.l1) 2 = 0 := by
  -- The three tables are different frames.
  have nodup := layout.tables_nodup
  simp only [KernelLayout.tables, List.map_cons, List.map_nil, List.nodup_cons, List.mem_cons,
    List.not_mem_nil, or_false, not_or, not_false_eq_true, List.nodup_nil, and_true] at nodup
  have frames : ∀ table ∈ layout.tables, IsFrame table :=
    fun table listed => (layout.tables_frame listed).1
  have listed : toPhysical layout.l1 ∈ layout.tables ∧ toPhysical layout.l2First ∈ layout.tables ∧
      toPhysical layout.l2Second ∈ layout.tables := by simp [KernelLayout.tables]
  -- The entries of the first table are those that are written, or still zero,
  have upper : ∀ index, entry mem (toPhysical layout.l1) index =
      if index = 1 then toPhysical layout.l2Second ||| 0b11
      else if index = 0 then toPhysical layout.l2First ||| 0b11 else 0 := by
    intro index
    rw [entry_congr (same _ listed.1), linkKernelTables_eq]
    by_cases second : index = 1
    · subst second
      rw [entry_setEntry _ _ _ (pointer_lt (frames _ listed.2.2) (by decide)), if_pos rfl]
    · rw [entry_setEntry_of_ne _ _ _ second, if_neg second]
      by_cases first : index = 0
      · subst first
        rw [entry_setEntry _ _ _ (pointer_lt (frames _ listed.2.1) (by decide)), if_pos rfl]
      · rw [entry_setEntry_of_ne _ _ _ first, if_neg first, static.empty]
  -- and the other two tables are not written.
  have lower : ∀ table ∈ layout.tables, table ≠ toPhysical layout.l1 → ∀ index,
      entry mem table index = entry image table index := by
    intro table member apart index
    rw [entry_congr (same _ member), linkKernelTables_eq]
    refine entry_congr (fun address inside => ?_) index
    have outside := frame_disjoint (frames _ member) (frames _ listed.1) apart inside
    rw [setEntry_outside _ _ _ outside, setEntry_outside _ _ _ outside]
  -- So the window is set up, and the entry behind it is still free.
  refine ⟨⟨?_, ?_, ?_, ?_, ?_⟩, ?_⟩
  · rw [upper, if_neg (by decide), if_pos rfl]
  · rw [upper, if_pos rfl]
  · intro index behind
    rw [upper, if_neg (by rintro rfl; exact absurd behind (by decide)),
      if_neg (by rintro rfl; exact absurd behind (by decide))]
  · intro index
    rw [lower _ listed.2.1 (Ne.symm nodup.1.1), static.first]
  · intro index
    rw [lower _ listed.2.2 (Ne.symm nodup.1.2), static.second]
  · rw [upper, if_neg (by decide), if_neg (by decide)]

end Layout

/-- In the window the kernel may do anything but execute devices, and programs nothing. -/
def WindowAllows (pa : Nat) (privilege : Privilege) (access : Access) : Prop :=
  privilege = .el1 ∧ (access = .fetch → pa < 0x3F000000)

/-- The attributes of memory, and those of devices. -/
def windowMemory (pa : Nat) : Nat := if pa < 0x3F000000 then 0xFF else 0x00

section Blocks

variable {mem : Mem} {pa va : Nat}

/-- The attributes of a block. -/
def blockFlags (attr : Nat) : Nat := kernelL2BlockDescriptor 0 attr

/-- A descriptor of a block is its address together with the attributes. -/
theorem kernelL2BlockDescriptor_eq (aligned : pa % 2 ^ 21 = 0) (fits : pa < 2 ^ 64) (attr : Nat) :
    kernelL2BlockDescriptor pa attr = pa ||| blockFlags attr := by
  have masked : pa &&& 0xFFFFFFFFFFE00000 = pa :=
    BitMasks.and_range_of_aligned 21 64 (by decide) fits aligned
  simp only [blockFlags, kernelL2BlockDescriptor, masked, Nat.zero_and, Nat.zero_or, Nat.or_assoc]

/-- Devices start at the border of a block. -/
theorem blockAttr_block (pa : Nat) : blockAttr (pa / 2 ^ 21 * 2 ^ 21) = blockAttr pa := by
  unfold blockAttr
  by_cases device : pa ≥ 0x3F000000
  · rw [if_pos device, if_pos (by omega)]
  · rw [if_neg device, if_neg (by omega)]

/-- The attributes of a block are outside of its address. -/
theorem blockFlags_outside (pa : Nat) : ∀ position < 48, 21 ≤ position →
    (blockFlags (blockAttr pa)).testBit position = false := by
  unfold blockAttr
  split
  · decide
  · decide

/-- The address of a block has no bits outside of its part of the descriptor. -/
theorem base_testBit (aligned : pa % 2 ^ 21 = 0) (small : pa < 2 ^ 48) {position : Nat}
    (outside : position < 21 ∨ 48 ≤ position) : pa.testBit position = false := by
  rcases outside with below | above
  · obtain ⟨quotient, rfl⟩ := Nat.dvd_of_mod_eq_zero aligned
    rw [Nat.testBit_two_pow_mul]
    simp [Nat.not_le.mpr below]
  · exact Nat.testBit_lt_two_pow (small.trans_le (Nat.pow_le_pow_right (by decide) above))

/-- The MMU reads the attributes off such a descriptor, and the address. -/
theorem block_bits (aligned : pa % 2 ^ 21 = 0) (small : pa < 2 ^ 48) (attr : Nat) {position : Nat}
    (outside : position < 21 ∨ 48 ≤ position) :
    (kernelL2BlockDescriptor pa attr).testBit position = (blockFlags attr).testBit position := by
  rw [kernelL2BlockDescriptor_eq aligned (by omega), Nat.testBit_or,
    base_testBit aligned small outside, Bool.false_or]

/-- The address of a block can be read back from its descriptor. -/
theorem block_address (aligned : pa % 2 ^ 21 = 0) (small : pa < 2 ^ 48) (other : Nat) :
    outputAddress (kernelL2BlockDescriptor pa (blockAttr other)) 21 = pa := by
  apply Nat.eq_of_testBit_eq
  intro position
  rw [testBit_outputAddress, kernelL2BlockDescriptor_eq aligned (by omega), Nat.testBit_or]
  by_cases inside : 21 ≤ position ∧ position < 48
  · simp [inside, blockFlags_outside other position inside.2 inside.1]
  · -- Outside of these bits there is nothing on either side.
    rw [base_testBit aligned small (by omega)]
    by_cases above : 21 ≤ position
    · simp [show ¬ position < 48 by omega]
    · simp [above]

/-- A block is a leaf of the second level, for the MMU. -/
theorem walk_block {table base : Nat} (aligned : base % 2 ^ 21 = 0) (small : base < 2 ^ 36)
    (found : entry mem table (l2Index va) = kernelL2BlockDescriptor base (blockAttr base)) :
    ∃ leaf, Stage1.walk (readWord mem) 36 va 2 table .none = .ok leaf ∧
      leaf.Maps (base + va % 2 ^ 21) (blockFlags (blockAttr base)) := by
  -- The entry is the descriptor of a block, so the walk ends at the second level.
  have read := (readWord_entry mem table va 1).trans found
  have bits := fun position => @block_bits base aligned (by omega) (blockAttr base) position
  have address := block_address aligned (by omega) base
  -- Both kinds of blocks are valid, are no tables, and have the access flag set.
  have flags : ∀ attr, attr = attrDevice ∨ attr = attrNormal →
      (blockFlags attr).testBit 0 = true ∧ (blockFlags attr).testBit 1 = false ∧
        (blockFlags attr).testBit 10 = true := by
    rintro attr (rfl | rfl) <;> decide
  -- Which kind of block it is depends on the address alone.
  obtain ⟨valid, block, accessed⟩ := flags (blockAttr base) (by
    unfold blockAttr
    split
    · exact Or.inl rfl
    · exact Or.inr rfl)
  rw [← bits 0 (by decide)] at valid
  rw [← bits 1 (by decide)] at block
  rw [← bits 10 (by decide)] at accessed
  have isLeaf : kind 1 (kernelL2BlockDescriptor base (blockAttr base)) = .leaf := by
    simp [kind, valid, block]
  -- The block lies within the physical address space, which has 36 bits.
  have inside : outputAddress (kernelL2BlockDescriptor base (blockAttr base)) 21 < 2 ^ 36 := by
    rw [address]
    exact small
  refine ⟨_, (walk_leaf read isLeaf inside).trans (if_pos accessed), ?_, rfl,
    fun position _ outside => bits position (by omega)⟩
  exact congrArg (· + va % 2 ^ 21) address

variable {leaf : Stage1.Leaf}

/-- Blocks have these rights, -/
theorem block_permits (block : leaf.Maps pa (blockFlags (blockAttr pa))) (privilege : Privilege)
    (access : Access) : leaf.permits privilege access = true ↔ WindowAllows pa privilege access := by
  rw [block.permits, blockAttr, WindowAllows]
  by_cases device : pa ≥ 0x3F000000
  · rw [if_pos device]
    simp only [Nat.not_lt.mpr device, imp_false]
    cases privilege <;> cases access <;> decide
  · rw [if_neg device]
    simp only [Nat.not_le.mp device, implies_true, and_true]
    cases privilege <;> cases access <;> decide

/-- and these attributes. -/
theorem block_memory (block : leaf.Maps pa (blockFlags (blockAttr pa))) :
    leaf.memoryAttributes mairEl1Value = windowMemory pa := by
  rw [block.memoryAttributes, blockAttr, windowMemory]
  by_cases device : pa ≥ 0x3F000000
  · rw [if_pos device, if_neg (Nat.not_lt.mpr device)]
    decide
  · rw [if_neg device, if_pos (Nat.not_le.mp device)]
    decide

end Blocks

section Windows

variable {mem : Mem} {l1 l2First l2Second va : Nat}

/-- An entry that `entry.S` writes leads to its table. -/
theorem child_linked {table : Nat} {index : EntryIndex} (isFrame : IsFrame table)
    (linked : entry mem l1 index = table ||| 0b11) : child mem l1 index = some table := by
  have valid : IsValid (entry mem l1 index) := linked ▸ pointer_valid isFrame (by decide)
  rw [child_of_valid valid, linked, pointer_address isFrame (by decide)]

/-- In one of the two tables of the window, the MMU finds the block of the address. -/
theorem walk_half {table : Nat} (half : Nat) (small : half < 2) (isFrame : IsFrame table)
    (low : table < 2 ^ 36) (linked : entry mem l1 (l1Index va) = table ||| 0b11)
    (blocks : ∀ index : EntryIndex, entry mem table index =
      kernelL2BlockDescriptor ((index.val + 512 * half) <<< 21)
        (blockAttr ((index.val + 512 * half) <<< 21)))
    (inside : va % 2 ^ 39 / 2 ^ 30 = half) :
    ∃ leaf, Stage1.walk (readWord mem) 36 va 3 l1 .none = .ok leaf ∧
      leaf.Maps (va % 2 ^ 39) (blockFlags (blockAttr (va % 2 ^ 39))) := by
  -- The first table leads to the one of this half,
  have formed : EntryFormed 0 (entry mem l1 (l1Index va)) := linked ▸ pointer_formed isFrame
  have upper := walk_child 0 1 rfl formed (child_linked isFrame linked) low
  -- and there the index selects the block that the address is in.
  have index : (l2Index va).val = va / 2 ^ 21 % 512 := tableIndex_val va 21
  have base : ((l2Index va).val + 512 * half) <<< 21 = va % 2 ^ 39 / 2 ^ 21 * 2 ^ 21 := by
    rw [Nat.shiftLeft_eq, index]
    omega
  have block := blocks (l2Index va)
  rw [base] at block
  obtain ⟨leaf, walked, maps⟩ := walk_block (Nat.mul_mod_left _ _) (by omega) block
  have whole : va % 2 ^ 39 / 2 ^ 21 * 2 ^ 21 + va % 2 ^ 21 = va % 2 ^ 39 := by omega
  rw [whole, blockAttr_block] at maps
  exact ⟨leaf, upper.trans walked, maps⟩

/-- The first 2 GB of the kernel's half are the memory as it is. -/
theorem Window.walk (window : Window mem l1 l2First l2Second)
    (frames : ∀ table ∈ [l2First, l2Second], IsFrame table ∧ table < 2 ^ 36)
    (inside : va % 2 ^ 39 < 2 ^ 31) :
    ∃ leaf, Stage1.walk (readWord mem) 36 va 3 l1 .none = .ok leaf ∧
      leaf.Maps (va % 2 ^ 39) (blockFlags (blockAttr (va % 2 ^ 39))) := by
  have index : (l1Index va).val = va / 2 ^ 30 % 512 := tableIndex_val va 30
  rcases Nat.lt_or_ge (va % 2 ^ 39) (2 ^ 30) with lower | upper
  · have zero : l1Index va = 0 := Fin.ext (by rw [index]; show _ = 0; omega)
    obtain ⟨isFrame, low⟩ := frames l2First (by simp)
    refine walk_half 0 (by decide) isFrame low ?_ window.first (by omega)
    rw [zero]
    exact window.linkedFirst
  · have one : l1Index va = 1 := Fin.ext (by rw [index]; show _ = 1; omega)
    obtain ⟨isFrame, low⟩ := frames l2Second (by simp)
    refine walk_half 1 (by decide) isFrame low ?_ window.second (by omega)
    rw [one]
    exact window.linkedSecond

/-- So the MMU takes an address of the window to the physical one, in either half. -/
theorem Window.translates (window : Window mem l1 l2First l2Second)
    (frames : ∀ table ∈ [l2First, l2Second], IsFrame table ∧ table < 2 ^ 36)
    (inside : va % 2 ^ 39 < 2 ^ 31) {ttbr0 ttbr1 : Nat}
    (looked : regime.lookup (readWord mem) ttbr0 ttbr1 va =
      Stage1.walk (readWord mem) 36 va 3 l1 .none) :
    Translates mem ttbr0 ttbr1 va (va % 2 ^ 39) (windowMemory (va % 2 ^ 39))
      (WindowAllows (va % 2 ^ 39)) := by
  obtain ⟨leaf, walked, block⟩ := window.walk frames inside
  have translates := translates_of_lookup (looked.trans walked) (block_memory block)
    (block_permits block)
  rwa [block.address] at translates

/-- Where the first table has an empty entry, the MMU stops. -/
theorem walk_empty (nothing : entry mem l1 (l1Index va) = 0) :
    ∃ fault, Stage1.walk (readWord mem) 36 va 3 l1 .none = .error fault := by
  have vacant : child mem l1 (l1Index va) = none := by
    rw [child_eq_none, nothing]
    decide
  have formed : EntryFormed 0 (entry mem l1 (l1Index va)) := by
    rw [nothing]
    exact .vacant rfl
  exact walk_vacant 0 2 rfl formed vacant

/-- Behind the gigabyte of the kernel stacks, nothing is mapped. -/
theorem Window.walk_behind (window : Window mem l1 l2First l2Second)
    (behind : 3 * 2 ^ 30 ≤ va % 2 ^ 39) :
    ∃ fault, Stage1.walk (readWord mem) 36 va 3 l1 .none = .error fault := by
  have index : (l1Index va).val = va / 2 ^ 30 % 512 := tableIndex_val va 30
  exact walk_empty (window.vacant (l1Index va) (by omega))

/-- A window is kept where only what is below the entry for the kernel stacks may change. -/
theorem Window.kept {after : Mem} (window : Window mem l1 l2First l2Second)
    (frames : ∀ table ∈ [l2First, l2Second], IsFrame table)
    (same : ∀ path : List EntryIndex, path.length < 3 → ∀ table,
      RadixForest.walk (child after) l1 path = some table → ∀ index, path.headD index ≠ 2 →
        entry after table index = entry mem table index) :
    Window after l1 l2First l2Second := by
  -- In the first table, the entries that are looked at are not the third.
  have upper : ∀ index : EntryIndex, index ≠ 2 → entry after l1 index = entry mem l1 index :=
    fun index apart => same [] (by simp) l1 rfl index apart
  have linkedFirst := (upper 0 (by decide)).trans window.linkedFirst
  have linkedSecond := (upper 1 (by decide)).trans window.linkedSecond
  -- So the first two lead to the same tables, whose entries stay too.
  have first := child_linked (frames l2First (by simp)) linkedFirst
  have second := child_linked (frames l2Second (by simp)) linkedSecond
  refine ⟨linkedFirst, linkedSecond, ?_, ?_, ?_⟩
  · intro index behind
    have apart : index ≠ 2 := by
      rintro rfl
      exact absurd behind (by decide)
    rw [upper index apart, window.vacant index behind]
  · intro index
    rw [same [0] (by simp) l2First (by simp [first]) index (by simp), window.first]
  · intro index
    rw [same [1] (by simp) l2Second (by simp [second]) index (by simp), window.second]

/-- The allocator takes no block for a table. -/
theorem block_childless {table : Nat} {base : EntryIndex → Nat}
    (blocks : ∀ index, entry mem table index =
      kernelL2BlockDescriptor (base index) (blockAttr (base index)))
    (places : ∀ index, base index % 2 ^ 21 = 0 ∧ base index < 2 ^ 48) (index : EntryIndex) :
    child mem table index = none := by
  rw [child_eq_none, blocks index]
  intro valid
  -- The bit that makes an entry a table is clear.
  have bit := block_bits (places index).1 (places index).2 (blockAttr (base index))
    (show 1 < 21 ∨ 48 ≤ 1 by decide)
  rw [valid.bits.2, blockAttr] at bit
  split at bit
  · exact absurd bit (by decide)
  · exact absurd bit (by decide)

/-- While no kernel stack was given out, the kernel has three tables, and no page. -/
theorem Window.paths (window : Window mem l1 l2First l2Second)
    (frames : ∀ table ∈ [l2First, l2Second], IsFrame table) (vacant : entry mem l1 2 = 0)
    {path : List EntryIndex} {node : Nat} (reached : RadixForest.walk (child mem) l1 path = some node) :
    path = [] ∧ node = l1 ∨ path = [0] ∧ node = l2First ∨ path = [1] ∧ node = l2Second := by
  -- All blocks have addresses that fit into a descriptor.
  have places : ∀ half, half < 2 → ∀ index : EntryIndex,
      ((index.val + 512 * half) <<< 21) % 2 ^ 21 = 0 ∧ (index.val + 512 * half) <<< 21 < 2 ^ 48 := by
    intro half small index
    have bound := index.isLt
    rw [Nat.shiftLeft_eq]
    omega
  have first := block_childless window.first (places 0 (by decide))
  have second := block_childless window.second (places 1 (by decide))
  -- A table of the window has nothing below it.
  have last : ∀ {table : Nat} {rest : List EntryIndex}, (∀ index, child mem table index = none) →
      RadixForest.walk (child mem) table rest = some node → rest = [] ∧ node = table := by
    intro table rest childless walked
    cases rest with
    | nil => exact ⟨rfl, (Option.some.inj walked).symm⟩
    | cons index tail =>
      rw [walk_childless childless (by simp)] at walked
      cases walked
  -- A path ends at the first table, or it leads into one of the others.
  cases path with
  | nil => exact Or.inl ⟨rfl, (Option.some.inj reached).symm⟩
  | cons index rest =>
    right
    rw [walk_cons] at reached
    have bound := index.isLt
    -- The first two entries lead to tables whose entries are all blocks.
    rcases Nat.lt_or_ge index.val 2 with inside | behind
    · rcases Nat.lt_or_ge index.val 1 with zero | one
      · obtain rfl : index = 0 := Fin.ext (by show _ = 0; omega)
        rw [child_linked (frames l2First (by simp)) window.linkedFirst] at reached
        obtain ⟨rfl, rfl⟩ := last first reached
        exact Or.inl ⟨rfl, rfl⟩
      · obtain rfl : index = 1 := Fin.ext (by show _ = 1; omega)
        rw [child_linked (frames l2Second (by simp)) window.linkedSecond] at reached
        obtain ⟨rfl, rfl⟩ := last second reached
        exact Or.inr ⟨rfl, rfl⟩
    · -- All other entries are empty.
      have nothing : entry mem l1 index = 0 := by
        rcases Nat.lt_or_ge index.val 3 with stack | beyond
        · obtain rfl : index = 2 := Fin.ext (by show _ = 2; omega)
          exact vacant
        · exact window.vacant index beyond
      have none : child mem l1 index = none := by
        rw [child_eq_none, nothing]
        decide
      rw [none] at reached
      cases reached

end Windows

section Boot

variable {layout : KernelLayout} {image mem : Mem}

/-- The two tables of the window are frames below the limit of the MMU. -/
theorem KernelLayout.window_frames (layout : KernelLayout) :
    ∀ table ∈ [toPhysical layout.l2First, toPhysical layout.l2Second],
      IsFrame table ∧ table < 2 ^ 36 := by
  intro table listed
  obtain ⟨isFrame, low⟩ := layout.tables_frame (List.mem_cons_of_mem _ listed)
  exact ⟨isFrame, by omega⟩

/--
When `entry.S` turns on the MMU with one table in both registers, both halves are the same.

The first 2 GB of each are physical memory as it is, so the code goes on where it was, and finds
itself again in the upper half; everything behind them faults.
-/
theorem StaticTables.mapsBothHalves (static : StaticTables layout image)
    (same : ∀ table ∈ layout.tables, Set.EqOn mem (linkKernelTables layout image) (frame table))
    {pa : Nat} (small : pa < 2 ^ 39) :
    (pa < 2 ^ 31 → ∀ va ∈ [pa, ttbr1ToVa pa],
      Translates mem (toPhysical layout.l1) (toPhysical layout.l1) va pa (windowMemory pa)
        (WindowAllows pa)) ∧
    (2 ^ 31 ≤ pa → ∀ va ∈ [pa, ttbr1ToVa pa],
      Faults mem (toPhysical layout.l1) (toPhysical layout.l1) va) := by
  obtain ⟨window, vacant⟩ := static.linked same
  have isFrame := (layout.tables_frame (List.mem_cons_self (a := toPhysical layout.l1))).1
  -- Both addresses are looked up in the one table, where they have the same indices.
  have looked : ∀ va ∈ [pa, ttbr1ToVa pa], va % 2 ^ 39 = pa ∧
      regime.lookup (readWord mem) (toPhysical layout.l1) (toPhysical layout.l1) va =
        Stage1.walk (readWord mem) 36 va 3 (toPhysical layout.l1) .none := by
    intro va listed
    simp only [List.mem_cons, List.not_mem_nil, or_false] at listed
    rcases listed with rfl | rfl
    · exact ⟨Nat.mod_eq_of_lt small, lookup_low isFrame small⟩
    · have high := ttbr1ToVa_eq small
      exact ⟨by omega, lookup_high isFrame (by omega)⟩
  constructor
  · -- The first two gigabytes are mapped by the blocks of the window,
    intro inside va listed
    obtain ⟨offset, lookup⟩ := looked va listed
    have translates := window.translates layout.window_frames (offset.symm ▸ inside) lookup
    rwa [offset] at translates
  · -- and no entry maps the others.
    intro beyond va listed
    obtain ⟨offset, lookup⟩ := looked va listed
    have index : (l1Index va).val = va / 2 ^ 30 % 512 := tableIndex_val va 30
    have nothing : entry mem (toPhysical layout.l1) (l1Index va) = 0 := by
      rcases Nat.lt_or_ge (l1Index va).val 3 with stack | behind
      · have isStack : l1Index va = 2 := Fin.ext (by
          show _ = 2
          omega)
        rw [isStack]
        exact vacant
      · exact window.vacant _ behind
    obtain ⟨fault, stopped⟩ := walk_empty nothing
    exact faults_of_lookup (lookup.trans stopped)

/-- A static table, as it is in an image. -/
def placeTable (table : Nat) (entries : EntryIndex → Nat) (mem : Mem) : Mem := fun address =>
  if table ≤ address ∧ address < table + 4096 then
    UInt8.ofNat (entries ⟨(address - table) / 8 % 512, Nat.mod_lt _ (by decide)⟩ /
      256 ^ ((address - table) % 8))
  else mem address

/-- Placing a table changes no memory outside of it. -/
theorem placeTable_outside {table address : Nat} (entries : EntryIndex → Nat)
    (outside : address ∉ frame table) : placeTable table entries mem address = mem address := by
  simp only [frame, block, Set.mem_Ico] at outside
  simp only [placeTable, if_neg outside]

/-- The entries that are placed are read back. -/
theorem entry_placeTable (table : Nat) {entries : EntryIndex → Nat} {index : EntryIndex}
    (fits : entries index < 2 ^ 64) :
    entry (placeTable table entries mem) table index = entries index := by
  have word : Set.EqOn (placeTable table entries mem)
      (writeLE mem (table + 8 * index.val) 8 (entries index)) (block (table + 8 * index.val) 8) := by
    intro address inside
    simp only [block, Set.mem_Ico] at inside
    have bound := index.isLt
    -- Byte by byte, it is the word of this entry.
    have isIndex : (⟨(address - table) / 8 % 512, Nat.mod_lt _ (by decide)⟩ : EntryIndex) = index :=
      Fin.ext (by show (address - table) / 8 % 512 = _; omega)
    have offset : (address - table) % 8 = address - (table + 8 * index.val) := by omega
    simp only [placeTable, writeLE, isIndex, offset]
    rw [if_pos (by omega), if_pos (by omega)]
  rw [entry, readLE_congr word, readLE_writeLE]
  exact Nat.mod_eq_of_lt fits

/-- The descriptor of a block is a word. -/
theorem block_lt {pa : Nat} (aligned : pa % 2 ^ 21 = 0) (small : pa < 2 ^ 48) (other : Nat) :
    kernelL2BlockDescriptor pa (blockAttr other) < 2 ^ 64 := by
  rw [kernelL2BlockDescriptor_eq aligned (by omega)]
  refine Nat.or_lt_two_pow (by omega) ?_
  unfold blockAttr
  split
  · decide
  · decide

/-- A small kernel: the tables come right after one another, and the stack soon after them. -/
def smallLayout : KernelLayout where
  l1 := 0xFFFFFF8000090000
  l2First := 0xFFFFFF8000091000
  l2Second := 0xFFFFFF8000092000
  stackTop := 0xFFFFFF80000A0000
  distinct := by decide
  placed := by decide
  aligned := by decide
  fits := by decide

/-- Its image, with nothing but the tables. -/
def smallImage : Mem :=
  placeTable (toPhysical smallLayout.l2First) kernelL2_0
    (placeTable (toPhysical smallLayout.l2Second) kernelL2_1 fun _ => 0)

/-- The tables of the small kernel are as the linker places them. -/
theorem smallImage_static : StaticTables smallLayout smallImage := by
  have physical : toPhysical smallLayout.l1 = 0x90000 ∧ toPhysical smallLayout.l2First = 0x91000 ∧
      toPhysical smallLayout.l2Second = 0x92000 := by decide
  -- The descriptors fit into an entry.
  have fits : ∀ half, half < 2 → ∀ index : EntryIndex,
      kernelL2BlockDescriptor ((index.val + 512 * half) <<< 21)
        (blockAttr ((index.val + 512 * half) <<< 21)) < 2 ^ 64 := by
    intro half small index
    have bound := index.isLt
    refine block_lt ?_ ?_ _ <;>
      rw [Nat.shiftLeft_eq] <;> omega
  rw [smallImage]
  refine ⟨fun index => ?_, fun index => ?_, fun index => ?_⟩
  · -- No table is placed on the first one, so it stays empty.
    refine entry_zero (fun address inside => ?_) index
    rw [physical.1] at inside
    rw [placeTable_outside, placeTable_outside] <;>
      simp only [frame, block, Set.mem_Ico, physical] at inside ⊢ <;> omega
  · exact entry_placeTable _ (fits 0 (by decide) index)
  · -- The second table is placed last, and so stays as it is; the third lies beside it.
    have placed : entry (placeTable (toPhysical smallLayout.l2Second) kernelL2_1 fun _ => 0)
        (toPhysical smallLayout.l2Second) index = kernelL2_1 index :=
      entry_placeTable _ (fits 1 (by decide) index)
    rw [← placed]
    refine entry_congr (fun address inside => placeTable_outside _ ?_) index
    simp only [frame, block, Set.mem_Ico, physical] at inside ⊢
    omega

/-- With the tables of the small kernel, the first instruction of the kernel is in both halves. -/
theorem mapsBothHalves_small :
    Translates (linkKernelTables smallLayout smallImage) 0x90000 0x90000 0x80000 0x80000 0xFF
        (WindowAllows 0x80000) ∧
      Translates (linkKernelTables smallLayout smallImage) 0x90000 0x90000 (ttbr1ToVa 0x80000)
        0x80000 0xFF (WindowAllows 0x80000) := by
  have halves := (smallImage_static.mapsBothHalves (fun _ _ _ _ => rfl)
    (show 0x80000 < 2 ^ 39 by decide)).1 (by decide)
  exact ⟨halves _ (by simp), halves _ (by simp)⟩

end Boot

end AtOS
