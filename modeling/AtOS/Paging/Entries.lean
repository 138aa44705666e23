import AtOS.Library.BitMasks
import AtOS.Library.RadixForest
import Mathlib.Data.List.Basic
import AtOS.Paging.PageAllocator

/-! Frames, table entries and virtual addresses as the masks and shifts of the source read them. -/

namespace AtOS

open ByteMemory RadixForest

/-- A frame address: page aligned, and inside the kernel window. -/
def IsFrame (pa : Nat) : Prop := pa % 4096 = 0 ∧ pa < 2 ^ 39

/-- The bytes of a frame. -/
abbrev frame (pa : Nat) : Set Nat := block pa 4096

/-- Distinct frames share no byte. -/
theorem frame_disjoint {first second : Nat} (isFirst : IsFrame first) (isSecond : IsFrame second)
    (distinct : first ≠ second) {address : Nat} (inside : address ∈ frame first) :
    address ∉ frame second := by
  -- Both addresses are multiples of the page size, so they are a page apart.
  have firstAligned := isFirst.1
  have secondAligned := isSecond.1
  simp only [frame, block, Set.mem_Ico] at *
  omega

section Window

/-- Setting the window prefix adds the start of the window. -/
theorem ttbr1ToVa_eq {addr : Nat} (small : addr < 2 ^ 39) :
    ttbr1ToVa addr = 0xffffff8000000000 + addr := by
  have prefixed : (0xffffff8000000000 : Nat) = 2 ^ 39 * (2 ^ 25 - 1) := by decide
  rw [ttbr1ToVa, prefixed, BitMasks.or_high_of_lt small]

/-- Dropping the prefix keeps the low 39 bits. -/
theorem ttbr1ToPa_eq (addr : Nat) : ttbr1ToPa addr = addr % 2 ^ 39 :=
  BitMasks.and_low addr 39

/-- The window maps a physical address to itself. -/
@[simp] theorem ttbr1ToPa_ttbr1ToVa {addr : Nat} (small : addr < 2 ^ 39) :
    ttbr1ToPa (ttbr1ToVa addr) = addr := by
  rw [ttbr1ToVa_eq small, ttbr1ToPa_eq]
  omega

/-- A page aligned 64-bit address is kept by the page mask. -/
theorem pageMask_aligned {addr : Nat} (aligned : addr % 4096 = 0) (fits : addr < 2 ^ 64) :
    addr &&& 0xFFFFFFFFFFFFF000 = addr :=
  BitMasks.and_range_of_aligned 12 64 (by decide) fits aligned

/-- The kernel address of a frame is page aligned and fits a word. -/
theorem ttbr1ToVa_aligned {pa : Nat} (isFrame : IsFrame pa) :
    ttbr1ToVa pa % 4096 = 0 ∧ ttbr1ToVa pa < 2 ^ 64 := by
  obtain ⟨aligned, small⟩ := isFrame
  rw [ttbr1ToVa_eq small]
  omega

end Window

section EntryValue

/-- A frame address joined with attribute bits is a valid entry for that frame. -/
theorem pointer_valid {pa flags : Nat} (isFrame : IsFrame pa) (valid : flags &&& 0b11 = 0b11) :
    IsValid (pa ||| flags) := by
  -- The frame address contributes nothing to the two low bits.
  have low : pa &&& 0b11 = 0 := by
    have remainder := BitMasks.and_low pa 2
    have aligned := isFrame.1
    simp only [Nat.reducePow, Nat.reduceSub] at remainder
    omega
  rw [IsValid, Nat.and_or_distrib_right, low, valid, Nat.zero_or]

/-- The address of such an entry is the frame. -/
theorem pointer_address {pa flags : Nat} (isFrame : IsFrame pa)
    (attributes : flags &&& addressMask = 0) : (pa ||| flags) &&& addressMask = pa := by
  have kept : pa &&& addressMask = pa :=
    BitMasks.and_range_of_aligned 12 48 (by decide)
      (Nat.lt_trans isFrame.2 (by decide)) isFrame.1
  rw [Nat.and_or_distrib_right, kept, attributes, Nat.or_zero]

/-- An entry built from a frame and attributes of a word fits a word. -/
theorem pointer_lt {pa flags : Nat} (isFrame : IsFrame pa) (fits : flags < 2 ^ 64) :
    pa ||| flags < 2 ^ 64 :=
  Nat.or_lt_two_pow (Nat.lt_trans isFrame.2 (by decide)) fits

/-- Isolated attribute bits contain no address bits. -/
theorem flags_address (value : Nat) : (value &&& flagsMask) &&& addressMask = 0 := by
  have none : flagsMask &&& addressMask = 0 := by decide
  rw [Nat.and_assoc, none, Nat.and_zero]

/-- An entry built from a frame and isolated attribute bits has these attribute bits. -/
theorem pointer_flags {pa : Nat} (isFrame : IsFrame pa) (value : Nat) :
    (pa ||| (value &&& flagsMask)) &&& flagsMask = value &&& flagsMask := by
  -- The frame address lies under the address mask, which shares no bit with the attributes.
  have kept : pa &&& addressMask = pa :=
    BitMasks.and_range_of_aligned 12 48 (by decide) (Nat.lt_trans isFrame.2 (by decide)) isFrame.1
  have apart : addressMask &&& flagsMask = 0 := by decide
  have none : pa &&& flagsMask = 0 := by
    rw [← kept, Nat.and_assoc, apart, Nat.and_zero]
  rw [Nat.and_or_distrib_right, none, Nat.zero_or, Nat.and_assoc, Nat.and_self]

/-- Isolated attribute bits keep the two low bits. -/
theorem flags_valid {value : Nat} (valid : IsValid value) : (value &&& flagsMask) &&& 0b11 = 0b11 := by
  have low : flagsMask &&& 0b11 = 0b11 := by decide
  rw [Nat.and_assoc, low]
  exact valid

/-- The attributes of an entry fit into 64 bits. -/
theorem flags_lt (value : Nat) : value &&& flagsMask < 2 ^ 64 :=
  Nat.lt_of_le_of_lt Nat.and_le_right (by decide)

end EntryValue

section Memory

variable {mem next : Mem} {table : Nat}

/-- The block of one entry lies inside its table. -/
theorem entry_block_subset (table : Nat) (index : EntryIndex) :
    block (table + 8 * index.val) 8 ⊆ frame table := by
  intro address inside
  have bound := index.isLt
  simp only [frame, block, Set.mem_Ico] at *
  omega

/-- The entries of a table depend only on the bytes of its frame. -/
theorem entry_congr (same : Set.EqOn next mem (frame table)) (index : EntryIndex) :
    entry next table index = entry mem table index :=
  readLE_congr (same.mono (entry_block_subset table index))

/-- A written entry reads back. -/
theorem entry_setEntry (mem : Mem) (table : Nat) (index : EntryIndex) {value : Nat}
    (fits : value < 2 ^ 64) : entry (setEntry mem table index value) table index = value := by
  rw [entry, setEntry, readLE_writeLE]
  exact Nat.mod_eq_of_lt fits

/-- Writing one entry keeps the other entries of the table. -/
theorem entry_setEntry_of_ne (mem : Mem) (table value : Nat) {index other : EntryIndex}
    (distinct : other ≠ index) :
    entry (setEntry mem table index value) table other = entry mem table other := by
  have different : other.val ≠ index.val := fun same => distinct (Fin.ext same)
  exact readLE_writeLE_apart mem _ 8 value (by omega)

/-- Writing an entry leaves every byte outside the table alone. -/
theorem setEntry_outside (mem : Mem) (index : EntryIndex) (value : Nat) {address : Nat}
    (outside : address ∉ frame table) : setEntry mem table index value address = mem address :=
  writeLE_outside mem _ 8 value fun inside => outside (entry_block_subset table index inside)

/-- A written byte depends on no other byte of the memory. -/
theorem setEntry_congr {address : Nat} (same : next address = mem address) (table : Nat)
    (index : EntryIndex) (value : Nat) :
    setEntry next table index value address = setEntry mem table index value address := by
  simp [setEntry, writeLE, same]

/-- The entries of a zeroed table are zero. -/
theorem entry_zero (zero : ∀ address ∈ frame table, mem address = 0) (index : EntryIndex) :
    entry mem table index = 0 :=
  readLE_zero fun address inside => zero address (entry_block_subset table index inside)

/-- A link reads back, as long as its words fit. -/
theorem readLink_writeLink (mem : Mem) (frame : Nat) {link : FreeLink} (tag : link.tag < 2 ^ 64)
    (ptr : link.ptr < 2 ^ 64) : readLink (writeLink mem frame link) frame = link := by
  -- The pointer word lies behind the tag word, so the second write keeps the first.
  rw [readLink, writeLink, readLE_writeLE, readLE_writeLE_apart _ _ _ _ (by omega), readLE_writeLE]
  simp only [Nat.reducePow] at *
  rw [Nat.mod_eq_of_lt tag, Nat.mod_eq_of_lt ptr]

/-- A link occupies the first sixteen bytes of its frame. -/
theorem writeLink_outside (mem : Mem) (frame : Nat) (link : FreeLink) {address : Nat}
    (outside : address ∉ block frame 16) : writeLink mem frame link address = mem address := by
  simp only [block, Set.mem_Ico] at outside
  rw [writeLink, writeLE_outside, writeLE_outside]
  all_goals simp only [block, Set.mem_Ico]; omega

/-- The link of a frame depends only on the bytes of the frame. -/
theorem readLink_congr {pa : Nat} (same : Set.EqOn next mem (frame pa)) :
    readLink next pa = readLink mem pa := by
  have tag : readLE next pa 8 = readLE mem pa 8 :=
    readLE_congr (same.mono fun address inside => by
      simp only [frame, block, Set.mem_Ico] at *; omega)
  have ptr : readLE next (pa + 8) 8 = readLE mem (pa + 8) 8 :=
    readLE_congr (same.mono fun address inside => by
      simp only [frame, block, Set.mem_Ico] at *; omega)
  rw [readLink, readLink, tag, ptr]

end Memory

/-- The frame a valid entry points to. -/
def child (mem : Mem) (table : Nat) (index : EntryIndex) : Option Nat :=
  if IsValid (entry mem table index) then some (entry mem table index &&& addressMask) else none

section Child

variable {mem next : Mem} {table : Nat}

/-- The children of a table depend only on the bytes of its frame. -/
theorem child_congr (same : Set.EqOn next mem (frame table)) : child next table = child mem table := by
  funext index
  rw [child, child, entry_congr same index]

/-- A valid entry leads to the frame whose address it holds. -/
theorem child_of_valid {index : EntryIndex} (valid : IsValid (entry mem table index)) :
    child mem table index = some (entry mem table index &&& addressMask) := if_pos valid

/-- An entry that leads somewhere is valid. -/
theorem child_eq_some {index : EntryIndex} {pa : Nat} (found : child mem table index = some pa) :
    IsValid (entry mem table index) ∧ entry mem table index &&& addressMask = pa := by
  unfold child at found
  split at found
  · rename_i valid
    exact ⟨valid, Option.some.inj found⟩
  · cases found

/-- An entry leads nowhere exactly if it is not valid. -/
theorem child_eq_none {index : EntryIndex} :
    child mem table index = none ↔ ¬ IsValid (entry mem table index) := by
  simp [child]

/-- Writing a pointer makes the frame the child. -/
theorem child_setEntry (mem : Mem) (table : Nat) (index : EntryIndex) {pa flags : Nat}
    (isFrame : IsFrame pa) (valid : flags &&& 0b11 = 0b11)
    (attributes : flags &&& addressMask = 0) (fits : flags < 2 ^ 64) :
    child (setEntry mem table index (pa ||| flags)) table index = some pa := by
  rw [child, entry_setEntry mem table index (pointer_lt isFrame fits),
    if_pos (pointer_valid isFrame valid), pointer_address isFrame attributes]

/-- Writing zero removes the child. -/
theorem child_setEntry_zero (mem : Mem) (table : Nat) (index : EntryIndex) :
    child (setEntry mem table index 0) table index = none := by
  rw [child_eq_none, entry_setEntry mem table index (by decide)]
  decide

/-- Writing an entry leaves the other pointers of its table alone. -/
theorem child_setEntry_of_ne (mem : Mem) (table value : Nat) {index other : EntryIndex}
    (distinct : other ≠ index) :
    child (setEntry mem table index value) table other = child mem table other := by
  rw [child, child, entry_setEntry_of_ne mem table value distinct]

/-- A zeroed table has no children. -/
theorem child_zero (zero : ∀ address ∈ frame table, mem address = 0) (index : EntryIndex) :
    child mem table index = none := by
  rw [child_eq_none, entry_zero zero index]
  decide

end Child

section VirtualAddress

/-- The index of a table is cut out of the address. -/
theorem tableIndex_val (va shift : Nat) : (tableIndex va shift).val = va / 2 ^ shift % 512 := by
  have low := BitMasks.and_low (va >>> shift) 9
  rw [Nat.shiftRight_eq_div_pow] at low
  simpa [tableIndex, Nat.shiftRight_eq_div_pow] using low

/-- The indices a virtual address selects on the three levels. -/
def pagePath (va : Nat) : List EntryIndex := [l1Index va, l2Index va, l3Index va]

/-- A page is reached in three steps. -/
@[simp] theorem pagePath_length (va : Nat) : (pagePath va).length = 3 := rfl

/-- Below 2^39, two addresses select the same indices exactly when they lie in the same page. -/
theorem pagePath_inj {va other : Nat} (low : va < 2 ^ 39) (lowOther : other < 2 ^ 39) :
    pagePath va = pagePath other ↔ va / 4096 = other / 4096 := by
  -- The three indices are the digits of the page number in base 512.
  simp only [pagePath, l1Index, l2Index, l3Index, List.cons.injEq, and_true, Fin.ext_iff,
    tableIndex_val]
  omega

/-- The offset is what remains of the address within its page. -/
theorem pageOffset_eq (va : Nat) : va &&& 0xFFF = va % 4096 := BitMasks.and_low va 12

/-- Translation walks the three levels and adds the offset in the page. -/
theorem ttbr0ToPa_eq (mem : Mem) (va root : Nat) :
    ttbr0ToPa mem va root = (walk (child mem) root (pagePath va)).map (· + va % 4096) := by
  -- Each level either is invalid, and both sides stop, or names the next table.
  simp only [ttbr0ToPa, pagePath, walk_cons, walk_nil, child, pageOffset_eq]
  by_cases first : IsValid (entry mem root (l1Index va))
  · simp only [first, not_true_eq_false, if_false, if_true, Option.bind_some]
    by_cases second : IsValid
        (entry mem (entry mem root (l1Index va) &&& addressMask) (l2Index va))
    · simp only [second, not_true_eq_false, if_false, if_true, Option.bind_some]
      by_cases third : IsValid (entry mem (entry mem (entry mem root (l1Index va) &&& addressMask)
          (l2Index va) &&& addressMask) (l3Index va)) <;> simp [third]
    · simp [second]
  · simp [first]

end VirtualAddress

end AtOS
