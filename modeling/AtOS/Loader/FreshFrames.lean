import AtOS.Loader.Image
import AtOS.Paging.Scrubbing
import Mathlib.Tactic.IntervalCases

/-! What a free frame holds: a tag, a page aligned pointer, and zeros. -/

namespace AtOS

open ByteMemory RadixForest

/-- The offsets in a free frame of the bytes of its pointer that page alignment does not clear. -/
def pointerBytes : Set Nat := { offset | 9 ≤ offset ∧ offset < 16 }

section Bytes

variable {alloc : PageAllocator} {roots : Set Nat} {free : List Nat} {managed : Set Nat}

/-- The upper half of a pointer to a free frame is not zero. -/
theorem FreeChain.pointer_byte {mem : Mem} {link : FreeLink} {pa next : Nat} {before behind : List Nat}
    (chain : FreeChain mem link (before ++ pa :: next :: behind)) (isFrame : IsFrame next) :
    mem (pa + 12) ≠ 0 := by
  have digit := @readLE_digit mem (pa + 8) 8 4 (by decide)
  have pointer := congrArg FreeLink.ptr chain.link_next
  obtain ⟨-, small⟩ := isFrame
  simp only [readLink] at pointer
  rw [pointer, ttbr1ToVa_eq small] at digit
  intro zero
  rw [show pa + 8 + 4 = pa + 12 by omega, zero, UInt8.toNat_zero] at digit
  omega

/-- Outside the tag's first byte and the pointer, a free frame is zero. -/
theorem Owned.free_byte_zero (owned : Owned alloc roots free managed) {pa offset : Nat}
    (listed : pa ∈ free) (inFrame : offset < 4096) (notTag : offset ≠ 0)
    (notPointer : offset ∉ pointerBytes) : alloc.mem (pa + offset) = 0 := by
  -- A free frame holds a link in its first two words, and zeros behind them.
  obtain ⟨zero, tag, aligned⟩ := owned.chain.link_of_mem (fun _ => owned.free_frame) listed
  simp only [pointerBytes, Set.mem_ofPred_eq, not_and, not_lt] at notPointer
  rcases Nat.lt_or_ge offset 16 with link | behind
  · rw [← UInt8.toNat_inj, UInt8.toNat_zero]
    -- The tag is at most one, so only its lowest byte can be set.
    rcases Nat.lt_or_ge offset 8 with inTag | inPointer
    · rw [← readLE_digit inTag]
      have small : (readLink alloc.mem pa).tag / 256 ^ offset = 0 := by
        have one : 256 ^ 1 ≤ 256 ^ offset := Nat.pow_le_pow_right (by decide) (by omega)
        exact Nat.div_eq_of_lt (by omega)
      simp only [readLink] at small
      rw [small]
    · -- The lowest byte of a pointer to a frame is zero, as frames are aligned.
      have first : offset = 8 := by omega
      have digit := @readLE_digit alloc.mem (pa + 8) 8 0 (by decide)
      simp only [readLink] at aligned
      subst first
      rw [Nat.add_zero] at digit
      rw [← digit]
      omega
  · exact zero _ (by simp only [block, Set.mem_Ico]; omega)

end Bytes

section Telltale

/-- An address none of whose bytes is zero, but the lowest, which page alignment clears. -/
def Marked (va : Nat) : Prop := ∀ position, 1 ≤ position → position < 8 → va / 256 ^ position % 256 ≠ 0

/-- A pool in which a byte that was left alone can be told from one that was zeroed. -/
structure Telltale (alloc : PageAllocator) (free : List Nat) (managed : Set Nat) : Prop where
  owned : Owned alloc ∅ free managed
  head : Marked alloc.freeFrameList.ptr
  links : ∀ pa ∈ free, ∀ offset ∈ pointerBytes, alloc.mem (pa + offset) ≠ 0
  around : ∀ address, (∀ pa ∈ managed, address ∉ frame pa) → alloc.mem address ≠ 0

/-- Pushing a stray frame with a marked address keeps such a pool. -/
theorem Telltale.push {alloc : PageAllocator} {free : List Nat} {managed : Set Nat} {pa : Nat}
    (pool : Telltale alloc free managed) (isFrame : IsFrame pa) (stray : pa ∉ managed)
    (marked : Marked (ttbr1ToVa pa)) :
    Telltale (addFreeFrame (ttbr1ToVa pa) alloc) (pa :: free) (insert pa managed) := by
  refine ⟨pool.owned.push isFrame stray, ?_, ?_, ?_⟩
  · rw [addFreeFrame_eq alloc isFrame]
    exact marked
  · intro other listed offset inPointer
    obtain ⟨low, high⟩ := inPointer
    -- The frame is the new one, or it was in the list before.
    rcases List.mem_cons.mp listed with rfl | later
    · -- The pointer of the new frame is the old head of the list.
      obtain ⟨tag, -, fits⟩ := pool.owned.link_words
      have linked : readLink (addFreeFrame (ttbr1ToVa other) alloc).mem other =
          alloc.freeFrameList := by
        rw [addFreeFrame_eq alloc isFrame]
        exact readLink_writeLink _ other (by omega) fits
      have digit := @readLE_digit (addFreeFrame (ttbr1ToVa other) alloc).mem (other + 8) 8
        (offset - 8) (by omega)
      have pointer := congrArg FreeLink.ptr linked
      simp only [readLink] at pointer
      rw [pointer, show other + 8 + (offset - 8) = other + offset by omega] at digit
      intro zero
      rw [zero] at digit
      exact pool.head (offset - 8) (by omega) (by omega) digit
    · -- An older frame is not written.
      have distinct : other ≠ pa := by
        rintro rfl
        exact stray (pool.owned.free_managed later)
      rw [addFreeFrame_outside alloc isFrame
        (frame_disjoint (pool.owned.free_frame later) isFrame distinct
          (by simp only [frame, block, Set.mem_Ico]; omega))]
      exact pool.links other later offset ⟨low, high⟩
  · -- Outside of all frames, nothing is written.
    intro address outside
    rw [addFreeFrame_outside alloc isFrame (outside pa (Set.mem_insert _ _))]
    exact pool.around address fun other member => outside other (Set.mem_insert_of_mem _ member)

/-- Frames that are spread over memory so that their addresses are marked. -/
def spreadFrame (k : Nat) : Nat :=
  0x0101F000 + k % 128 * 2 ^ 17 + k / 128 % 128 * 2 ^ 25 + k / 16384 * 2 ^ 32

/-- The frames of the pool are aligned, and lie in the window. -/
theorem spreadFrame_isFrame {k : Nat} (few : k < 2 ^ 21) : IsFrame (spreadFrame k) := by
  simp only [spreadFrame]
  constructor <;> omega

/-- No two of them are the same. -/
theorem spreadFrame_inj {k other : Nat} (same : spreadFrame k = spreadFrame other) : k = other := by
  simp only [spreadFrame] at same
  omega

/-- No byte of their addresses in the window is zero, but for the lowest. -/
theorem spreadFrame_marked {k : Nat} (few : k < 2 ^ 21) : Marked (ttbr1ToVa (spreadFrame k)) := by
  intro position low high
  rw [ttbr1ToVa_eq (spreadFrame_isFrame few).2, spreadFrame]
  interval_cases position <;> omega

/-- There are such pools of spaced frames, up to 8 GiB of them. -/
theorem exists_telltale {count : Nat} (few : count ≤ 2 ^ 21) :
    ∃ alloc free managed, Telltale alloc free managed ∧ free.length = count ∧ Spaced managed := by
  -- The pool has a frame in every other place, so no two of them touch.
  suffices pools : ∃ alloc free, Telltale alloc free { pa | ∃ k < count, pa = spreadFrame k } ∧
      free.length = count by
    obtain ⟨alloc, free, pool, size⟩ := pools
    refine ⟨alloc, free, _, pool, size, ?_⟩
    rintro pa ⟨k, -, rfl⟩ ⟨other, -, next⟩
    simp only [spreadFrame] at next
    omega
  -- The induction is on the number of frames, which are pushed one after the other.
  induction count with
  | zero =>
    refine ⟨⟨fun _ => 0xFF, ⟨0, 0xFFFFFFFFFFFFF000⟩, 0, 0⟩, [], ?_, rfl⟩
    have nothing : { pa | ∃ k < 0, pa = spreadFrame k } = ∅ := by simp
    rw [nothing]
    refine ⟨Owned.empty _ rfl (by decide) (by decide) 0, ?_, by simp,
      fun _ _ => (by decide : (0xFF : UInt8) ≠ 0)⟩
    intro position low high
    interval_cases position <;> decide
  | succ count ih =>
    obtain ⟨alloc, free, pool, size⟩ := ih (by omega)
    -- The next frame is not among those before it.
    have stray : spreadFrame count ∉ { pa | ∃ k < count, pa = spreadFrame k } := by
      rintro ⟨k, below, same⟩
      have := spreadFrame_inj same
      omega
    have pushed := pool.push (spreadFrame_isFrame (by omega)) stray (spreadFrame_marked (by omega))
    have whole : insert (spreadFrame count) { pa | ∃ k < count, pa = spreadFrame k } =
        { pa | ∃ k < count + 1, pa = spreadFrame k } := by
      ext pa
      simp only [Set.mem_insert_iff, Set.mem_ofPred_eq, Nat.lt_succ_iff_lt_or_eq]
      constructor
      · rintro (rfl | ⟨k, below, rfl⟩)
        · exact ⟨count, Or.inr rfl, rfl⟩
        · exact ⟨k, Or.inl below, rfl⟩
      · rintro ⟨k, below | rfl, rfl⟩
        · exact Or.inr ⟨k, below, rfl⟩
        · exact Or.inl rfl
    rw [whole] at pushed
    exact ⟨_, _, pushed, by rw [List.length_cons, size]⟩

end Telltale

end AtOS
