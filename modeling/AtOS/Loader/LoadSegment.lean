import AtOS.Loader.ZeroBss

/-! One segment of a file: its pages are mapped, its bytes copied, and what is left zeroed. -/

namespace AtOS

open ByteMemory RadixForest

/-- The pages that are mapped for a segment. -/
def Elf64ProgHdr.pages (ph : Elf64ProgHdr) : Set Nat :=
  pageRange (ph.virtaddr / 4096) (ph.virtaddr + ph.memsize)

/-- The number of pages that are mapped for a segment. -/
def Elf64ProgHdr.pageCount (ph : Elf64ProgHdr) : Nat := (ph.virtaddr % 4096 + ph.memsize + 4095) / 4096

/-- Where the part of a segment ends that the file has. -/
def Elf64ProgHdr.fileEnd (ph : Elf64ProgHdr) : Nat := ph.virtaddr + ph.filesize

/-- Where a segment ends. -/
def Elf64ProgHdr.vaEnd (ph : Elf64ProgHdr) : Nat := ph.virtaddr + ph.memsize

/-- A segment that is in the file, and leaves room for the stack behind it. -/
structure Elf64ProgHdr.WellFormed (bytes : List UInt8) (ph : Elf64ProgHdr) : Prop where
  sizes : ph.filesize ≤ ph.memsize
  inFile : ph.offset + ph.filesize ≤ bytes.length
  low : (ph.virtaddr + ph.memsize + 0x16000) / 16 * 16 ≤ 2 ^ 39

/-- The zeroing of a segment stays inside the page it starts in. -/
def Elf64ProgHdr.Contained (ph : Elf64ProgHdr) : Prop :=
  ph.filesize < ph.memsize →
    2 * (ph.fileEnd % 4096) + zeroCount ph.fileEnd ph.vaEnd ≤ 4096

/-- A zeroing that stays in its page reaches nothing behind it. -/
theorem zeroOverrun_contained {leaf zeroVa vaEnd : Nat}
    (contained : 2 * (zeroVa % 4096) + zeroCount zeroVa vaEnd ≤ 4096) :
    zeroOverrun leaf zeroVa vaEnd = ∅ := by
  ext address
  simp only [zeroOverrun, overrun, Set.mem_ofPred_eq, Set.mem_empty_iff_false, iff_false]
  omega

/-- What a loaded segment looks like; in the gap are still bytes of the frame taken for it. -/
structure SegmentImage (start : PageAllocator) (taken : List Nat) (bytes : List UInt8)
    (ph : Elf64ProgHdr) (mem : Mem) (root : Nat) : Prop where
  file : ∀ i < ph.filesize, byteAt mem root (ph.virtaddr + i) = bytes[ph.offset + i]?
  zeroed : ∀ i < ph.memsize, ph.filesize ≤ i → ph.virtaddr + i ∈ zeroedBytes ph.fileEnd ph.vaEnd →
    byteAt mem root (ph.virtaddr + i) = some 0
  gap : ∀ i < ph.memsize, ph.filesize ≤ i → ph.virtaddr + i ∉ zeroedBytes ph.fileEnd ph.vaEnd →
    ∃ byte, byteAt mem root (ph.virtaddr + i) = some byte ∧
      FreshByte start taken ((ph.virtaddr + i) % 4096) byte

section Image

variable {start : PageAllocator} {taken more : List Nat} {bytes : List UInt8} {ph : Elf64ProgHdr}
  {mem next : Mem} {root : Nat}

/-- The bytes of a segment lie in its pages. -/
theorem Elf64ProgHdr.page_of_byte {i : Nat} (inside : i < ph.memsize) :
    (ph.virtaddr + i) / 4096 ∈ ph.pages := by
  constructor <;> omega

/-- The image stays as long as the bytes of its pages do. -/
theorem SegmentImage.keep (image : SegmentImage start taken bytes ph mem root)
    (wellFormed : ph.WellFormed bytes) (subset : ∀ pa ∈ taken, pa ∈ more)
    (same : ∀ va < 2 ^ 39, va / 4096 ∈ ph.pages → byteAt next root va = byteAt mem root va) :
    SegmentImage start more bytes ph next root := by
  have low := wellFormed.low
  have kept : ∀ i < ph.memsize, byteAt next root (ph.virtaddr + i) =
      byteAt mem root (ph.virtaddr + i) :=
    fun i inside => same _ (by omega) (ph.page_of_byte inside)
  refine ⟨fun i inside => ?_, fun i inside behind zeroed => ?_, fun i inside behind missed => ?_⟩
  · rw [kept i (Nat.lt_of_lt_of_le inside wellFormed.sizes)]
    exact image.file i inside
  · rw [kept i inside]
    exact image.zeroed i inside behind zeroed
  · obtain ⟨byte, present, fresh⟩ := image.gap i inside behind missed
    exact ⟨byte, (kept i inside).trans present, fresh.mono subset⟩

end Image

section Load

variable {start : PageAllocator} {roots : Set Nat} {free : List Nat} {managed : Set Nat}
  {root : Nat} {pages spill : Set Nat} {taken rest : List Nat} {bytes : List UInt8}
  {ph : Elf64ProgHdr}

/-- The slice of a segment that is in the file does not panic. -/
theorem segmentBytes_ok (wellFormed : ph.WellFormed bytes) (fits : bytes.length < 2 ^ 64) :
    segmentBytes bytes ph = .ok ((bytes.drop ph.offset).take ph.filesize) := by
  have inFile := wellFormed.inFile
  have noWrap : wrapping (ph.offset + ph.filesize) = ph.offset + ph.filesize :=
    Nat.mod_eq_of_lt (by omega)
  simp only [segmentBytes, noWrap]
  rw [if_pos (by omega), Nat.add_sub_cancel_left]

/-- Copying the file part writes exactly the bytes of the file. -/
theorem Loading.copySegment {alloc : PageAllocator}
    (loading : Loading start alloc roots free managed root pages spill taken rest)
    (wellFormed : ph.WellFormed bytes) (fits : bytes.length < 2 ^ 64) (mapped : ph.pages ⊆ pages) :
    ∃ after, AtOS.copySegment bytes ph root alloc = .ok after ∧
      Loading start after roots free managed root pages spill taken rest ∧
      ∀ other < 2 ^ 39, byteAt after.mem root other =
        if ph.virtaddr ≤ other ∧ other < ph.fileEnd then bytes[ph.offset + (other - ph.virtaddr)]?
        else byteAt alloc.mem root other := by
  have inFile := wellFormed.inFile
  have sizes := wellFormed.sizes
  have low := wellFormed.low
  by_cases some : ph.filesize > 0
  · -- The slice lies in the file, so it is as long as the segment says.
    have size : ((bytes.drop ph.offset).take ph.filesize).length = ph.filesize := by
      simp only [List.length_take, List.length_drop]
      omega
    have below : ph.virtaddr + ((bytes.drop ph.offset).take ph.filesize).length ≤ 2 ^ 39 := by omega
    obtain ⟨done, loaded, copied⟩ := loading.copyToPages below
      fun offset within => mapped (ph.page_of_byte (by omega))
    rw [AtOS.copySegment, if_pos some, segmentBytes_ok wellFormed fits]
    dsimp only
    generalize AtOS.copyToPages ((bytes.drop ph.offset).take ph.filesize) ph.virtaddr root alloc =
      result at done loaded copied
    obtain ⟨outcome, after⟩ := result
    subst done
    -- A byte of the segment comes from its place in the file, and the others stay.
    refine ⟨after, rfl, loaded, fun other lowOther => ?_⟩
    rw [copied other lowOther, size, ← Elf64ProgHdr.fileEnd]
    split
    · rename_i inside
      rw [List.getElem?_take_of_lt (by simp only [Elf64ProgHdr.fileEnd] at inside; omega),
        List.getElem?_drop]
    · rfl
  · -- Without a file part, nothing is copied.
    rw [AtOS.copySegment, if_neg some]
    refine ⟨alloc, rfl, loading, fun other _ => ?_⟩
    rw [if_neg (by simp only [Elf64ProgHdr.fileEnd]; omega)]

/-- Loading a segment builds its image, or runs out of frames. -/
theorem Loading.loadSegment {alloc : PageAllocator}
    (loading : Loading start alloc roots free managed root pages spill taken rest)
    (wellFormed : ph.WellFormed bytes) (fits : bytes.length < 2 ^ 64)
    (unmapped : Disjoint ph.pages pages) (safe : ph.Contained ∨ Spaced managed) :
    Loop.Yields
      (fun after => ∃ spill' used left, used.length ≤ 3 * ph.pageCount ∧
        Loading start after roots free managed root (pages ∪ ph.pages) spill' (taken ++ used) left ∧
        spill ⊆ spill' ∧ (ph.Contained → spill' = spill) ∧
        (¬ ph.Contained → ∃ leaf ∈ managed, zeroOverrun leaf ph.fileEnd ph.vaEnd ⊆ spill') ∧
        SegmentImage start (taken ++ used) bytes ph after.mem root ∧
        ∀ other < 2 ^ 39, other / 4096 ∉ ph.pages →
          byteAt after.mem root other = byteAt alloc.mem root other)
      (fun panic => (∃ message, panic = .outOfFrames message) ∧ rest.length < 3 * ph.pageCount)
      (AtOS.loadSegment bytes ph root alloc) := by
  have low := wellFormed.low
  have sizes := wellFormed.sizes
  -- All sums stay within the address space.
  have endNoWrap : wrapping (ph.virtaddr + ph.memsize) = ph.vaEnd := Nat.mod_eq_of_lt (by omega)
  have fileNoWrap : wrapping (ph.virtaddr + ph.filesize) = ph.fileEnd := Nat.mod_eq_of_lt (by omega)
  have masked : ph.virtaddr &&& 0xFFFFFFFFFFFFF000 = ph.virtaddr - ph.virtaddr % 4096 :=
    @BitMasks.and_range_eq_sub _ 12 64 (by decide) (by omega)
  have counted : (ph.vaEnd - (ph.virtaddr - ph.virtaddr % 4096) + 4095) / 4096 = ph.pageCount := by
    simp only [Elf64ProgHdr.vaEnd, Elf64ProgHdr.pageCount]
    omega
  -- The loop maps exactly the pages of the segment.
  have range : pageRange ((ph.virtaddr - ph.virtaddr % 4096) / 4096) ph.vaEnd = ph.pages := by
    rw [Elf64ProgHdr.pages, Elf64ProgHdr.vaEnd]
    congr 1
    omega
  have aligned : (ph.virtaddr - ph.virtaddr % 4096) % 4096 = 0 := by omega
  have fileBelow : ph.fileEnd = ph.virtaddr + ph.filesize := rfl
  have endBelow : ph.vaEnd = ph.virtaddr + ph.memsize := rfl
  have high : ph.vaEnd ≤ 2 ^ 39 := by omega
  have mapping := Loading.allocSegmentPages high maxPasses _ aligned
    (by rw [counted, Elf64ProgHdr.pageCount, maxPasses]; omega) loading
    (by rw [range]; exact fun page inside => Set.disjoint_left.mp unmapped inside)
  rw [counted, range] at mapping
  simp only [AtOS.loadSegment, endNoWrap, fileNoWrap, masked, bind]
  -- First the pages are mapped, which may run out of frames; nothing after that can fail.
  refine mapping.bind (fun panic early => early) fun mappedAlloc mapped => ?_
  obtain ⟨used, left, few, step, fresh⟩ := mapped
  obtain ⟨copied, copyDone, copyLoading, copyBytes⟩ :=
    step.copySegment wellFormed fits Set.subset_union_right
  rw [copyDone]
  simp only [Except.bind]
  -- The bytes of the file part are written, and all the others are those of fresh frames.
  have fileBytes : ∀ i < ph.filesize,
      byteAt copied.mem root (ph.virtaddr + i) = bytes[ph.offset + i]? := by
    intro i inside
    rw [copyBytes _ (by omega), if_pos (by omega), Nat.add_sub_cancel_left]
  have restBytes : ∀ i < ph.memsize, ph.filesize ≤ i → ∃ byte,
      byteAt copied.mem root (ph.virtaddr + i) = some byte ∧
        FreshByte start (taken ++ used) ((ph.virtaddr + i) % 4096) byte := by
    intro i inside behind
    rw [copyBytes _ (by omega), if_neg (by omega)]
    exact (fresh _ (by omega)).1 (ph.page_of_byte inside)
  -- Pages of other segments are not written.
  have otherBytes : ∀ other < 2 ^ 39, other / 4096 ∉ ph.pages →
      byteAt copied.mem root other = byteAt alloc.mem root other := by
    intro other lowOther outside
    rw [copyBytes other lowOther, if_neg, (fresh other lowOther).2 outside]
    rintro ⟨above, below⟩
    refine outside ?_
    constructor <;> omega
  -- Behind the file part, zeroing may leave the page, and then it leaves bytes of it out.
  by_cases more : ph.fileEnd < ph.vaEnd
  · rw [if_pos more]
    obtain ⟨leaf, after, found, done, loaded, zeroed⟩ := copyLoading.zeroBss high more
      (fun page below above => Or.inr ⟨by omega, by omega⟩)
      (safe.imp_left fun contained => contained (by omega))
    rw [done]
    refine .done ⟨_, used, left, few, loaded, Set.subset_union_left, ?_, ?_, ?_, ?_⟩
    · intro contained
      rw [zeroOverrun_contained (contained (by omega)), Set.union_empty]
    · intro _
      exact ⟨leaf, (copyLoading.owned.leaf_managed loading.live found).1, Set.subset_union_right⟩
    · -- The zeroed bytes are known, and those that are left out are as the frame was.
      refine ⟨fun i inside => ?_, fun i inside _ cleared => (zeroed _ (by omega)).1 cleared,
        fun i inside behind missed => ?_⟩
      · rw [(zeroed _ (by omega)).2 (Or.inl (by omega)), fileBytes i inside]
      · rw [(zeroed _ (by omega)).2 (Or.inr ⟨by omega, by omega, missed⟩)]
        exact restBytes i inside behind
    · intro other lowOther outside
      rw [(zeroed other lowOther).2 (Or.inl ?_), otherBytes other lowOther outside]
      rintro ⟨above, below⟩
      refine outside ?_
      constructor <;> omega
  · -- There is nothing behind the file part.
    rw [if_neg more]
    refine .done ⟨spill, used, left, few, copyLoading, Set.Subset.rfl, fun _ => rfl, ?_, ?_,
      otherBytes⟩
    · intro spills
      exact absurd (fun some => absurd some (by omega)) spills
    · exact ⟨fileBytes, fun i inside behind => absurd behind (by omega),
        fun i inside behind => absurd behind (by omega)⟩

end Load

end AtOS
