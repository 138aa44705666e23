import AtOS.Loader.LoadSegment

/-! The whole image: all segments of a file one after the other, and then the stack. -/

namespace AtOS

open ByteMemory RadixForest

/-- The segments the loop visits: it stops at the first header that is not inside the file. -/
def segmentsAt (bytes : List UInt8) (start : Nat) (indices : List Nat) : List Elf64ProgHdr :=
  ((indices.takeWhile fun i => start + i * phSize + phSize ≤ bytes.length).map
    fun i => Elf64ProgHdr.read bytes (start + i * phSize)).filter fun ph => ph.type = ptLoad

/-- The PT_LOAD headers of a file. -/
def Elf64Hdr.segments (header : Elf64Hdr) (bytes : List UInt8) : List Elf64ProgHdr :=
  segmentsAt bytes header.phoff (List.range header.phnum)

/-- The pages of all segments. -/
def imagePages (segments : List Elf64ProgHdr) : Set Nat := { page | ∃ ph ∈ segments, page ∈ ph.pages }

/-- The number of pages of all segments. -/
def imagePageCount (segments : List Elf64ProgHdr) : Nat := (segments.map Elf64ProgHdr.pageCount).sum

/-- The highest end of a segment, or of what was loaded before. -/
def imageEnd (segments : List Elf64ProgHdr) (before : Nat) : Nat :=
  segments.foldl (fun top ph => max top ph.vaEnd) before

/-- The headers of the segments are well formed, and no two segments share a page. -/
structure WellFormedSegments (bytes : List UInt8) (segments : List Elf64ProgHdr) : Prop where
  each : ∀ ph ∈ segments, ph.WellFormed bytes
  apart : segments.Pairwise fun one two => Disjoint one.pages two.pages

section Headers

variable {bytes : List UInt8} {start i : Nat} {indices : List Nat}

/-- At the first header that lies outside of the file, the table ends. -/
theorem segmentsAt_outside (outside : ¬ start + i * phSize + phSize ≤ bytes.length) :
    segmentsAt bytes start (i :: indices) = [] := by
  simp [segmentsAt, outside]

/-- A header of type `LOAD` is a segment. -/
theorem segmentsAt_load (inside : start + i * phSize + phSize ≤ bytes.length)
    (load : (Elf64ProgHdr.read bytes (start + i * phSize)).type = ptLoad) :
    segmentsAt bytes start (i :: indices) =
      Elf64ProgHdr.read bytes (start + i * phSize) :: segmentsAt bytes start indices := by
  simp [segmentsAt, inside, load]

/-- Any other header is passed over. -/
theorem segmentsAt_other (inside : start + i * phSize + phSize ≤ bytes.length)
    (other : (Elf64ProgHdr.read bytes (start + i * phSize)).type ≠ ptLoad) :
    segmentsAt bytes start (i :: indices) = segmentsAt bytes start indices := by
  simp [segmentsAt, inside, other]

end Headers

section Ends

variable {segments : List Elf64ProgHdr}

/-- The end of the image is at or above the end of each segment. -/
theorem le_imageEnd (segments : List Elf64ProgHdr) (before : Nat) :
    before ≤ imageEnd segments before ∧ ∀ ph ∈ segments, ph.vaEnd ≤ imageEnd segments before := by
  induction segments generalizing before with
  | nil => exact ⟨Nat.le_refl _, by simp⟩
  | cons ph segments ih =>
    obtain ⟨above, each⟩ := ih (max before ph.vaEnd)
    refine ⟨Nat.le_trans (Nat.le_max_left _ _) above, fun other member => ?_⟩
    rcases List.mem_cons.mp member with rfl | later
    · exact Nat.le_trans (Nat.le_max_right _ _) above
    · exact each other later

/-- The stack of an image of well-formed segments stays low. -/
theorem imageEnd_low {bytes : List UInt8} (wellFormed : ∀ ph ∈ segments, ph.WellFormed bytes)
    {before : Nat} (low : (before + 0x16000) / 16 * 16 ≤ 2 ^ 39) :
    (imageEnd segments before + 0x16000) / 16 * 16 ≤ 2 ^ 39 := by
  induction segments generalizing before with
  | nil => exact low
  | cons ph segments ih =>
    refine ih (fun other member => wellFormed other (by simp [member])) ?_
    have own := (wellFormed ph (by simp)).low
    simp only [Elf64ProgHdr.vaEnd]
    omega

end Ends

section Segments

variable {start : PageAllocator} {roots : Set Nat} {free : List Nat} {managed : Set Nat}
  {root : Nat} {bytes : List UInt8}

/-- What the loop over the program headers has done, since a state of the loading. -/
structure SegmentsLoaded (start : PageAllocator) (roots : Set Nat) (free : List Nat)
    (managed : Set Nat) (root : Nat) (bytes : List UInt8) (segments : List Elf64ProgHdr)
    (pages spill : Set Nat) (taken : List Nat) (before after : LoadState) (spilled : Set Nat)
    (used left : List Nat) : Prop where
  few : used.length ≤ 3 * imagePageCount segments
  loading : Loading start after.alloc roots free managed root (pages ∪ imagePages segments) spilled
    (taken ++ used) left
  grows : spill ⊆ spilled
  contained : (∀ ph ∈ segments, ph.Contained) → spilled = spill
  overrun : ∀ ph ∈ segments, ¬ ph.Contained →
    ∃ leaf ∈ managed, zeroOverrun leaf ph.fileEnd ph.vaEnd ⊆ spilled
  image : ∀ ph ∈ segments, SegmentImage start (taken ++ used) bytes ph after.alloc.mem root
  others : ∀ va < 2 ^ 39, va / 4096 ∉ imagePages segments →
    byteAt after.alloc.mem root va = byteAt before.alloc.mem root va
  top : after.maxAllocatedAddr = imageEnd segments before.maxAllocatedAddr
  any : after.loadedAnySegments = (before.loadedAnySegments || !segments.isEmpty)

/-- Nothing has been done when no segment is left. -/
theorem SegmentsLoaded.nothing {pages spill : Set Nat} {taken rest : List Nat} {state : LoadState}
    (loading : Loading start state.alloc roots free managed root pages spill taken rest) :
    SegmentsLoaded start roots free managed root bytes [] pages spill taken state state spill []
      rest := by
  have none : imagePages [] = ∅ := by simp [imagePages]
  refine ⟨Nat.zero_le _, ?_, Set.Subset.rfl, fun _ => rfl, by simp, by simp, fun _ _ _ => rfl, rfl,
    by simp⟩
  rw [none, Set.union_empty, List.append_nil]
  exact loading

/-- The pages of the image are those of its segments. -/
theorem imagePages_cons (ph : Elf64ProgHdr) (segments : List Elf64ProgHdr) :
    imagePages (ph :: segments) = ph.pages ∪ imagePages segments := by
  ext page
  simp [imagePages]

/-- Likewise they are counted segment by segment. -/
theorem imagePageCount_cons (ph : Elf64ProgHdr) (segments : List Elf64ProgHdr) :
    imagePageCount (ph :: segments) = ph.pageCount + imagePageCount segments := by
  simp [imagePageCount]

/-- Pages that belong to no segment lie outside of the image. -/
theorem disjoint_imagePages {pages : Set Nat} {segments : List Elf64ProgHdr}
    (apart : ∀ ph ∈ segments, Disjoint pages ph.pages) : Disjoint pages (imagePages segments) := by
  rw [Set.disjoint_left]
  rintro page inside ⟨ph, member, other⟩
  exact Set.disjoint_left.mp (apart ph member) inside other

/-- The first segment and what has been done for the others make up the whole. -/
theorem SegmentsLoaded.cons {ph : Elf64ProgHdr} {segments : List Elf64ProgHdr}
    {pages spill spilled spilledLater : Set Nat} {taken used usedLater left : List Nat}
    {before after : LoadState} {middle : PageAllocator} {top : Nat}
    (wellFormed : WellFormedSegments bytes (ph :: segments))
    (count : used.length ≤ 3 * ph.pageCount) (grows : spill ⊆ spilled)
    (clean : ph.Contained → spilled = spill)
    (ended : ¬ ph.Contained → ∃ leaf ∈ managed, zeroOverrun leaf ph.fileEnd ph.vaEnd ⊆ spilled)
    (image : SegmentImage start (taken ++ used) bytes ph middle.mem root)
    (others : ∀ va < 2 ^ 39, va / 4096 ∉ ph.pages →
      byteAt middle.mem root va = byteAt before.alloc.mem root va)
    (highest : top = max before.maxAllocatedAddr ph.vaEnd)
    (later : SegmentsLoaded start roots free managed root bytes segments (pages ∪ ph.pages) spilled
      (taken ++ used) ⟨middle, top, true⟩ after spilledLater usedLater left) :
    SegmentsLoaded start roots free managed root bytes (ph :: segments) pages spill taken before
      after spilledLater (used ++ usedLater) left := by
  -- The pages of the first segment are not those of the segments behind.
  obtain ⟨apart, -⟩ := List.pairwise_cons.mp wellFormed.apart
  refine ⟨?_, ?_, grows.trans later.grows, ?_, ?_, ?_, ?_, ?_, ?_⟩
  · have rest := later.few
    rw [imagePageCount_cons, List.length_append]
    omega
  · rw [imagePages_cons, ← Set.union_assoc, ← List.append_assoc]
    exact later.loading
  · intro contained
    rw [later.contained fun other member => contained other (by simp [member]),
      clean (contained ph (by simp))]
  · -- What is zeroed outside of a page is cleared by the segment itself, or later.
    intro other member spills
    rcases List.mem_cons.mp member with rfl | inside
    · obtain ⟨leaf, leafManaged, reached⟩ := ended spills
      exact ⟨leaf, leafManaged, reached.trans later.grows⟩
    · exact later.overrun other inside spills
  · -- The bytes of a segment are kept by the segments behind it, which have other pages.
    intro other member
    rw [← List.append_assoc]
    rcases List.mem_cons.mp member with rfl | inside
    · refine image.keep (wellFormed.each other (by simp)) (fun pa listed => List.mem_append_left _ listed)
        fun va low inPage => later.others va low fun elsewhere => ?_
      exact Set.disjoint_left.mp (disjoint_imagePages apart) inPage elsewhere
    · exact later.image other inside
  · intro va low outside
    rw [imagePages_cons, Set.mem_union, not_or] at outside
    rw [later.others va low outside.2, others va low outside.1]
  · rw [later.top, highest]
    rfl
  · rw [later.any]
    simp

/-- The loop over the program headers loads every segment, or runs out of frames. -/
theorem Loading.loadSegments {tableStart : Nat} (fits : bytes.length < 2 ^ 64) :
    ∀ (indices : List Nat) {pages spill : Set Nat} {taken rest : List Nat} {state : LoadState},
      Loading start state.alloc roots free managed root pages spill taken rest →
      (∀ i ∈ indices, tableStart + i * phSize + phSize < 2 ^ 64) →
      WellFormedSegments bytes (segmentsAt bytes tableStart indices) →
      Disjoint (imagePages (segmentsAt bytes tableStart indices)) pages →
      ((∀ ph ∈ segmentsAt bytes tableStart indices, ph.Contained) ∨ Spaced managed) →
      Loop.Yields
        (fun after => ∃ spilled used left, SegmentsLoaded start roots free managed root bytes
          (segmentsAt bytes tableStart indices) pages spill taken state after spilled used left)
        (fun panic => (∃ message, panic = .outOfFrames message) ∧
          rest.length < 3 * imagePageCount (segmentsAt bytes tableStart indices))
        (AtOS.loadSegments bytes tableStart root indices state) := by
  intro indices
  -- The induction is on the headers still to come; a PT_LOAD header adds its image to the rest.
  induction indices with
  | nil =>
    intro pages spill taken rest state loading _ _ _ _
    exact .done ⟨spill, [], rest, .nothing loading⟩
  | cons i indices ih =>
    intro pages spill taken rest state loading noWrap wellFormed unmapped safe
    have here := noWrap i (by simp)
    have later : ∀ j ∈ indices, tableStart + j * phSize + phSize < 2 ^ 64 :=
      fun j member => noWrap j (by simp [member])
    -- Neither of the two sums wraps, as the table lies within 64 bits.
    have offsetNoWrap : wrapping (tableStart + i * phSize) = tableStart + i * phSize :=
      Nat.mod_eq_of_lt (by omega)
    have limitNoWrap : wrapping (tableStart + i * phSize + phSize) =
        tableStart + i * phSize + phSize := Nat.mod_eq_of_lt here
    simp only [AtOS.loadSegments, offsetNoWrap, limitNoWrap]
    by_cases inside : tableStart + i * phSize + phSize ≤ bytes.length
    · rw [if_neg (by omega)]
      by_cases load : (Elf64ProgHdr.read bytes (tableStart + i * phSize)).type = ptLoad
      · -- The segment needs pages that are not mapped yet, or the load stops.
        rw [if_pos load]
        rw [segmentsAt_load inside load] at wellFormed unmapped safe ⊢
        generalize Elf64ProgHdr.read bytes (tableStart + i * phSize) = ph at *
        have own := wellFormed.each ph (by simp)
        -- The highest address is that of the segments so far.
        have highest : (if wrapping (ph.virtaddr + ph.memsize) > state.maxAllocatedAddr then
            wrapping (ph.virtaddr + ph.memsize) else state.maxAllocatedAddr) =
            max state.maxAllocatedAddr ph.vaEnd := by
          have low := own.low
          rw [show wrapping (ph.virtaddr + ph.memsize) = ph.vaEnd from Nat.mod_eq_of_lt (by omega)]
          split <;> omega
        obtain ⟨apart, apartRest⟩ := List.pairwise_cons.mp wellFormed.apart
        rw [imagePages_cons, Set.disjoint_union_left] at unmapped
        have first := loading.loadSegment own fits unmapped.1
          (safe.imp_left fun all => all ph (by simp))
        generalize AtOS.loadSegment bytes ph root state.alloc = result at first
        cases first with
        | stopped early =>
          obtain ⟨message, few⟩ := early
          refine .stopped ⟨message, ?_⟩
          rw [imagePageCount_cons]
          omega
        -- The pages of the segments behind are still free.
        | @done middle step =>
          obtain ⟨spilled, used, left, few, step, grows, clean, ended, image, others⟩ := step
          have restUnmapped : Disjoint (imagePages (segmentsAt bytes tableStart indices))
              (pages ∪ ph.pages) := by
            rw [Set.disjoint_union_right]
            exact ⟨unmapped.2, (disjoint_imagePages apart).symm⟩
          have lengths : rest.length = used.length + left.length := by
            have parts := congrArg List.length (loading.free_eq.symm.trans step.free_eq)
            simp only [List.length_append] at parts
            omega
          refine (ih step later ⟨fun other member => wellFormed.each other (by simp [member]),
            apartRest⟩ restUnmapped (safe.imp_left fun all other member =>
              all other (by simp [member]))).imp ?_ ?_
          · rintro after ⟨spilledLater, usedLater, leftLater, loaded⟩
            exact ⟨spilledLater, used ++ usedLater, leftLater,
              .cons wellFormed few grows clean ended image others highest loaded⟩
          · -- When a later segment stops the load, all of them together need more frames than there
            -- are.
            rintro panic ⟨message, fewer⟩
            refine ⟨message, ?_⟩
            rw [imagePageCount_cons]
            omega
      · -- Headers of other types are passed over.
        rw [if_neg load]
        rw [segmentsAt_other inside load] at wellFormed unmapped safe ⊢
        exact ih loading later wellFormed unmapped safe
    · rw [if_pos (by omega), segmentsAt_outside inside]
      exact .done ⟨spill, [], rest, .nothing loading⟩

end Segments

section Stack

variable {start : PageAllocator} {roots : Set Nat} {free : List Nat} {managed : Set Nat}
  {root : Nat}

/-- The pages below a stack top with the given positions. -/
def stackPages (stackTop : Nat) (positions : List Nat) : Set Nat :=
  { page | ∃ i ∈ positions, page = (stackTop - i * 4096 - 1) / 4096 }

/-- The loop over the pages of the stack maps all of them, or runs out of frames. -/
theorem Loading.allocStackPages {stackTop : Nat} (high : stackTop ≤ 2 ^ 39) :
    ∀ (positions : List Nat) {alloc : PageAllocator} {pages spill : Set Nat} {taken rest : List Nat},
      positions.Nodup → (∀ i ∈ positions, (i + 1) * 4096 ≤ stackTop) →
      Loading start alloc roots free managed root pages spill taken rest →
      Disjoint (stackPages stackTop positions) pages →
      Loop.Yields
        (fun after => ∃ used left, used.length ≤ 3 * positions.length ∧
          Loading start after roots free managed root (pages ∪ stackPages stackTop positions) spill
            (taken ++ used) left ∧
          ∀ va < 2 ^ 39, va / 4096 ∉ stackPages stackTop positions →
            byteAt after.mem root va = byteAt alloc.mem root va)
        (fun panic => (∃ message, panic = .outOfFrames message) ∧
          rest.length < 3 * positions.length)
        (AtOS.allocStackPages stackTop root positions alloc) := by
  intro positions
  -- The induction is on the positions still to come; each one is a page that is not mapped yet.
  induction positions with
  | nil =>
    intro alloc pages spill taken rest _ _ loading _
    have none : stackPages stackTop [] = ∅ := by simp [stackPages]
    refine .done ⟨[], rest, Nat.zero_le _, ?_, fun _ _ _ => rfl⟩
    rw [none, Set.union_empty, List.append_nil]
    exact loading
  | cons i positions ih =>
    intro alloc pages spill taken rest nodup room loading unmapped
    obtain ⟨fresh, nodup⟩ := List.nodup_cons.mp nodup
    have here := room i (by simp)
    -- The stack grows down from its top, without wrapping.
    have address : wrapping (stackTop + 2 ^ 64 - i * 4096 - 1) = stackTop - i * 4096 - 1 := by
      rw [wrapping, show stackTop + 2 ^ 64 - i * 4096 - 1 = stackTop - i * 4096 - 1 + 2 ^ 64 by omega,
        Nat.add_mod_right, Nat.mod_eq_of_lt (by omega)]
    have split : stackPages stackTop (i :: positions) =
        insert ((stackTop - i * 4096 - 1) / 4096) (stackPages stackTop positions) := by
      ext page
      simp [stackPages]
    -- Each position is a page of its own.
    have unused : (stackTop - i * 4096 - 1) / 4096 ∉ stackPages stackTop positions := by
      rintro ⟨j, member, same⟩
      have other := room j (by simp [member])
      exact fresh ((by omega : j = i) ▸ member)
    rw [split, Set.disjoint_insert_left] at unmapped
    rw [AtOS.allocStackPages, address]
    rcases result : AtOS.allocPage (stackTop - i * 4096 - 1) root alloc with panic | ⟨pa, middle⟩
    · -- The load stops at a page for want of frames,
      obtain ⟨message, few⟩ := loading.allocPage_error (by omega) unmapped.1 result
      refine .stopped ⟨message, ?_⟩
      rw [List.length_cons]
      omega
    · -- or the page is mapped, and the others are still to come.
      obtain ⟨used, left, count, step, -, bytes⟩ := loading.allocPage_ok (by omega) result
      have lengths : rest.length = used.length + left.length := by
        have parts := congrArg List.length (loading.free_eq.symm.trans step.free_eq)
        simp only [List.length_append] at parts
        omega
      refine (ih nodup (fun j member => room j (by simp [member])) step
        (Set.disjoint_insert_right.mpr ⟨unused, unmapped.2⟩)).imp ?_ ?_
      · rintro after ⟨usedLater, leftLater, countLater, loaded, others⟩
        refine ⟨used ++ usedLater, leftLater, ?_, ?_, fun va low outside => ?_⟩
        · rw [List.length_append, List.length_cons]
          omega
        · rw [split, Set.union_insert, ← Set.insert_union, ← List.append_assoc]
          exact loaded
        · rw [split, Set.mem_insert_iff, not_or] at outside
          rw [others va low outside.2, bytes va low, if_neg outside.1]
      · -- More frames would have been needed for all positions.
        rintro panic ⟨message, few⟩
        refine ⟨message, ?_⟩
        rw [List.length_cons]
        omega

end Stack

section Elf

/-- A file with the magic number, whose headers are well formed. -/
structure WellFormedElf (bytes : List UInt8) (header : Elf64Hdr) : Prop where
  verified : Elf64Hdr.mkfrombytes bytes = some header
  /-- A slice has less than 2^64 bytes, and the header table does not go round the address space. -/
  fits : bytes.length < 2 ^ 64
  table : header.phoff + header.phnum * phSize < 2 ^ 64
  segments : WellFormedSegments bytes (header.segments bytes)

/-- The top of the stack, which lies above all segments with a gap below it. -/
def stackTopOf (segments : List Elf64ProgHdr) : Nat := (imageEnd segments 0 + 0x16000) / 16 * 16

/-- Enough frames for an image: a root, and three for every page of a segment or the stack. -/
def framesNeeded (segments : List Elf64ProgHdr) : Nat := 1 + 3 * (imagePageCount segments + 14)

/-- What `load_elf` leaves behind: a new address space with the image and a stack. -/
structure ImageLoaded (alloc after : PageAllocator) (roots : Set Nat) (free : List Nat)
    (managed : Set Nat) (bytes : List UInt8) (segments : List Elf64ProgHdr) (root : Nat)
    (spill : Set Nat) (taken rest : List Nat) : Prop where
  free_eq : free = root :: (taken ++ rest)
  few : taken.length < framesNeeded segments
  fresh : root ∉ roots
  loading : Loading alloc after roots (taken ++ rest) managed root
    (imagePages segments ∪ stackPages (stackTopOf segments) (List.range 14)) spill taken rest
  image : ∀ ph ∈ segments, SegmentImage alloc taken bytes ph after.mem root
  contained : (∀ ph ∈ segments, ph.Contained) → spill = ∅
  overrun : ∀ ph ∈ segments, ¬ ph.Contained →
    ∃ leaf ∈ managed, zeroOverrun leaf ph.fileEnd ph.vaEnd ⊆ spill

/-- The ways `load_elf` ends on a well-formed file. -/
inductive LoadElfOutcome (alloc : PageAllocator) (roots : Set Nat) (free : List Nat)
    (managed : Set Nat) (bytes : List UInt8) (header : Elf64Hdr) :
    Except Panic (Except String (Nat × Nat × Nat) × PageAllocator) → Prop where
  | loaded {after : PageAllocator} {root : Nat} {spill : Set Nat} {taken rest : List Nat}
      (some : header.segments bytes ≠ [])
      (image : ImageLoaded alloc after roots free managed bytes (header.segments bytes) root spill
        taken rest) :
      LoadElfOutcome alloc roots free managed bytes header
        (.ok (.ok (header.entry, stackTopOf (header.segments bytes), root), after))
  /-- The root that was popped is not given back. -/
  | noSegments {after : PageAllocator} {root : Nat} {rest : List Nat}
      (none : header.segments bytes = []) (free_eq : free = root :: rest) (fresh : root ∉ roots)
      (loading : Loading alloc after roots rest managed root ∅ ∅ [] rest) :
      LoadElfOutcome alloc roots free managed bytes header
        (.ok (.error "No loadable segments found in ELF file", after))
  | outOfFrames {message : String} (few : free.length < framesNeeded (header.segments bytes)) :
      LoadElfOutcome alloc roots free managed bytes header (.error (.outOfFrames message))

variable {alloc : PageAllocator} {roots : Set Nat} {free : List Nat} {managed : Set Nat}
  {bytes : List UInt8} {header : Elf64Hdr}

/-- The stack lies above all segments. -/
theorem stackPages_apart (segments : List Elf64ProgHdr) :
    Disjoint (stackPages (stackTopOf segments) (List.range 14)) (imagePages segments) := by
  rw [Set.disjoint_left]
  rintro page ⟨i, position, rfl⟩ ⟨ph, member, -, below⟩
  have ends := (le_imageEnd segments 0).2 ph member
  rw [List.mem_range] at position
  simp only [stackTopOf, Elf64ProgHdr.vaEnd] at *
  omega

/-- The mask of the stack top rounds down, and nothing wraps. -/
theorem stackTop_mask {segments : List Elf64ProgHdr} (wellFormed : WellFormedSegments bytes segments) :
    wrapping (imageEnd segments 0 + 0x16000) &&& 0xFFFFFFFFFFFFFFF0 = stackTopOf segments := by
  have low := @imageEnd_low segments bytes wellFormed.each 0 (by decide)
  rw [wrapping, Nat.mod_eq_of_lt (by omega), stackTopOf]
  refine (@BitMasks.and_range_eq_sub _ 4 64 (by decide) (by omega)).trans ?_
  omega

/-- `load_elf` builds an address space out of free frames, or runs out of them. -/
theorem loadElf_spec (owned : Owned alloc roots free managed) (wellFormed : WellFormedElf bytes header)
    (safe : (∀ ph ∈ header.segments bytes, ph.Contained) ∨ Spaced managed) :
    LoadElfOutcome alloc roots free managed bytes header (loadElf bytes alloc) := by
  rw [loadElf, wellFormed.verified]
  dsimp only
  -- The root comes first, so one frame is always needed.
  cases free with
  | nil =>
    rw [owned.pop_nil]
    exact .outOfFrames (by simp [framesNeeded])
  | cons root free =>
    obtain ⟨popped, pop, sameMem, total, fresh, adopted, childless⟩ := owned.newRoot
    rw [pop]
    dsimp only
    have begin : Loading alloc (LoadState.mk popped 0 false).alloc roots free managed root ∅ ∅ []
        free := Loading.begin adopted sameMem total childless
    -- The table of the headers is within 64 bits.
    have noWrap : ∀ i ∈ List.range header.phnum, header.phoff + i * phSize + phSize < 2 ^ 64 := by
      intro i position
      have table := wellFormed.table
      rw [List.mem_range] at position
      simp only [phSize] at *
      omega
    have run := begin.loadSegments wellFormed.fits (List.range header.phnum) noWrap
      wellFormed.segments (Set.disjoint_empty _) safe
    rw [← Elf64Hdr.segments] at run
    generalize loadSegments bytes header.phoff root (List.range header.phnum) ⟨popped, 0, false⟩ =
      result at run ⊢
    cases run with
    -- The segments alone need more frames than there are.
    | stopped early =>
      obtain ⟨⟨message, rfl⟩, few⟩ := early
      refine .outOfFrames ?_
      simp only [framesNeeded, List.length_cons]
      omega
    | @done state loaded =>
      obtain ⟨spill, used, left, loaded⟩ := loaded
      simp only [bind, Except.bind, loaded.any, Bool.false_or]
      have top : state.maxAllocatedAddr = imageEnd (header.segments bytes) 0 := loaded.top
      have any : state.loadedAnySegments = !(header.segments bytes).isEmpty := by simp [loaded.any]
      have mapped := loaded.loading
      rw [Set.empty_union, List.nil_append] at mapped
      simp only [top, stackTop_mask wellFormed.segments]
      -- Without a segment, the file is refused, and only the root is gone.
      by_cases none : header.segments bytes = []
      · have unused : used = [] := List.length_eq_zero_iff.mp (Nat.le_zero.mp (by
          simpa [none, imagePageCount] using loaded.few))
        have clean : spill = ∅ := loaded.contained (by simp [none])
        rw [if_pos (by simp [none])]
        refine .noSegments none rfl fresh ?_
        have nothing : imagePages [] = ∅ := by simp [imagePages]
        rw [none, nothing, unused, clean] at mapped
        have whole : free = left := mapped.free_eq
        exact whole ▸ mapped
      · rw [if_neg (by simp [none])]
        have low := @imageEnd_low _ bytes wellFormed.segments.each 0 (by decide)
        -- The stack comes last, and its pages are none of a segment.
        have stack := Loading.allocStackPages low (List.range 14) List.nodup_range (by
          intro i position
          rw [List.mem_range] at position
          omega) mapped (stackPages_apart _)
        rw [← stackTopOf] at stack
        have lengths := congrArg List.length mapped.free_eq
        rw [List.length_append] at lengths
        generalize allocStackPages (stackTopOf (header.segments bytes)) root (List.range 14) state.alloc =
          result at stack ⊢
        cases stack with
        -- The stack and the segments need more frames than there are.
        | stopped early =>
          obtain ⟨⟨message, rfl⟩, few⟩ := early
          refine .outOfFrames ?_
          have enough := loaded.few
          simp only [framesNeeded, List.length_cons, List.length_range] at *
          omega
        | @done after finished =>
          obtain ⟨usedStack, rest, fewStack, finished, others⟩ := finished
          have whole : free = (used ++ usedStack) ++ rest := finished.free_eq
          refine .loaded none ⟨congrArg (root :: ·) whole, ?_, fresh, whole ▸ finished, ?_,
            loaded.contained, loaded.overrun⟩
          · have enough := loaded.few
            simp only [framesNeeded, List.length_append, List.length_range] at *
            omega
          -- The pages of the stack are above those of the segments, so the image is kept.
          intro ph member
          refine (loaded.image ph member).keep (wellFormed.segments.each ph member)
            (fun pa listed => List.mem_append_left _ listed)
            fun va below inPage => others va below fun inStack => ?_
          exact Set.disjoint_left.mp (stackPages_apart _) inStack ⟨ph, member, inPage⟩

/-- When `load_elf` succeeds, the image is there. -/
theorem loadElf_loaded (owned : Owned alloc roots free managed)
    (wellFormed : WellFormedElf bytes header)
    (safe : (∀ ph ∈ header.segments bytes, ph.Contained) ∨ Spaced managed)
    {entry stackTop root : Nat} {after : PageAllocator}
    (done : loadElf bytes alloc = .ok (.ok (entry, stackTop, root), after)) :
    ∃ spill taken rest, header.segments bytes ≠ [] ∧
      ImageLoaded alloc after roots free managed bytes (header.segments bytes) root spill taken
        rest := by
  have outcome := loadElf_spec owned wellFormed safe
  rw [done] at outcome
  cases outcome with
  | loaded some image => exact ⟨_, _, _, some, image⟩

end Elf

end AtOS
