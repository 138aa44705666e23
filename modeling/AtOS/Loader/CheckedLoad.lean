import AtOS.Loader.Segments

/-! `load_elf` with a check of every sum: where it succeeds, no address wraps and both agree. -/

namespace AtOS

open ByteMemory Loop

/-- A sum of two 64-bit numbers, with the check the release build leaves out. -/
@[irreducible] def checkedAdd (one two : Nat) : Except Panic Nat :=
  if one + two < 2 ^ 64 then .ok (one + two) else .error (.failed "attempt to add with overflow")

/-- The loop over the pages of a segment, with checked sums. -/
def checkedSegmentPages (vaEnd root : Nat) :
    Nat → Nat → PageAllocator → Except Panic PageAllocator
  | 0, _, _ => .error (.failed "the loop goes round the address space")
  | passes + 1, currentPageVa, alloc =>
    if currentPageVa < vaEnd then
      match allocPage currentPageVa root alloc with
      | .ok (_, alloc) =>
        match checkedAdd currentPageVa 4096 with
        | .ok next => checkedSegmentPages vaEnd root passes next alloc
        | .error panic => .error panic
      | .error panic => .error panic
    else .ok alloc

/-- The loop that zeroes the BSS, with checked sums. -/
def checkedZeroBss (vaEnd root : Nat) : Nat → Nat → PageAllocator → Except Panic PageAllocator
  | 0, _, _ => .error (.failed "the loop goes round the address space")
  | passes + 1, zeroVa, alloc =>
    if zeroVa < vaEnd then
      match ttbr0ToTtbr1 alloc.mem zeroVa root with
      | some frameVa =>
        let offsetInPage := zeroVa &&& 0xFFF
        let bytesToZero := min (4096 - offsetInPage) (vaEnd - zeroVa)
        match checkedAdd zeroVa bytesToZero with
        | .ok next =>
          checkedZeroBss vaEnd root passes next
            { alloc with
              mem := fill alloc.mem (ttbr1ToPa frameVa + offsetInPage) bytesToZero 0 }
        | .error panic => .error panic
      | none => .error (.failed "load_elf: missing page while zeroing BSS")
    else .ok alloc

/-- The bytes of a segment in the file, with a checked sum. -/
def checkedSegmentBytes (bytes : List UInt8) (ph : Elf64ProgHdr) : Except Panic (List UInt8) :=
  match checkedAdd ph.offset ph.filesize with
  | .ok limit =>
    if limit ≤ bytes.length then .ok ((bytes.drop ph.offset).take (limit - ph.offset))
    else .error (.failed "range out of bounds for slice")
  | .error panic => .error panic

/-- The step that copies what the file has of a segment; its addresses end where the copy does. -/
def checkedCopySegment (bytes : List UInt8) (ph : Elf64ProgHdr) (root : Nat)
    (alloc : PageAllocator) : Except Panic PageAllocator :=
  if ph.filesize > 0 then
    match checkedSegmentBytes bytes ph with
    | .ok data =>
      match copyToPages data ph.virtaddr root alloc with
      | (.ok (), alloc) => .ok alloc
      | (.error _, _) => .error (.failed "load_elf: copy_to_pages failed")
    | .error panic => .error panic
  else .ok alloc

/-- The body for one segment, with checked sums. -/
def checkedLoadSegment (bytes : List UInt8) (ph : Elf64ProgHdr) (root : Nat)
    (alloc : PageAllocator) : Except Panic PageAllocator := do
  let vaEnd ← checkedAdd ph.virtaddr ph.memsize
  let fileEnd ← checkedAdd ph.virtaddr ph.filesize
  let alloc ← checkedSegmentPages vaEnd root maxPasses (ph.virtaddr &&& 0xFFFFFFFFFFFFF000) alloc
  let alloc ← checkedCopySegment bytes ph root alloc
  if fileEnd < vaEnd then checkedZeroBss vaEnd root maxPasses fileEnd alloc else .ok alloc

/-- The loop over the program headers, with checked sums: each header read is inside the file. -/
def checkedLoadSegments (bytes : List UInt8) (start root : Nat) :
    List Nat → LoadState → Except Panic LoadState
  | [], state => .ok state
  | i :: rest, state => do
    let offset ← checkedAdd start (i * phSize)
    let limit ← checkedAdd offset phSize
    if limit > bytes.length then return state
    let ph := Elf64ProgHdr.read bytes offset
    if ph.type = ptLoad then
      let alloc ← checkedLoadSegment bytes ph root state.alloc
      let vaEnd ← checkedAdd ph.virtaddr ph.memsize
      checkedLoadSegments bytes start root rest
        { alloc
          maxAllocatedAddr :=
            if vaEnd > state.maxAllocatedAddr then vaEnd else state.maxAllocatedAddr
          loadedAnySegments := true }
    else checkedLoadSegments bytes start root rest state

/-- The loop over the pages of the stack, with checked differences. -/
def checkedStackPages (stackTop root : Nat) : List Nat → PageAllocator → Except Panic PageAllocator
  | [], alloc => .ok alloc
  | i :: rest, alloc =>
    if i * 4096 + 1 ≤ stackTop then
      match allocPage (stackTop - i * 4096 - 1) root alloc with
      | .ok (_, alloc) => checkedStackPages stackTop root rest alloc
      | .error panic => .error panic
    else .error (.failed "attempt to subtract with overflow")

/-- `load_elf` with a check of every sum and difference. -/
def checkedLoadElf (bytes : List UInt8) (alloc : PageAllocator) :
    Except Panic (Except String (Nat × Nat × Nat) × PageAllocator) :=
  match Elf64Hdr.mkfrombytes bytes with
  | none => .ok (.error "Invalid ELF file header", alloc)
  | some header =>
    match getFreeFramePa alloc with
    | none => .error (.outOfFrames "No free frames available for new process")
    | some (ttbr0, alloc) => do
      let loaded ← checkedLoadSegments bytes header.phoff ttbr0 (List.range header.phnum)
        { alloc, maxAllocatedAddr := 0, loadedAnySegments := false }
      if ¬ loaded.loadedAnySegments then
        return (.error "No loadable segments found in ELF file", loaded.alloc)
      let top ← checkedAdd loaded.maxAllocatedAddr 0x16000
      let stackTop := top &&& 0xFFFFFFFFFFFFFFF0
      let alloc ← checkedStackPages stackTop ttbr0 (List.range 14) loaded.alloc
      return (.ok (header.entry, stackTop, ttbr0), alloc)

section Agreement

variable {bytes : List UInt8} {root tableStart : Nat} {alloc after : PageAllocator}
  {ph : Elf64ProgHdr}

/-- A checked sum is the sum, if that fits into 64 bits. -/
@[simp] theorem checkedAdd_ok {one two sum : Nat} :
    checkedAdd one two = .ok sum ↔ one + two < 2 ^ 64 ∧ sum = one + two := by
  unfold checkedAdd
  split
  · rename_i small
    rw [Except.ok.injEq]
    exact ⟨fun same => ⟨small, same.symm⟩, fun same => same.2.symm⟩
  · rename_i large
    exact iff_of_false (error_ne_ok _ _) fun same => large same.1

/-- A sum that does not fit stops with the panic of the compiler. -/
theorem checkedAdd_error {one two : Nat} (large : ¬ one + two < 2 ^ 64) :
    checkedAdd one two = .error (.failed "attempt to add with overflow") := by
  unfold checkedAdd
  exact if_neg large

/-- The checked loop over the pages of a segment ends exactly if no page ends at 2^64. -/
theorem checkedSegmentPages_ok {vaEnd : Nat} :
    ∀ (passes current : Nat) {alloc : PageAllocator}, current % 4096 = 0 →
      (checkedSegmentPages vaEnd root passes current alloc = .ok after ↔
        (∀ page ∈ pageRange (current / 4096) vaEnd, page * 4096 + 4096 < 2 ^ 64) ∧
          allocSegmentPages vaEnd root passes current alloc = .ok after) := by
  intro passes
  -- The induction is on the passes, which map one page each.
  induction passes with
  | zero =>
    intro current alloc _
    rw [checkedSegmentPages, allocSegmentPages]
    exact iff_of_false (error_ne_ok _ _) fun all => error_ne_ok _ _ all.2
  | succ passes ih =>
    intro current alloc aligned
    by_cases more : current < vaEnd
    · rw [checkedSegmentPages, allocSegmentPages, if_pos more, if_pos more]
      -- The first page is mapped now, and the others by the passes behind.
      have split : pageRange (current / 4096) vaEnd =
          insert (current / 4096) (pageRange ((current + 4096) / 4096) vaEnd) := by
        ext page
        simp only [pageRange, Set.mem_insert_iff, Set.mem_ofPred_eq]
        omega
      rw [split]
      simp only [Set.mem_insert_iff, forall_eq_or_imp]
      cases allocPage current root alloc with
      | error panic => exact iff_of_false (error_ne_ok _ _) fun all => error_ne_ok _ _ all.2
      | ok mapped =>
        -- The address of the next page wraps in the one loop exactly where the other panics.
        by_cases small : current + 4096 < 2 ^ 64
        · have next : checkedAdd current 4096 = .ok (current + 4096) := checkedAdd_ok.mpr ⟨small, rfl⟩
          have noWrap : wrapping (current + 4096) = current + 4096 := Nat.mod_eq_of_lt small
          have first : current / 4096 * 4096 + 4096 < 2 ^ 64 := by omega
          simp only [next, noWrap, first, true_and]
          exact ih (current + 4096) (by omega)
        · have next := checkedAdd_error small
          have first : ¬ current / 4096 * 4096 + 4096 < 2 ^ 64 := by omega
          simp only [next, first, false_and]
          exact iff_of_false (error_ne_ok _ _) id
    · -- There is no page to map, so both loops stop.
      rw [checkedSegmentPages, allocSegmentPages, if_neg more, if_neg more]
      have nothing : pageRange (current / 4096) vaEnd = ∅ := by
        ext page
        simp only [pageRange, Set.mem_ofPred_eq, Set.mem_empty_iff_false, iff_false]
        omega
      rw [nothing]
      exact ⟨fun done => ⟨fun page inside => absurd inside (Set.notMem_empty page), done⟩, And.right⟩

/-- Zeroing up to a 64-bit address never wraps. -/
theorem checkedZeroBss_eq {vaEnd : Nat} (fits : vaEnd < 2 ^ 64) :
    ∀ (passes zeroVa : Nat) (alloc : PageAllocator),
      checkedZeroBss vaEnd root passes zeroVa alloc = zeroBss vaEnd root passes zeroVa alloc := by
  intro passes
  -- The end of a pass is at most the end of the segment, so its sum never wraps.
  induction passes with
  | zero => exact fun _ _ => rfl
  | succ passes ih =>
    intro zeroVa alloc
    by_cases more : zeroVa < vaEnd
    · rw [checkedZeroBss, zeroBss, if_pos more, if_pos more]
      cases ttbr0ToTtbr1 alloc.mem zeroVa root with
      | none => rfl
      | some frameVa =>
        have small : zeroVa + min (4096 - (zeroVa &&& 0xFFF)) (vaEnd - zeroVa) < 2 ^ 64 := by omega
        have next := checkedAdd_ok.mpr ⟨small, rfl⟩
        have noWrap : wrapping (zeroVa + min (4096 - (zeroVa &&& 0xFFF)) (vaEnd - zeroVa)) =
            zeroVa + min (4096 - (zeroVa &&& 0xFFF)) (vaEnd - zeroVa) := Nat.mod_eq_of_lt small
        simp only [next, noWrap]
        exact ih _ _
    · rw [checkedZeroBss, zeroBss, if_neg more, if_neg more]

/-- The checked copy succeeds exactly if the slice of the file does not wrap. -/
theorem checkedCopySegment_ok :
    checkedCopySegment bytes ph root alloc = .ok after ↔
      (0 < ph.filesize → ph.offset + ph.filesize < 2 ^ 64) ∧
        copySegment bytes ph root alloc = .ok after := by
  rw [checkedCopySegment, copySegment]
  -- The end of the slice is summed only if there is something to copy.
  by_cases some : ph.filesize > 0
  · rw [if_pos some, if_pos some]
    by_cases small : ph.offset + ph.filesize < 2 ^ 64
    · have limit := checkedAdd_ok.mpr ⟨small, rfl⟩
      have same : checkedSegmentBytes bytes ph = segmentBytes bytes ph := by
        simp only [checkedSegmentBytes, limit, segmentBytes_eq small, Nat.add_sub_cancel_left]
      rw [same]
      exact ⟨fun done => ⟨fun _ => small, done⟩, And.right⟩
    · have limit := checkedAdd_error small
      simp only [checkedSegmentBytes, limit]
      exact iff_of_false (error_ne_ok _ _) fun all => small (all.1 some)
  · rw [if_neg some, if_neg some]
    exact ⟨fun done => ⟨fun more => absurd more some, done⟩, And.right⟩

/-- The checked load of a segment succeeds exactly if nothing wraps. -/
theorem checkedLoadSegment_ok :
    checkedLoadSegment bytes ph root alloc = .ok after ↔
      ph.NoWrap ∧ loadSegment bytes ph root alloc = .ok after := by
  -- The ends of the segment are summed first, and then the loops make sums of their own.
  by_cases ends : ph.virtaddr + ph.memsize < 2 ^ 64
  · by_cases fileEnds : ph.virtaddr + ph.filesize < 2 ^ 64
    · have endChecked := checkedAdd_ok.mpr ⟨ends, rfl⟩
      have fileChecked := checkedAdd_ok.mpr ⟨fileEnds, rfl⟩
      have endNoWrap : wrapping (ph.virtaddr + ph.memsize) = ph.virtaddr + ph.memsize :=
        Nat.mod_eq_of_lt ends
      have fileNoWrap : wrapping (ph.virtaddr + ph.filesize) = ph.virtaddr + ph.filesize :=
        Nat.mod_eq_of_lt fileEnds
      -- The mask rounds the address down to a page.
      have masked : ph.virtaddr &&& 0xFFFFFFFFFFFFF000 = ph.virtaddr - ph.virtaddr % 4096 :=
        @BitMasks.and_range_eq_sub _ 12 64 (by decide) (by omega)
      have range : pageRange ((ph.virtaddr - ph.virtaddr % 4096) / 4096) (ph.virtaddr + ph.memsize) =
          ph.pages := by
        rw [Elf64ProgHdr.pages]
        congr 1
        omega
      have aligned : (ph.virtaddr - ph.virtaddr % 4096) % 4096 = 0 := by omega
      -- What must not wrap is spread over the steps, and is gathered here.
      have whole : ph.NoWrap ↔ (0 < ph.filesize → ph.offset + ph.filesize < 2 ^ 64) ∧
          ∀ page ∈ ph.pages, page * 4096 + 4096 < 2 ^ 64 :=
        ⟨fun noWrap => ⟨noWrap.slice, noWrap.pages⟩, fun all => ⟨ends, fileEnds, all.1, all.2⟩⟩
      have mapping := fun mid => @checkedSegmentPages_ok root mid
        (ph.virtaddr + ph.memsize) maxPasses (ph.virtaddr - ph.virtaddr % 4096) alloc aligned
      rw [range] at mapping
      simp only [checkedLoadSegment, loadSegment, endNoWrap, fileNoWrap, masked, bind, bind_eq_ok,
        endChecked, fileChecked, Except.ok.injEq, exists_eq_left', mapping, checkedCopySegment_ok,
        checkedZeroBss_eq ends, whole]
      constructor
      · rintro ⟨mapped, ⟨pages, mapping⟩, copied, ⟨slice, copying⟩, zeroing⟩
        exact ⟨⟨slice, pages⟩, mapped, mapping, copied, copying, zeroing⟩
      · rintro ⟨⟨slice, pages⟩, mapped, mapping, copied, copying, zeroing⟩
        exact ⟨mapped, ⟨pages, mapping⟩, copied, ⟨slice, copying⟩, zeroing⟩
    · -- The end of the file part wraps,
      have fileChecked := checkedAdd_error fileEnds
      have endChecked := checkedAdd_ok.mpr ⟨ends, rfl⟩
      simp only [checkedLoadSegment, endChecked, fileChecked, bind, Except.bind]
      exact iff_of_false (error_ne_ok _ _) fun all => fileEnds all.1.fileEnds
  · -- or that of the whole segment does.
    have endChecked := checkedAdd_error ends
    simp only [checkedLoadSegment, endChecked, bind, Except.bind]
    exact iff_of_false (error_ne_ok _ _) fun all => ends all.1.ends

/-- The checked loop over the headers succeeds exactly if nothing wraps, for a header or a segment. -/
theorem checkedLoadSegments_ok (fits : bytes.length < 2 ^ 63) :
    ∀ (count i : Nat) {state after : LoadState},
      checkedLoadSegments bytes tableStart root (List.range' i count) state = .ok after ↔
        (count = 0 ∨ tableStart + i * phSize + phSize < 2 ^ 64) ∧
          (∀ ph ∈ segmentsAt bytes tableStart (List.range' i count), ph.NoWrap) ∧
          loadSegments bytes tableStart root (List.range' i count) state = .ok after := by
  intro count
  -- The induction is on the headers still to come, as in the loop itself.
  induction count with
  | zero =>
    intro i state after
    simp [checkedLoadSegments, loadSegments, segmentsAt]
  | succ count ih =>
    intro i state after
    rw [List.range'_succ]
    by_cases here : tableStart + i * phSize + phSize < 2 ^ 64
    · -- Both sums for this header fit, as the second one does.
      have offset := checkedAdd_ok.mpr ⟨(by omega : tableStart + i * phSize < 2 ^ 64), rfl⟩
      have limit := checkedAdd_ok.mpr ⟨here, rfl⟩
      have offsetNoWrap : wrapping (tableStart + i * phSize) = tableStart + i * phSize :=
        Nat.mod_eq_of_lt (by omega)
      have limitNoWrap : wrapping (tableStart + i * phSize + phSize) =
          tableStart + i * phSize + phSize := Nat.mod_eq_of_lt here
      simp only [checkedLoadSegments, offset, limit, bind, Except.bind, AtOS.loadSegments,
        offsetNoWrap, limitNoWrap, here, or_true, true_and]
      -- A header that lies inside the file is read; at the first one outside, both loops stop.
      by_cases inside : tableStart + i * phSize + phSize ≤ bytes.length
      · -- A file is short enough for the sums of the next header to fit.
        have near : count = 0 ∨ tableStart + (i + 1) * phSize + phSize < 2 ^ 64 := by
          refine Or.inr ?_
          simp only [phSize] at *
          omega
        have noBreak : ¬ tableStart + i * phSize + phSize > bytes.length := by omega
        simp only [if_neg noBreak]
        -- Only segments of type `LOAD` are loaded, with sums that are checked in turn.
        by_cases load : (Elf64ProgHdr.read bytes (tableStart + i * phSize)).type = ptLoad
        · simp only [if_pos load, segmentsAt_load inside load]
          generalize Elf64ProgHdr.read bytes (tableStart + i * phSize) = ph
          simp only [List.mem_cons, forall_eq_or_imp]
          have succeeds := fun loaded => @checkedLoadSegment_ok bytes root state.alloc loaded ph
          cases checked : checkedLoadSegment bytes ph root state.alloc with
          -- If the checked load stops where the plain one goes on, one of its sums has wrapped.
          | error panic =>
            refine iff_of_false (error_ne_ok _ _) ?_
            rintro ⟨⟨own, -⟩, done⟩
            cases plain : loadSegment bytes ph root state.alloc with
            | error other =>
              rw [plain] at done
              cases done
            | ok loaded =>
              rw [(succeeds loaded).mpr ⟨own, plain⟩] at checked
              cases checked
          | ok loaded =>
            obtain ⟨own, plain⟩ := (succeeds loaded).mp checked
            have endNoWrap : wrapping (ph.virtaddr + ph.memsize) = ph.virtaddr + ph.memsize :=
              Nat.mod_eq_of_lt own.ends
            simp only [checkedAdd_ok.mpr ⟨own.ends, rfl⟩, plain, endNoWrap, own, ih (i + 1), near,
              true_and]
        · -- Other headers are passed over.
          simp only [if_neg load, segmentsAt_other inside load, ih (i + 1), near, true_and]
      · -- The table ends outside of the file, and both loops leave off.
        have outside : tableStart + i * phSize + phSize > bytes.length := by omega
        simp only [if_pos outside, segmentsAt_outside inside]
        simp [pure, Except.pure]
    · -- One of the two sums for the next header wraps.
      refine iff_of_false ?_ fun all => here (all.1.resolve_left (by omega))
      by_cases small : tableStart + i * phSize < 2 ^ 64
      · have offset := checkedAdd_ok.mpr ⟨small, rfl⟩
        have limit := checkedAdd_error here
        simp only [checkedLoadSegments, offset, limit, bind, Except.bind]
        exact error_ne_ok _ _
      · have offset := checkedAdd_error small
        simp only [checkedLoadSegments, offset, bind, Except.bind]
        exact error_ne_ok _ _

/-- The stack lies far enough up, so its differences are those of the release build. -/
theorem checkedStackPages_eq {stackTop : Nat} (fits : stackTop < 2 ^ 64) :
    ∀ (positions : List Nat) (alloc : PageAllocator), (∀ i ∈ positions, (i + 1) * 4096 ≤ stackTop) →
      checkedStackPages stackTop root positions alloc =
        allocStackPages stackTop root positions alloc := by
  intro positions
  -- The stack lies below its top, so no position of it wraps.
  induction positions with
  | nil => exact fun _ _ => rfl
  | cons i positions ih =>
    intro alloc room
    have here := room i (by simp)
    have enough : i * 4096 + 1 ≤ stackTop := Nat.succ_le_of_lt (by omega)
    have address : wrapping (stackTop + 2 ^ 64 - i * 4096 - 1) = stackTop - i * 4096 - 1 := by
      rw [wrapping, show stackTop + 2 ^ 64 - i * 4096 - 1 = stackTop - i * 4096 - 1 + 2 ^ 64 by omega,
        Nat.add_mod_right, Nat.mod_eq_of_lt (by omega)]
    simp only [checkedStackPages, allocStackPages, if_pos enough, address]
    cases allocPage (stackTop - i * 4096 - 1) root alloc with
    | error panic => rfl
    | ok mapped => exact ih _ fun j member => room j (by simp [member])

/-- The checked load of a file succeeds exactly if nothing wraps, and then both agree. -/
theorem checkedLoadElf_ok {roots managed : Set Nat} {free : List Nat} {header : Elf64Hdr}
    (owned : Owned alloc roots free managed)
    (verified : Elf64Hdr.mkfrombytes bytes = some header) (fits : bytes.length < 2 ^ 63)
    (safe : (∀ ph ∈ header.segments bytes, ph.Contained) ∨ Spaced managed)
    {result : Except String (Nat × Nat × Nat) × PageAllocator} :
    checkedLoadElf bytes alloc = .ok result ↔
      header.NoWrap bytes ∧ loadElf bytes alloc = .ok result := by
  -- Both start with the root, which has to be popped.
  rw [checkedLoadElf, loadElf, verified]
  dsimp only
  cases free with
  | nil =>
    rw [owned.pop_nil]
    exact iff_of_false (error_ne_ok _ _) fun all => error_ne_ok _ _ all.2
  | cons root free =>
    obtain ⟨popped, pop, begin, -⟩ := Building.begin owned
    rw [pop]
    dsimp only
    have segments := fun loaded => @checkedLoadSegments_ok bytes root header.phoff fits header.phnum 0
      ⟨popped, 0, false⟩ loaded
    rw [← List.range_eq_range', ← Elf64Hdr.segments] at segments
    simp only [Nat.zero_mul, Nat.add_zero] at segments
    simp only [bind, bind_eq_ok, segments]
    -- Where the segments are loaded, the highest address is known.
    have top : ∀ loaded, (header.phnum = 0 ∨ header.phoff + phSize < 2 ^ 64) →
        (∀ ph ∈ header.segments bytes, ph.NoWrap) →
        loadSegments bytes header.phoff root (List.range header.phnum) ⟨popped, 0, false⟩ = .ok loaded →
        loaded.maxAllocatedAddr = imageEnd (header.segments bytes) 0 ∧
          (loaded.loadedAnySegments = true ↔ header.segments bytes ≠ []) := by
      intro loaded near noWrap done
      have run := @Building.loadSegments _ _ _ _ header.phoff bytes fits header.phnum 0
        ⟨popped, 0, false⟩ free (by simpa using near)
        (by rw [← List.range_eq_range']; exact noWrap)
        (by rw [← List.range_eq_range']; exact safe) begin
      rw [← List.range_eq_range', ← Elf64Hdr.segments, done] at run
      cases run with
      | done holds =>
        obtain ⟨-, -, -, -, -, same, any⟩ := holds
        exact ⟨same, by simp [any]⟩
    -- The stack follows only behind segments, at a top that must not wrap.
    have tails : ∀ loaded : LoadState, loaded.maxAllocatedAddr = imageEnd (header.segments bytes) 0 →
        imageEnd (header.segments bytes) 0 + 0x16000 < 2 ^ 64 →
        ((checkedAdd loaded.maxAllocatedAddr 0x16000).bind fun top =>
          (checkedStackPages (top &&& 0xFFFFFFFFFFFFFFF0) root (List.range 14) loaded.alloc).bind
            fun alloc => pure (Except.ok (header.entry, top &&& 0xFFFFFFFFFFFFFFF0, root), alloc)) =
        ((allocStackPages (wrapping (loaded.maxAllocatedAddr + 0x16000) &&& 0xFFFFFFFFFFFFFFF0) root
          (List.range 14) loaded.alloc).bind fun alloc => (pure (Except.ok (header.entry,
            wrapping (loaded.maxAllocatedAddr + 0x16000) &&& 0xFFFFFFFFFFFFFFF0, root), alloc) :
            Except Panic (Except String (Nat × Nat × Nat) × PageAllocator))) := by
      intro loaded same below
      have masked := @BitMasks.and_range_eq_sub (imageEnd (header.segments bytes) 0 + 0x16000) 4 64
        (by decide) below
      have room : ∀ i ∈ List.range 14,
          (i + 1) * 4096 ≤ imageEnd (header.segments bytes) 0 + 0x16000 &&& 0xFFFFFFFFFFFFFFF0 := by
        intro i position
        rw [List.mem_range] at position
        rw [show (0xFFFFFFFFFFFFFFF0 : Nat) = 2 ^ 64 - 2 ^ 4 by decide, masked]
        omega
      have high : imageEnd (header.segments bytes) 0 + 0x16000 &&& 0xFFFFFFFFFFFFFFF0 < 2 ^ 64 :=
        Nat.lt_of_le_of_lt Nat.and_le_left below
      have noWrap : wrapping (imageEnd (header.segments bytes) 0 + 0x16000) =
          imageEnd (header.segments bytes) 0 + 0x16000 := Nat.mod_eq_of_lt below
      rw [same, checkedAdd_ok.mpr ⟨below, rfl⟩, noWrap]
      simp only [Except.bind, checkedStackPages_eq high _ _ room]
    -- The checked loader succeeds exactly if no sum wraps and the plain one succeeds.
    constructor
    · rintro ⟨loaded, ⟨near, noWrap, done⟩, tail⟩
      obtain ⟨same, any⟩ := top loaded near noWrap done
      -- The top of the stack is summed only behind a segment.
      have below : header.segments bytes ≠ [] →
          imageEnd (header.segments bytes) 0 + 0x16000 < 2 ^ 64 := by
        intro some
        by_contra large
        rw [if_neg (not_not_intro (any.mpr some)), same, checkedAdd_error large] at tail
        cases tail
      refine ⟨⟨near, noWrap, below⟩, loaded, done, ?_⟩
      by_cases some : header.segments bytes ≠ []
      · rw [if_neg (not_not_intro (any.mpr some))] at tail ⊢
        exact (tails loaded same (below some)).symm.trans tail
      · rw [if_pos (fun loadedAny => some (any.mp loadedAny))] at tail ⊢
        exact tail
    · -- Without a sum that wraps, both go the same way.
      rintro ⟨noWrap, loaded, done, tail⟩
      obtain ⟨same, any⟩ := top loaded noWrap.table noWrap.segments done
      refine ⟨loaded, ⟨noWrap.table, noWrap.segments, done⟩, ?_⟩
      by_cases some : header.segments bytes ≠ []
      · rw [if_neg (not_not_intro (any.mpr some))] at tail ⊢
        exact (tails loaded same (noWrap.top some)).trans tail
      · rw [if_pos (fun loadedAny => some (any.mp loadedAny))] at tail ⊢
        exact tail

end Agreement

end AtOS
