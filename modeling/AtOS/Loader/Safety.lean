import AtOS.Loader.BuildsImage
import AtOS.Loader.CheckedLoad

/-! Which files `load_elf` handles without a panic, a wrapped address, or a read outside the file. -/

namespace AtOS

open ByteMemory RadixForest

/-- `load_elf` returns, and no check it leaves out would have failed. -/
def LoadsSafely (bytes : List UInt8) (alloc : PageAllocator) : Prop :=
  ∃ result, checkedLoadElf bytes alloc = .ok result ∧ loadElf bytes alloc = .ok result

/-- The PT_LOAD headers of a file, if it has a header at all. -/
def elfSegments (bytes : List UInt8) : List Elf64ProgHdr :=
  match Elf64Hdr.mkfrombytes bytes with
  | some header => header.segments bytes
  | none => []

/-- Enough frames for the pages the headers of a file ask for. -/
def elfFrames (bytes : List UInt8) : Nat :=
  match Elf64Hdr.mkfrombytes bytes with
  | some header => framesNeeded (header.segments bytes)
  | none => 0

/-- `load_elf` is safe on a file, in every state with enough free frames. -/
def LoadElfSafe (bytes : List UInt8) : Prop :=
  ∀ {alloc : PageAllocator} {roots managed : Set Nat} {free : List Nat},
    Owned alloc roots free managed → elfFrames bytes ≤ free.length → LoadsSafely bytes alloc

/-- The headers of a file wrap nowhere, and their segments and the stack can be loaded. -/
def SafeHeaders (bytes : List UInt8) : Prop :=
  ∀ header, Elf64Hdr.mkfrombytes bytes = some header → header.NoWrap bytes ∧ header.Loads bytes

section Exact

variable {bytes : List UInt8} {alloc : PageAllocator} {roots managed : Set Nat} {free : List Nat}

/-- Where the zeroing spills into no frame, a file is loaded safely exactly if its headers are safe. -/
theorem Owned.loadsSafely_iff (owned : Owned alloc roots free managed) (fits : bytes.length < 2 ^ 63)
    (enough : elfFrames bytes ≤ free.length)
    (safe : (∀ ph ∈ elfSegments bytes, ph.Contained) ∨ Spaced managed) :
    LoadsSafely bytes alloc ↔ SafeHeaders bytes := by
  -- A file without a header is refused without loading anything.
  cases verified : Elf64Hdr.mkfrombytes bytes with
  | none =>
    refine iff_of_true ⟨(.error "Invalid ELF file header", alloc), ?_, ?_⟩ fun header found => ?_
    · rw [checkedLoadElf, verified]
    · rw [loadElf, verified]
    · rw [verified] at found
      cases found
  | some header =>
    simp only [elfFrames, elfSegments, verified] at enough safe
    -- With a header, the checked loader is the plain one without a sum that wraps.
    have agrees := fun result => @checkedLoadElf_ok bytes alloc roots managed free header owned
      verified fits safe result
    have only : SafeHeaders bytes ↔ header.NoWrap bytes ∧ header.Loads bytes := by
      simp only [SafeHeaders, verified, Option.some.injEq, forall_eq']
    rw [only]
    constructor
    · -- If the load goes through, all its pages have been free to be mapped,
      rintro ⟨result, checked, done⟩
      obtain ⟨noWrap, -⟩ := (agrees result).mp checked
      have yields := loadElf_yields owned verified fits noWrap safe
      rw [done] at yields
      cases yields with
      | done holds =>
        obtain ⟨-, -, loads, -⟩ := holds
        exact ⟨noWrap, loads⟩
    · -- and if they are, only frames could be missing.
      rintro ⟨noWrap, loads⟩
      have yields := loadElf_yields owned verified fits noWrap safe
      cases result : loadElf bytes alloc with
      | error panic =>
        rw [result] at yields
        cases yields with
        | stopped early =>
          rcases early with unloadable | few
          · exact absurd loads unloadable
          · omega
      | ok result' => exact ⟨result', (agrees result').mpr ⟨noWrap, result⟩, result⟩

/--
`load_elf` is safe exactly on the files with safe headers.

Where a zeroing leaves its page, what it clears may be a table or the link of a free frame; there
the first part holds of the states in which it meets no frame. For the last part there has to be
memory for the image; 8 GiB of frames are enough.
-/
theorem loadElf_safe_iff (bytes : List UInt8) (fits : bytes.length < 2 ^ 63) :
    (∀ (alloc : PageAllocator) (roots managed : Set Nat) (free : List Nat),
      Owned alloc roots free managed → elfFrames bytes ≤ free.length →
      ((∀ ph ∈ elfSegments bytes, ph.Contained) ∨ Spaced managed) →
      (LoadsSafely bytes alloc ↔ SafeHeaders bytes)) ∧
    (SafeHeaders bytes → (∀ ph ∈ elfSegments bytes, ph.Contained) → LoadElfSafe bytes) ∧
    (elfFrames bytes ≤ 2 ^ 21 → LoadElfSafe bytes → SafeHeaders bytes) := by
  refine ⟨fun alloc roots managed free owned enough safe => owned.loadsSafely_iff fits enough safe,
    fun headers contained => ?_, fun room safe => ?_⟩
  · intro alloc roots managed free owned enough
    exact (owned.loadsSafely_iff fits enough (Or.inl contained)).mpr headers
  · obtain ⟨alloc, free, managed, pool, size, spaced⟩ := exists_telltale room
    have enough : elfFrames bytes ≤ free.length := Nat.le_of_eq size.symm
    exact (pool.owned.loadsSafely_iff fits enough (Or.inr spaced)).mp (safe pool.owned enough)

end Exact

section WellFormed

variable {bytes : List UInt8} {header : Elf64Hdr}

/-- Below 2^39, pages are slots. -/
theorem pageSlot_injOn {range : Set Nat} (low : ∀ page ∈ range, page < 2 ^ 27) :
    Set.InjOn pageSlot range := by
  intro page inside other insideOther same
  have values := congrArg Fin.val same
  have below := low page inside
  have belowOther := low other insideOther
  simp only [pageSlot, pageOf] at values
  omega

/-- Segments on pages of their own, below 2^39 and in the file, can be loaded. -/
theorem loadsAll_of_apart {segments : List Elf64ProgHdr} {mapped : Set Nat}
    (low : ∀ page ∈ mapped, page < 2 ^ 27) (wellFormed : WellFormedSegments bytes segments)
    (fresh : Disjoint (imagePages segments) mapped) :
    LoadsAll bytes (pageSlot '' mapped) segments := by
  -- The induction is on the segments, whose pages are mapped behind those before.
  induction segments generalizing mapped with
  | nil => trivial
  | cons ph segments ih =>
    have own := wellFormed.each ph (by simp)
    obtain ⟨apart, apartRest⟩ := List.pairwise_cons.mp wellFormed.apart
    rw [imagePages_cons, Set.disjoint_union_left] at fresh
    -- Low pages have slots of their own.
    have below : ∀ page ∈ ph.pages, page < 2 ^ 27 := by
      rintro page ⟨-, ends⟩
      have room := own.low
      omega
    have both : ∀ page ∈ mapped ∪ ph.pages, page < 2 ^ 27 :=
      fun page inside => inside.elim (low page) (below page)
    -- The first segment finds its pages free, and the others find theirs so, too.
    refine ⟨⟨⟨pageSlot_injOn below, ?_⟩, fun _ => own.inFile, fun i inside => Or.inr ?_⟩, ?_⟩
    · rintro page inside ⟨other, old, same⟩
      have equal := pageSlot_injOn both (Or.inl old) (Or.inr inside) same
      exact Set.disjoint_left.mp fresh.1 inside (equal ▸ old)
    · have sizes := own.sizes
      exact ph.slot_of_byte (Nat.le_add_right _ _) (by simp only [Elf64ProgHdr.vaEnd]; omega)
    · rw [Elf64ProgHdr.slots, ← Set.image_union]
      refine ih both ⟨fun other member => wellFormed.each other (by simp [member]), apartRest⟩ ?_
      rw [Set.disjoint_union_right]
      exact ⟨fresh.2, (disjoint_imagePages apart).symm⟩

/-- Well-formed files have safe headers. -/
theorem WellFormedElf.safeHeaders (wellFormed : WellFormedElf bytes header) : SafeHeaders bytes := by
  -- All addresses of a well-formed file are low, so nothing wraps and no page is used twice.
  intro other found
  rw [wellFormed.verified] at found
  cases found
  have segments := wellFormed.segments
  have ends : (imageEnd (header.segments bytes) 0 + 0x16000) / 16 * 16 ≤ 2 ^ 39 :=
    imageEnd_low segments.each (by decide)
  have below : ∀ page ∈ imagePages (header.segments bytes), page < 2 ^ 27 := by
    rintro page ⟨ph, member, -, inside⟩
    have room := (segments.each ph member).low
    omega
  refine ⟨⟨?_, fun ph member => ?_, fun _ => by omega⟩, ?_, fun _ => ⟨?_, ?_⟩⟩
  · -- The table of the headers lies within 64 bits.
    rcases Nat.eq_zero_or_pos header.phnum with none | some
    · exact Or.inl none
    · have table := wellFormed.table
      refine Or.inr ?_
      simp only [phSize] at *
      omega
  · -- So do the ends of each segment.
    have own := segments.each ph member
    have room := own.low
    have sizes := own.sizes
    have inFile := own.inFile
    have fits := wellFormed.fits
    refine ⟨by omega, by omega, fun _ => by omega, fun page inside => ?_⟩
    have small := below page ⟨ph, member, inside⟩
    omega
  · have all := @loadsAll_of_apart bytes (header.segments bytes) ∅
      (fun page nothing => absurd nothing (Set.notMem_empty page)) segments (Set.disjoint_empty _)
    rwa [Set.image_empty] at all
  · exact stackPages_injOn (by rw [stackTopOf]; omega)
  · -- The pages of the stack are above those of the image.
    rintro page inStack ⟨other, inImage, same⟩
    have low : ∀ page ∈ stackPages (stackTopOf (header.segments bytes)) (List.range 14) ∪
        imagePages (header.segments bytes), page < 2 ^ 27 := by
      rintro page (⟨i, -, rfl⟩ | inside)
      · rw [stackTopOf]
        omega
      · exact below page inside
    have equal := pageSlot_injOn low (Or.inr inImage) (Or.inl inStack) same
    exact Set.disjoint_left.mp (stackPages_apart _) inStack (equal ▸ inImage)

/-- The small file is loaded safely, wherever there are enough frames. -/
theorem loadElf_safe_iff_smallBss : LoadElfSafe smallBss := by
  have fits : smallBss.length < 2 ^ 63 := by rw [smallBss_length]; decide
  apply (loadElf_safe_iff smallBss fits).2.1 smallBss_wellFormed.safeHeaders
  rw [elfSegments, smallBss_wellFormed.verified]
  dsimp only
  rw [smallBss_segments]
  simp only [List.mem_singleton, forall_eq]
  intro _
  decide

end WellFormed

section SharedPage

/-- The second of two segments is loaded where the first one is. -/
theorem Elf64Hdr.Loads.second {bytes : List UInt8} {header : Elf64Hdr} {first second : Elf64ProgHdr}
    (loads : header.Loads bytes) (two : header.segments bytes = [first, second]) :
    second.Loads bytes (∅ ∪ first.slots) := by
  have all := loads.segments
  rw [two] at all
  exact all.2.1

/-- A file with two segments of four bytes, one behind the other on the same page. -/
def sharedPage : List UInt8 :=
  [0x7F, 0x45, 0x4C, 0x46, 2, 1, 1, 0, 0, 0, 0, 0, 0, 0, 0, 0,
    2, 0, 0xB7, 0, 1, 0, 0, 0, 0, 0, 0, 0, 0, 0, 0, 0,
    0x40, 0, 0, 0, 0, 0, 0, 0, 0, 0, 0, 0, 0, 0, 0, 0,
    0, 0, 0, 0, 0x40, 0, 0x38, 0, 2, 0, 0, 0, 0, 0, 0, 0,
    1, 0, 0, 0, 5, 0, 0, 0, 0xB0, 0, 0, 0, 0, 0, 0, 0,
    0, 0, 0, 0, 0, 0, 0, 0, 0, 0, 0, 0, 0, 0, 0, 0,
    4, 0, 0, 0, 0, 0, 0, 0, 4, 0, 0, 0, 0, 0, 0, 0,
    0, 0x10, 0, 0, 0, 0, 0, 0, 1, 0, 0, 0, 6, 0, 0, 0,
    0xB4, 0, 0, 0, 0, 0, 0, 0, 4, 0, 0, 0, 0, 0, 0, 0,
    0, 0, 0, 0, 0, 0, 0, 0, 4, 0, 0, 0, 0, 0, 0, 0,
    4, 0, 0, 0, 0, 0, 0, 0, 0, 0x10, 0, 0, 0, 0, 0, 0,
    1, 2, 3, 4, 5, 6, 7, 8]

/-- The header of that file. -/
def sharedPageHeader : Elf64Hdr := { magic := elfMagic, entry := 0, phoff := 64, phnum := 2 }

/-- One of its program headers. -/
def sharedPageSegment (offset virtaddr : Nat) : Elf64ProgHdr :=
  { type := ptLoad, offset, virtaddr, filesize := 4, memsize := 4 }

set_option maxRecDepth 2000 in
/-- The file has 184 bytes. -/
theorem sharedPage_length : sharedPage.length = 184 := by decide

set_option maxRecDepth 2000 in
/-- The file has two segments, which begin in one page. -/
theorem sharedPage_segments :
    sharedPageHeader.segments sharedPage = [sharedPageSegment 176 0, sharedPageSegment 180 4] := by
  decide

set_option maxRecDepth 2000 in
/-- It has a header. -/
theorem sharedPage_verified : Elf64Hdr.mkfrombytes sharedPage = some sharedPageHeader := by
  decide

/-- None of its sums wraps. -/
theorem sharedPageSegment_noWrap {offset virtaddr : Nat} (inFile : offset < 4096)
    (low : virtaddr < 4096) : (sharedPageSegment offset virtaddr).NoWrap := by
  constructor
  case ends =>
    show virtaddr + 4 < 2 ^ 64
    omega
  case fileEnds =>
    show virtaddr + 4 < 2 ^ 64
    omega
  case slice =>
    intro _
    show offset + 4 < 2 ^ 64
    omega
  case pages =>
    intro page inside
    have below : page * 4096 < virtaddr + 4 := inside.2
    have few : page < 2 := by omega
    clear below
    omega

/-- Its segments need the first page. -/
theorem sharedPageSegment_first {offset virtaddr : Nat} (low : virtaddr < 4096) :
    0 ∈ (sharedPageSegment offset virtaddr).pages := by
  constructor
  · show virtaddr / 4096 ≤ 0
    omega
  · exact Nat.lt_of_lt_of_le (by decide : 0 * 4096 < 4) (Nat.le_add_left _ virtaddr)

/-- Nothing wraps, but the page of the second segment is mapped already. -/
theorem sharedPage_headers :
    sharedPageHeader.NoWrap sharedPage ∧ ¬ sharedPageHeader.Loads sharedPage := by
  -- No sum of the two segments wraps.
  constructor
  · have top : imageEnd [sharedPageSegment 176 0, sharedPageSegment 180 4] 0 = 8 := by decide
    constructor
    case table => exact Or.inr (by decide)
    case segments =>
      rw [sharedPage_segments]
      simp only [List.mem_cons, List.not_mem_nil, or_false, forall_eq_or_imp, forall_eq]
      exact ⟨sharedPageSegment_noWrap (by decide) (by decide),
        sharedPageSegment_noWrap (by decide) (by decide)⟩
    case top =>
      rw [sharedPage_segments, top]
      intro _
      decide
  · -- The second segment finds its page used by the first.
    intro loads
    have second := loads.second sharedPage_segments
    have used : pageSlot 0 ∈ (sharedPageSegment 176 0).slots :=
      ⟨0, @sharedPageSegment_first 176 0 (by decide), rfl⟩
    exact second.free.2 0 (@sharedPageSegment_first 180 4 (by decide)) (Or.inr used)

/-- On that file `load_elf` panics, though there are frames enough for it. -/
theorem sharedPage_counterexample :
    ∃ free managed, Owned smallPool.alloc smallPool.live free managed ∧
      elfFrames sharedPage ≤ free.length ∧
      (∃ panic, loadElf sharedPage smallPool.alloc = .error panic) ∧
      ¬ LoadElfSafe sharedPage := by
  -- There are more than enough frames, so it is the page in use that stops the load.
  obtain ⟨free, conserved⟩ := smallPool_booted.conserved
  have size : free.length = 64 := conserved.owned.count.symm.trans (by decide)
  have enough : elfFrames sharedPage ≤ free.length := by
    rw [size, elfFrames, sharedPage_verified]
    dsimp only
    rw [sharedPage_segments]
    decide
  have contained : ∀ ph ∈ sharedPageHeader.segments sharedPage, ph.Contained := by
    rw [sharedPage_segments]
    simp only [List.mem_cons, List.not_mem_nil, or_false, forall_eq_or_imp, forall_eq]
    exact ⟨fun more => absurd more (by decide), fun more => absurd more (by decide)⟩
  have fits : sharedPage.length < 2 ^ 63 := by rw [sharedPage_length]; decide
  have yields := loadElf_yields conserved.owned sharedPage_verified fits sharedPage_headers.1
    (Or.inl contained)
  -- The load stops with a panic, as the headers do not load.
  have panics : ∃ panic, loadElf sharedPage smallPool.alloc = .error panic := by
    cases result : loadElf sharedPage smallPool.alloc with
    | error panic => exact ⟨panic, rfl⟩
    | ok loaded =>
      rw [result] at yields
      cases yields with
      | done holds =>
        obtain ⟨-, -, loads, -⟩ := holds
        exact absurd loads sharedPage_headers.2
  -- A safe load would have returned.
  refine ⟨free, _, conserved.owned, enough, panics, fun safe => ?_⟩
  obtain ⟨panic, stops⟩ := panics
  obtain ⟨result, -, done⟩ := safe conserved.owned enough
  rw [stops] at done
  cases done

end SharedPage

end AtOS
