import AtOS.Loader.Building
import AtOS.Loader.Image

/-! The segments of any file: which headers can be loaded, and what the loops do with them. -/

namespace AtOS

open ByteMemory RadixForest

/-- No sum that is formed for a segment leaves the 64-bit numbers. -/
structure Elf64ProgHdr.NoWrap (ph : Elf64ProgHdr) : Prop where
  ends : ph.virtaddr + ph.memsize < 2 ^ 64
  fileEnds : ph.virtaddr + ph.filesize < 2 ^ 64
  slice : 0 < ph.filesize → ph.offset + ph.filesize < 2 ^ 64
  pages : ∀ page ∈ ph.pages, page * 4096 + 4096 < 2 ^ 64

/-- A segment finds its pages free, its bytes in the file, and a mapped page for each of them. -/
structure Elf64ProgHdr.Loads (bytes : List UInt8) (mapped : Set Page) (ph : Elf64ProgHdr) :
    Prop where
  free : PagesFree mapped ph.pages
  inFile : 0 < ph.filesize → ph.offset + ph.filesize ≤ bytes.length
  target : ∀ i < ph.filesize, pageOf (ph.virtaddr + i) ∈ mapped ∪ ph.slots

/-- All segments can be loaded one after the other, where some pages are mapped already. -/
def LoadsAll (bytes : List UInt8) : Set Page → List Elf64ProgHdr → Prop
  | _, [] => True
  | mapped, ph :: rest => ph.Loads bytes mapped ∧ LoadsAll bytes (mapped ∪ ph.slots) rest

/-- The pages of all segments, as the tables see them. -/
def imageSlots (segments : List Elf64ProgHdr) : Set Page := pageSlot '' imagePages segments

section Segment

variable {start alloc : PageAllocator} {roots managed : Set Nat} {root : Nat} {rest : List Nat}
  {bytes : List UInt8} {ph : Elf64ProgHdr}

/-- Every address of a segment lies in one of its pages. -/
theorem Elf64ProgHdr.slot_of_byte {va : Nat} (above : ph.virtaddr ≤ va) (below : va < ph.vaEnd) :
    pageOf va ∈ ph.slots := by
  refine ⟨va / 4096, ?_, pageSlot_div va⟩
  simp only [Elf64ProgHdr.vaEnd] at below
  constructor <;> omega

/-- The slice of a segment is there exactly if the file has it. -/
theorem segmentBytes_eq (noWrap : ph.offset + ph.filesize < 2 ^ 64) :
    segmentBytes bytes ph =
      if ph.offset + ph.filesize ≤ bytes.length then
        .ok ((bytes.drop ph.offset).take ph.filesize)
      else .error (.failed "range out of bounds for slice") := by
  have limit : wrapping (ph.offset + ph.filesize) = ph.offset + ph.filesize := Nat.mod_eq_of_lt noWrap
  simp only [segmentBytes, limit, Nat.add_sub_cancel_left, Nat.le_add_right, true_and]

/-- The file part of a segment is copied exactly if the file has it and its pages are mapped. -/
theorem Building.copySegment (building : Building start alloc roots managed root rest)
    (noWrap : 0 < ph.filesize → ph.offset + ph.filesize < 2 ^ 64) :
    Loop.Yields
      (fun after => Building start after roots managed root rest ∧
        mappedPages after.mem root = mappedPages alloc.mem root ∧
        (0 < ph.filesize → ph.offset + ph.filesize ≤ bytes.length) ∧
        ∀ i < ph.filesize, pageOf (ph.virtaddr + i) ∈ mappedPages alloc.mem root)
      (fun _ => ¬ ((0 < ph.filesize → ph.offset + ph.filesize ≤ bytes.length) ∧
        ∀ i < ph.filesize, pageOf (ph.virtaddr + i) ∈ mappedPages alloc.mem root))
      (AtOS.copySegment bytes ph root alloc) := by
  rw [AtOS.copySegment]
  by_cases some : ph.filesize > 0
  · rw [if_pos some, segmentBytes_eq (noWrap some)]
    -- A slice that ends outside of the file panics.
    by_cases inFile : ph.offset + ph.filesize ≤ bytes.length
    · rw [if_pos inFile]
      have size : ((bytes.drop ph.offset).take ph.filesize).length = ph.filesize := by
        simp only [List.length_take, List.length_drop]
        omega
      obtain ⟨built, same, ok⟩ :=
        building.copyToPages ((bytes.drop ph.offset).take ph.filesize) ph.virtaddr
      rw [size] at ok
      dsimp only
      generalize AtOS.copyToPages ((bytes.drop ph.offset).take ph.filesize) ph.virtaddr root alloc =
        result at built same ok
      obtain ⟨outcome, after⟩ := result
      -- The copy fails only at a page that is not mapped.
      cases outcome with
      | ok => exact .done ⟨built, same, fun _ => inFile, ok.mp rfl⟩
      | error message =>
        refine .stopped fun all => ?_
        have impossible := ok.mpr all.2
        cases impossible
    · rw [if_neg inFile]
      exact .stopped fun all => inFile (all.1 some)
  · -- Without a file part, there is nothing to copy.
    rw [if_neg some]
    exact .done ⟨building, rfl, fun more => absurd more some, fun i inside => absurd inside (by omega)⟩

/-- A segment is loaded exactly if its header allows it, when there are enough frames. -/
theorem Building.loadSegment (building : Building start alloc roots managed root rest)
    (noWrap : ph.NoWrap) (safe : ph.Contained ∨ Spaced managed) :
    Loop.Yields
      (fun after => ∃ left, Building start after roots managed root left ∧
        rest.length ≤ left.length + 3 * ph.pageCount ∧
        ph.Loads bytes (mappedPages alloc.mem root) ∧
        mappedPages after.mem root = mappedPages alloc.mem root ∪ ph.slots)
      (fun _ => ¬ ph.Loads bytes (mappedPages alloc.mem root) ∨ rest.length < 3 * ph.pageCount)
      (AtOS.loadSegment bytes ph root alloc) := by
  have ends := noWrap.ends
  have fileEnds := noWrap.fileEnds
  -- The sums do not wrap, so they are the ends of the segment.
  have endNoWrap : wrapping (ph.virtaddr + ph.memsize) = ph.vaEnd := Nat.mod_eq_of_lt ends
  have fileNoWrap : wrapping (ph.virtaddr + ph.filesize) = ph.fileEnd := Nat.mod_eq_of_lt fileEnds
  have masked : ph.virtaddr &&& 0xFFFFFFFFFFFFF000 = ph.virtaddr - ph.virtaddr % 4096 :=
    @BitMasks.and_range_eq_sub _ 12 64 (by decide) (by omega)
  have counted : (ph.vaEnd - (ph.virtaddr - ph.virtaddr % 4096) + 4095) / 4096 = ph.pageCount := by
    simp only [Elf64ProgHdr.vaEnd, Elf64ProgHdr.pageCount]
    omega
  -- The pages that the loop maps are those of the segment.
  have range : pageRange ((ph.virtaddr - ph.virtaddr % 4096) / 4096) ph.vaEnd = ph.pages := by
    rw [Elf64ProgHdr.pages, Elf64ProgHdr.vaEnd]
    congr 1
    omega
  have endBelow : ph.vaEnd = ph.virtaddr + ph.memsize := rfl
  have fileBelow : ph.fileEnd = ph.virtaddr + ph.filesize := rfl
  -- The last page ends below 2^64, so the passes are enough.
  have few : ph.virtaddr < ph.vaEnd → ph.vaEnd + 4096 ≤ 2 ^ 64 := by
    intro more
    have last := noWrap.pages ((ph.vaEnd - 1) / 4096) ⟨by omega, by omega⟩
    omega
  have mapping := Building.allocSegmentPages maxPasses (ph.virtaddr - ph.virtaddr % 4096) (by omega)
    (by rw [counted, Elf64ProgHdr.pageCount, maxPasses]; omega)
    (by rw [range]; exact noWrap.pages) building
  rw [counted, range] at mapping
  simp only [AtOS.loadSegment, endNoWrap, fileNoWrap, masked, bind]
  refine mapping.bind ?_ ?_
  · -- The loop stops at a page in use, or for want of frames.
    rintro panic (used | few)
    · exact Or.inl fun loads => used loads.free
    · exact Or.inr few
  rintro mapped ⟨left, built, enough, free, slots⟩
  have copying := @Building.copySegment _ _ _ _ _ _ bytes _ built noWrap.slice
  rw [slots] at copying
  refine copying.bind (fun panic missing => Or.inl fun loads => missing ⟨loads.inFile, loads.target⟩)
    ?_
  rintro copied ⟨builtCopied, same, inFile, target⟩
  -- Zeroing stays in pages of the segment, which are mapped.
  by_cases more : ph.fileEnd < ph.vaEnd
  · rw [if_pos more]
    obtain ⟨after, done, builtZeroed, sameZeroed⟩ := Building.zeroBss (by omega) maxPasses ph.fileEnd
      (by decide) (fun _ => by rw [maxPasses]; omega)
      (fun _ => safe.imp_left fun contained => contained (by omega)) builtCopied
      (fun va above below => by
        rw [same]
        exact Or.inr (ph.slot_of_byte (by omega) below))
    rw [done]
    exact .done ⟨left, builtZeroed, enough, ⟨free, inFile, target⟩, sameZeroed.trans same⟩
  · -- There is nothing behind the file part.
    rw [if_neg more]
    exact .done ⟨left, builtCopied, enough, ⟨free, inFile, target⟩, same⟩

end Segment

/-- The headers of a file lead to no sum that leaves the 64-bit numbers. -/
structure Elf64Hdr.NoWrap (header : Elf64Hdr) (bytes : List UInt8) : Prop where
  /-- Later headers are close behind one that is inside the file. -/
  table : header.phnum = 0 ∨ header.phoff + phSize < 2 ^ 64
  segments : ∀ ph ∈ header.segments bytes, ph.NoWrap
  top : header.segments bytes ≠ [] → imageEnd (header.segments bytes) 0 + 0x16000 < 2 ^ 64

/-- The headers of a file can be loaded: all segments one after the other, and then the stack. -/
structure Elf64Hdr.Loads (header : Elf64Hdr) (bytes : List UInt8) : Prop where
  segments : LoadsAll bytes ∅ (header.segments bytes)
  stack : header.segments bytes ≠ [] → PagesFree (imageSlots (header.segments bytes))
    (stackPages (stackTopOf (header.segments bytes)) (List.range 14))

section Loops

variable {start alloc : PageAllocator} {roots managed : Set Nat} {root tableStart : Nat}
  {free rest : List Nat} {bytes : List UInt8}

/-- The pages of the image are those of its segments. -/
theorem imageSlots_cons (ph : Elf64ProgHdr) (segments : List Elf64ProgHdr) :
    imageSlots (ph :: segments) = ph.slots ∪ imageSlots segments := by
  rw [imageSlots, imagePages_cons, Set.image_union]
  rfl

/-- The loop over the program headers loads the segments exactly if their headers allow it. -/
theorem Building.loadSegments (fits : bytes.length < 2 ^ 63) :
    ∀ (count i : Nat) {state : LoadState} {rest : List Nat},
      count = 0 ∨ tableStart + i * phSize + phSize < 2 ^ 64 →
      (∀ ph ∈ segmentsAt bytes tableStart (List.range' i count), ph.NoWrap) →
      (∀ ph ∈ segmentsAt bytes tableStart (List.range' i count), ph.Contained) ∨ Spaced managed →
      Building start state.alloc roots managed root rest →
      Loop.Yields
        (fun after : LoadState => ∃ left, Building start after.alloc roots managed root left ∧
          rest.length ≤ left.length +
            3 * imagePageCount (segmentsAt bytes tableStart (List.range' i count)) ∧
          LoadsAll bytes (mappedPages state.alloc.mem root)
            (segmentsAt bytes tableStart (List.range' i count)) ∧
          mappedPages after.alloc.mem root = mappedPages state.alloc.mem root ∪
            imageSlots (segmentsAt bytes tableStart (List.range' i count)) ∧
          after.maxAllocatedAddr =
            imageEnd (segmentsAt bytes tableStart (List.range' i count)) state.maxAllocatedAddr ∧
          after.loadedAnySegments = (state.loadedAnySegments ||
            !(segmentsAt bytes tableStart (List.range' i count)).isEmpty))
        (fun _ => ¬ LoadsAll bytes (mappedPages state.alloc.mem root)
            (segmentsAt bytes tableStart (List.range' i count)) ∨
          rest.length < 3 * imagePageCount (segmentsAt bytes tableStart (List.range' i count)))
        (AtOS.loadSegments bytes tableStart root (List.range' i count) state) := by
  -- Where no header is left, nothing is loaded.
  have nothing : ∀ {state : LoadState} {rest : List Nat},
      Building start state.alloc roots managed root rest →
      ∃ left, Building start state.alloc roots managed root left ∧
        rest.length ≤ left.length + 3 * imagePageCount [] ∧
        LoadsAll bytes (mappedPages state.alloc.mem root) [] ∧
        mappedPages state.alloc.mem root = mappedPages state.alloc.mem root ∪ imageSlots [] ∧
        state.maxAllocatedAddr = imageEnd [] state.maxAllocatedAddr ∧
        state.loadedAnySegments = (state.loadedAnySegments || !([] : List Elf64ProgHdr).isEmpty) :=
    fun building => ⟨_, building, Nat.le_add_right _ _, trivial,
      by simp [imageSlots, imagePages], rfl, by simp⟩
  intro count
  -- The induction is on the headers still to come; the next one is near enough not to wrap.
  induction count with
  | zero =>
    intro i state rest _ _ _ building
    exact .done (nothing building)
  | succ count ih =>
    intro i state rest near noWrap safe building
    -- The next header is there, so its end is within 64 bits.
    have here : tableStart + i * phSize + phSize < 2 ^ 64 := near.resolve_left (by omega)
    have offsetNoWrap : wrapping (tableStart + i * phSize) = tableStart + i * phSize :=
      Nat.mod_eq_of_lt (by omega)
    have limitNoWrap : wrapping (tableStart + i * phSize + phSize) =
        tableStart + i * phSize + phSize := Nat.mod_eq_of_lt here
    rw [List.range'_succ] at *
    simp only [AtOS.loadSegments, offsetNoWrap, limitNoWrap]
    by_cases inside : tableStart + i * phSize + phSize ≤ bytes.length
    · rw [if_neg (by omega)]
      have nextNear : count = 0 ∨ tableStart + (i + 1) * phSize + phSize < 2 ^ 64 := by
        refine Or.inr ?_
        simp only [phSize] at *
        omega
      by_cases load : (Elf64ProgHdr.read bytes (tableStart + i * phSize)).type = ptLoad
      · rw [if_pos load]
        rw [segmentsAt_load inside load] at noWrap safe ⊢
        generalize Elf64ProgHdr.read bytes (tableStart + i * phSize) = ph at *
        have own := noWrap ph (by simp)
        -- The highest address is that of the segments so far.
        have highest : (if wrapping (ph.virtaddr + ph.memsize) > state.maxAllocatedAddr then
            wrapping (ph.virtaddr + ph.memsize) else state.maxAllocatedAddr) =
            max state.maxAllocatedAddr ph.vaEnd := by
          rw [show wrapping (ph.virtaddr + ph.memsize) = ph.vaEnd from Nat.mod_eq_of_lt own.ends]
          split <;> omega
        have first := @Building.loadSegment _ _ _ _ _ _ bytes _ building own
          (safe.imp_left fun all => all ph (by simp))
        rw [imagePageCount_cons, imageSlots_cons]
        generalize AtOS.loadSegment bytes ph root state.alloc = result at first
        cases first with
        -- A segment stops the load, or the load goes on behind it.
        | stopped early =>
          rcases early with unloadable | few
          · exact .stopped (Or.inl fun all => unloadable all.1)
          · exact .stopped (Or.inr (by omega))
        | @done middle step =>
          obtain ⟨left, built, enough, loads, slots⟩ := step
          dsimp only
          rw [highest]
          have later := @ih (i + 1) ⟨middle, max state.maxAllocatedAddr ph.vaEnd, true⟩ left
            nextNear (fun other member => noWrap other (by simp [member]))
            (safe.imp_left fun all other member => all other (by simp [member])) built
          dsimp only at later
          rw [slots] at later
          refine later.imp ?_ ?_
          · rintro after ⟨leftLater, builtLater, enoughLater, loadsLater, slotsLater, top, any⟩
            refine ⟨leftLater, builtLater, by omega, ⟨loads, loadsLater⟩, ?_, top, by simp [any]⟩
            rw [slotsLater, Set.union_assoc]
          · rintro panic (unloadable | few)
            · exact Or.inl fun all => unloadable all.2
            · exact Or.inr (by omega)
      · -- Headers of other types are passed over.
        rw [if_neg load]
        rw [segmentsAt_other inside load] at noWrap safe ⊢
        exact ih (i + 1) nextNear noWrap safe building
    · -- The first header outside of the file ends the loop.
      rw [if_pos (by omega), segmentsAt_outside inside]
      exact .done (nothing building)

/-- The pages of the stack are consecutive, and lie in different slots. -/
theorem stackPages_injOn {stackTop : Nat} (room : 14 * 4096 ≤ stackTop) :
    Set.InjOn pageSlot (stackPages stackTop (List.range 14)) := by
  rintro page ⟨i, inside, rfl⟩ other ⟨j, insideOther, rfl⟩ same
  rw [List.mem_range] at inside insideOther
  have values := congrArg Fin.val same
  simp only [pageSlot, pageOf] at values
  omega

/-- The loop over the pages of the stack maps them all, unless one is in use or frames run out. -/
theorem Building.allocStackPages {stackTop : Nat} (fits : stackTop < 2 ^ 64) :
    ∀ (positions : List Nat) {alloc : PageAllocator} {rest : List Nat},
      positions.Nodup → (∀ i ∈ positions, (i + 1) * 4096 ≤ stackTop) →
      Building start alloc roots managed root rest →
      Loop.Yields
        (fun after => ∃ left, Building start after roots managed root left ∧
          rest.length ≤ left.length + 3 * positions.length ∧
          PagesFree (mappedPages alloc.mem root) (stackPages stackTop positions) ∧
          mappedPages after.mem root =
            mappedPages alloc.mem root ∪ pageSlot '' stackPages stackTop positions)
        (fun panic => ¬ PagesFree (mappedPages alloc.mem root) (stackPages stackTop positions) ∨
          (rest.length < 3 * positions.length ∧ ∃ message, panic = .outOfFrames message))
        (AtOS.allocStackPages stackTop root positions alloc) := by
  intro positions
  -- The induction is on the positions still to come; each one is one page.
  induction positions with
  | nil =>
    intro alloc rest _ _ building
    have none : stackPages stackTop [] = ∅ := by simp [stackPages]
    rw [none]
    exact .done ⟨rest, building, Nat.le_add_right _ _, .empty _, by simp⟩
  | cons i positions ih =>
    intro alloc rest nodup room building
    obtain ⟨fresh, nodup⟩ := List.nodup_cons.mp nodup
    have here := room i (by simp)
    -- The stack grows down from its top, and does not wrap.
    have address : wrapping (stackTop + 2 ^ 64 - i * 4096 - 1) = stackTop - i * 4096 - 1 := by
      rw [wrapping, show stackTop + 2 ^ 64 - i * 4096 - 1 = stackTop - i * 4096 - 1 + 2 ^ 64 by omega,
        Nat.add_mod_right, Nat.mod_eq_of_lt (by omega)]
    have split : stackPages stackTop (i :: positions) =
        insert ((stackTop - i * 4096 - 1) / 4096) (stackPages stackTop positions) := by
      ext page
      simp [stackPages]
    -- Each position is a page of its own.
    have unused : (stackTop - i * 4096 - 1) / 4096 ∉ stackPages stackTop positions := by
      rintro ⟨j, member, same⟩
      have other := room j (by simp [member])
      exact fresh ((by omega : j = i) ▸ member)
    have step := building.allocPage (stackTop - i * 4096 - 1)
    rw [AtOS.allocStackPages, address, split, PagesFree.insert_iff unused, pageSlot_div,
      List.length_cons]
    generalize AtOS.allocPage (stackTop - i * 4096 - 1) root alloc = result at step
    cases step with
    -- The page may be in use, or frames may be missing.
    | stopped early =>
      rcases early with ⟨used, -⟩ | ⟨few, message⟩
      · exact .stopped (Or.inl fun free => free.1 used)
      · exact .stopped (Or.inr ⟨by omega, message⟩)
    | @done result mapped =>
      obtain ⟨pa, middle⟩ := result
      obtain ⟨left, built, -, few, apart, added⟩ := mapped
      have later := ih nodup (fun j member => room j (by simp [member])) built
      rw [added] at later
      refine later.imp ?_ ?_
      · rintro after ⟨leftLater, builtLater, fewLater, free, mappedLater⟩
        refine ⟨leftLater, builtLater, by omega, ⟨apart, free⟩, ?_⟩
        rw [mappedLater, Set.image_insert_eq, pageSlot_div, Set.insert_union, Set.union_insert]
      · -- The same holds of the pages behind it.
        rintro panic (used | ⟨fewLater, message⟩)
        · exact Or.inl fun free => used free.2
        · exact Or.inr ⟨by omega, message⟩

/-- A root that has just been popped maps nothing. -/
theorem Building.begin (owned : Owned alloc roots (root :: free) managed) :
    ∃ popped, getFreeFramePa alloc = some (root, popped) ∧
      Building alloc popped roots managed root free ∧ mappedPages popped.mem root = ∅ := by
  obtain ⟨popped, pop, sameMem, total, fresh, adopted, childless⟩ := owned.newRoot
  refine ⟨popped, pop, ⟨fresh, adopted, total, ?_⟩, ?_⟩
  · rw [sameMem]
    exact .refl _ _
  · ext page
    rw [← pageOf_start page, mem_mappedPages, leafOf, walk_childless childless (by simp [pagePath])]
    simp

/-- What `load_elf` leaves behind for a file that can be loaded. -/
inductive ElfLoaded (alloc : PageAllocator) (roots managed : Set Nat) (header : Elf64Hdr)
    (bytes : List UInt8) : Except String (Nat × Nat × Nat) × PageAllocator → List Nat → Prop
  | built {after : PageAllocator} {root : Nat} {rest : List Nat}
      (some : header.segments bytes ≠ [])
      (building : Building alloc after roots managed root rest)
      (mapped : mappedPages after.mem root = imageSlots (header.segments bytes) ∪
        pageSlot '' stackPages (stackTopOf (header.segments bytes)) (List.range 14)) :
      ElfLoaded alloc roots managed header bytes
        (.ok (header.entry, stackTopOf (header.segments bytes), root), after) rest
  /-- The root that was popped is not given back. -/
  | noSegments {after : PageAllocator} {root : Nat} {rest : List Nat}
      (none : header.segments bytes = [])
      (building : Building alloc after roots managed root rest)
      (mapped : mappedPages after.mem root = ∅) :
      ElfLoaded alloc roots managed header bytes
        (.error "No loadable segments found in ELF file", after) rest

/-- `load_elf` loads a file exactly if its headers allow it, when there are enough frames. -/
theorem loadElf_yields {header : Elf64Hdr} (owned : Owned alloc roots free managed)
    (verified : Elf64Hdr.mkfrombytes bytes = some header) (fits : bytes.length < 2 ^ 63)
    (noWrap : header.NoWrap bytes)
    (safe : (∀ ph ∈ header.segments bytes, ph.Contained) ∨ Spaced managed) :
    Loop.Yields
      (fun result => ∃ rest, free.length ≤ rest.length + framesNeeded (header.segments bytes) ∧
        header.Loads bytes ∧ ElfLoaded alloc roots managed header bytes result rest)
      (fun _ => ¬ header.Loads bytes ∨ free.length < framesNeeded (header.segments bytes))
      (loadElf bytes alloc) := by
  rw [loadElf, verified]
  dsimp only
  -- The root comes first, and takes a frame.
  cases free with
  | nil =>
    rw [owned.pop_nil]
    exact .stopped (Or.inr (by simp [framesNeeded]))
  | cons root free =>
    obtain ⟨popped, pop, begin, nothing⟩ := Building.begin owned
    rw [pop]
    dsimp only
    -- Then come the segments, whose pages may be in use.
    have run := @Building.loadSegments _ _ _ _ header.phoff bytes fits header.phnum 0
      ⟨popped, 0, false⟩ free (by simpa using noWrap.table)
      (by rw [← List.range_eq_range']; exact noWrap.segments)
      (by rw [← List.range_eq_range']; exact safe) begin
    rw [← List.range_eq_range', ← Elf64Hdr.segments] at run
    dsimp only at run
    rw [nothing, Set.empty_union] at run
    refine run.bind ?_ ?_
    · rintro panic (unloadable | few)
      · exact Or.inl fun loads => unloadable loads.segments
      · refine Or.inr ?_
        simp only [framesNeeded, List.length_cons]
        omega
    rintro loaded ⟨left, built, enough, loads, slots, top, any⟩
    have frames : framesNeeded (header.segments bytes) =
        1 + 3 * (imagePageCount (header.segments bytes) + 14) := rfl
    -- Without a segment the file is refused; with one, the stack follows.
    by_cases none : header.segments bytes = []
    · have stop : ¬ loaded.loadedAnySegments = true := by simp [any, none]
      rw [if_pos stop]
      refine .done ⟨left, ?_, ⟨loads, fun some => absurd none some⟩, .noSegments none built ?_⟩
      · rw [List.length_cons]
        omega
      · rw [slots, none]
        simp [imageSlots, imagePages]
    · have go : ¬ ¬ loaded.loadedAnySegments = true := by simp [any, none]
      have below := noWrap.top none
      have stackTop : wrapping (loaded.maxAllocatedAddr + 0x16000) &&& 0xFFFFFFFFFFFFFFF0 =
          stackTopOf (header.segments bytes) := by
        rw [top, wrapping, Nat.mod_eq_of_lt below, stackTopOf]
        refine (@BitMasks.and_range_eq_sub _ 4 64 (by decide) (by omega)).trans ?_
        omega
      rw [if_neg go, stackTop]
      -- The stack fits below its top.
      have high : stackTopOf (header.segments bytes) < 2 ^ 64 ∧
          14 * 4096 ≤ stackTopOf (header.segments bytes) := by
        rw [stackTopOf]
        omega
      have stack := Building.allocStackPages high.1 (List.range 14) List.nodup_range (by
        intro i position
        rw [List.mem_range] at position
        omega) built
      rw [slots, List.length_range] at stack
      refine stack.bind ?_ ?_
      · -- A page of the stack may be in use, too.
        rintro panic (unloadable | ⟨few, -⟩)
        · exact Or.inl fun loads => unloadable (loads.stack none)
        · refine Or.inr ?_
          rw [List.length_cons]
          omega
      rintro after ⟨rest, finished, fewer, free, mapped⟩
      refine .done ⟨rest, ?_, ⟨loads, fun _ => free⟩, .built none finished mapped⟩
      rw [List.length_cons]
      omega

end Loops

end AtOS
