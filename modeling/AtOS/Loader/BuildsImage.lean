import AtOS.Loader.FreshFrames

/-! When `load_elf` builds the image that a file describes, from every state of the allocator. -/

namespace AtOS

open ByteMemory RadixForest

/-- What a segment has at one of its bytes: the byte of the file, and zero behind the file part. -/
def Elf64ProgHdr.byte (ph : Elf64ProgHdr) (bytes : List UInt8) (i : Nat) : UInt8 :=
  if i < ph.filesize then bytes.getD (ph.offset + i) 0 else 0

/--
From a state with these free frames, `load_elf` builds the image of a file.

It may also run out of frames, but not when there are enough.
-/
def BuildsImageFrom (bytes : List UInt8) (header : Elf64Hdr) (alloc : PageAllocator)
    (free : List Nat) : Prop :=
  (∃ message, loadElf bytes alloc = .error (.outOfFrames message) ∧
    free.length < framesNeeded (header.segments bytes)) ∨
  ∃ stackTop root after,
    loadElf bytes alloc = .ok (.ok (header.entry, stackTop, root), after) ∧
    (∀ ph ∈ header.segments bytes, ∀ i < ph.memsize,
      byteAt after.mem root (ph.virtaddr + i) = some (ph.byte bytes i)) ∧
    ∀ address, (∀ pa ∈ free, address ∉ frame pa) → after.mem address = alloc.mem address

/-- From every state of the allocator, `load_elf` builds the image of a file. -/
def BuildsImage (bytes : List UInt8) (header : Elf64Hdr) : Prop :=
  ∀ alloc roots free managed, Owned alloc roots free managed →
    BuildsImageFrom bytes header alloc free

/--
The zeroing of a segment does its work although it adds the offset in the page twice.

It stays in the page it starts in, and what it leaves out there was zero in the free frame.
-/
def Elf64ProgHdr.Zeroable (ph : Elf64ProgHdr) : Prop :=
  ph.filesize < ph.memsize →
    2 * (ph.fileEnd % 4096) + zeroCount ph.fileEnd ph.vaEnd ≤ 4096 ∧
    ∀ offset ∈ pointerBytes, ph.fileEnd % 4096 ≤ offset →
      offset < ph.fileEnd % 4096 + zeroCount ph.fileEnd ph.vaEnd → 2 * (ph.fileEnd % 4096) ≤ offset

/-- A file has something to load, and the zeroing of all its segments does its work. -/
def Elf64Hdr.Loadable (header : Elf64Hdr) (bytes : List UInt8) : Prop :=
  header.segments bytes ≠ [] ∧ ∀ ph ∈ header.segments bytes, ph.Zeroable

section Bytes

variable {alloc after : PageAllocator} {roots : Set Nat} {free : List Nat} {managed : Set Nat}
  {bytes : List UInt8} {header : Elf64Hdr} {segments : List Elf64ProgHdr} {root : Nat}
  {spill : Set Nat} {taken rest : List Nat} {ph : Elf64ProgHdr}

/-- What can be zeroed stays within its pages. -/
theorem Elf64ProgHdr.Zeroable.contained (zeroable : ph.Zeroable) : ph.Contained :=
  fun more => (zeroable more).1

/-- The bytes of the file part are those of the file. -/
theorem Elf64ProgHdr.byte_file (wellFormed : ph.WellFormed bytes) {i : Nat} (inFile : i < ph.filesize) :
    bytes[ph.offset + i]? = some (ph.byte bytes i) := by
  have fits := wellFormed.inFile
  rw [Elf64ProgHdr.byte, if_pos inFile, List.getD_eq_getElem?_getD,
    List.getElem?_eq_getElem (by omega), Option.getD_some]

/-- A taken frame was free. -/
theorem ImageLoaded.taken_free (image : ImageLoaded alloc after roots free managed bytes segments root
    spill taken rest) {pa : Nat} (listed : pa ∈ taken) : pa ∈ free := by
  rw [image.free_eq]
  simp [listed]

/-- When the zeroing does its work, every byte of a segment is right. -/
theorem ImageLoaded.byte (owned : Owned alloc roots free managed)
    (image : ImageLoaded alloc after roots free managed bytes segments root spill taken rest)
    (member : ph ∈ segments) (wellFormed : ph.WellFormed bytes) (zeroable : ph.Zeroable) {i : Nat}
    (inside : i < ph.memsize) :
    byteAt after.mem root (ph.virtaddr + i) = some (ph.byte bytes i) := by
  -- A byte stands in the file, or it has been zeroed, or it was left out.
  by_cases inFile : i < ph.filesize
  · rw [(image.image ph member).file i inFile, ph.byte_file wellFormed inFile]
  · rw [Elf64ProgHdr.byte, if_neg inFile]
    by_cases zeroed : ph.virtaddr + i ∈ zeroedBytes ph.fileEnd ph.vaEnd
    · exact (image.image ph member).zeroed i inside (by omega) zeroed
    · -- What is left out was zero already when the frame was free.
      obtain ⟨byte, present, pa, listed, fresh⟩ := (image.image ph member).gap i inside (by omega) zeroed
      obtain ⟨-, apart⟩ := zeroable (by omega)
      have position : ph.fileEnd % 4096 ≤ (ph.virtaddr + i) % 4096 ∧
          (ph.virtaddr + i) % 4096 < ph.fileEnd % 4096 + zeroCount ph.fileEnd ph.vaEnd ∧
          (ph.virtaddr + i) % 4096 < 2 * (ph.fileEnd % 4096) := by
        simp only [zeroedBytes, Set.mem_ofPred_eq, zeroCount, Elf64ProgHdr.fileEnd,
          Elf64ProgHdr.vaEnd] at zeroed ⊢
        omega
      have zero := owned.free_byte_zero (image.taken_free listed)
        (Nat.mod_lt (ph.virtaddr + i) (by decide)) (by omega) (fun inPointer => by
          have behind := apart _ inPointer position.1 position.2.1
          omega)
      rw [present, fresh, zero]

/-- When every zeroing stays in its page, only free frames are written. -/
theorem ImageLoaded.others
    (image : ImageLoaded alloc after roots free managed bytes segments root spill taken rest)
    (contained : ∀ ph ∈ segments, ph.Contained) {address : Nat}
    (outside : ∀ pa ∈ free, address ∉ frame pa) : after.mem address = alloc.mem address := by
  by_cases inFrame : ∃ pa ∈ managed, address ∈ frame pa
  · obtain ⟨pa, member, inside⟩ := inFrame
    refine image.loading.kept pa member (fun used => outside pa ?_ inside) inside
    rw [image.free_eq]
    simp only [List.mem_cons, List.mem_append] at used ⊢
    tauto
  · refine image.loading.outside address ?_ fun pa member inside => inFrame ⟨pa, member, inside⟩
    rw [image.contained contained]
    exact Set.notMem_empty address

/-- A file whose segments can all be zeroed is loaded from every state. -/
theorem Elf64Hdr.Loadable.buildsImage (loadable : header.Loadable bytes)
    (wellFormed : WellFormedElf bytes header) : BuildsImage bytes header := by
  intro alloc roots free managed owned
  obtain ⟨some, zeroable⟩ := loadable
  have outcome := loadElf_spec owned wellFormed
    (Or.inl fun ph member => (zeroable ph member).contained)
  generalize resultEq : loadElf bytes alloc = result at outcome
  cases outcome with
  | loaded _ image =>
    exact Or.inr ⟨_, _, _, resultEq,
      fun ph member i inside => image.byte owned member (wellFormed.segments.each ph member)
        (zeroable ph member) inside,
      fun address outside => image.others (fun ph member => (zeroable ph member).contained) outside⟩
  | noSegments none => exact absurd none some
  | outOfFrames few => exact Or.inl ⟨_, resultEq, few⟩

end Bytes

section Converse

variable {alloc after : PageAllocator} {free : List Nat} {managed : Set Nat} {bytes : List UInt8}
  {header : Elf64Hdr} {segments : List Elf64ProgHdr} {root : Nat} {spill : Set Nat}
  {taken rest : List Nat} {ph : Elf64ProgHdr}

/-- Where a zeroing leaves its page it clears a byte that belongs to nobody. -/
theorem ImageLoaded.spills (pool : Telltale alloc free managed) (spaced : Spaced managed)
    (image : ImageLoaded alloc after ∅ free managed bytes segments root spill taken rest)
    (member : ph ∈ segments) (spills : ¬ ph.Contained) :
    ∃ address, (∀ pa ∈ free, address ∉ frame pa) ∧ after.mem address ≠ alloc.mem address := by
  obtain ⟨leaf, leafManaged, reached⟩ := image.overrun ph member spills
  have isLeaf := (pool.owned.frames leaf leafManaged).1
  simp only [Elf64ProgHdr.Contained, Classical.not_imp] at spills
  -- Something is zeroed, or the segment would be contained.
  have some : 0 < zeroCount ph.fileEnd ph.vaEnd := by
    simp only [zeroCount, Elf64ProgHdr.fileEnd, Elf64ProgHdr.vaEnd]
    omega
  obtain ⟨address, first⟩ : ∃ address, address = max (leaf + 4096) (leaf + 2 * (ph.fileEnd % 4096)) :=
    ⟨_, rfl⟩
  -- The first byte that is zeroed outside of the page is cleared in another frame.
  have bound : address < leaf + 2 * (ph.fileEnd % 4096) + zeroCount ph.fileEnd ph.vaEnd := by omega
  have cleared : address ∈ spill :=
    reached ⟨by omega, by omega, bound⟩
  -- The frame behind the leaf is not managed, since managed frames are spaced.
  have apart : ∀ pa ∈ managed, address ∉ frame pa := by
    intro pa paManaged inside
    have isFrame := (pool.owned.frames pa paManaged).1
    have next : pa = leaf + 4096 := by
      simp only [frame, block, Set.mem_Ico] at inside
      omega
    exact spaced leaf leafManaged (next ▸ paManaged)
  refine ⟨address, fun pa listed => apart pa (pool.owned.free_managed listed), ?_⟩
  rw [image.loading.spilt address cleared apart]
  exact (pool.around address apart).symm

/-- Where a zeroing leaves out a byte of a free frame's pointer, that byte is not zero. -/
theorem ImageLoaded.missed (pool : Telltale alloc free managed)
    (image : ImageLoaded alloc after ∅ free managed bytes segments root spill taken rest)
    (member : ph ∈ segments) {offset : Nat} (inPointer : offset ∈ pointerBytes)
    (above : ph.fileEnd % 4096 ≤ offset)
    (below : offset < ph.fileEnd % 4096 + zeroCount ph.fileEnd ph.vaEnd)
    (gap : offset < 2 * (ph.fileEnd % 4096)) :
    ∃ i < ph.memsize, byteAt after.mem root (ph.virtaddr + i) ≠ some (ph.byte bytes i) := by
  have small := inPointer.2
  -- A byte of the pointer is skipped, since zeroing starts at twice the offset.
  have position : (ph.fileEnd + (offset - ph.fileEnd % 4096)) % 4096 = offset := by omega
  simp only [zeroCount, Elf64ProgHdr.fileEnd, Elf64ProgHdr.vaEnd] at above below gap position
  refine ⟨ph.filesize + (offset - (ph.virtaddr + ph.filesize) % 4096), by omega, ?_⟩
  rw [← Nat.add_assoc]
  obtain ⟨byte, present, pa, listed, fresh⟩ := (image.image ph member).gap
    (ph.filesize + (offset - (ph.virtaddr + ph.filesize) % 4096)) (by omega) (by omega) (by
      rw [← Nat.add_assoc]
      simp only [zeroedBytes, Set.mem_ofPred_eq, Elf64ProgHdr.fileEnd, Elf64ProgHdr.vaEnd]
      omega)
  rw [← Nat.add_assoc, position] at fresh
  rw [← Nat.add_assoc] at present
  rw [present, Elf64ProgHdr.byte, if_neg (by omega), fresh]
  -- There the frame still holds a part of the link to the next free frame.
  exact fun same => pool.links pa (image.taken_free listed) offset inPointer (Option.some.inj same)

/-- A file that is loaded from every state can be zeroed. -/
theorem BuildsImage.loadable (builds : BuildsImage bytes header)
    (wellFormed : WellFormedElf bytes header)
    (room : framesNeeded (header.segments bytes) ≤ 2 ^ 21) : header.Loadable bytes := by
  obtain ⟨alloc, free, managed, pool, size, spaced⟩ := exists_telltale room
  rcases builds alloc ∅ free managed pool.owned with ⟨message, -, few⟩ | built
  · omega
  · obtain ⟨stackTop, root, after, done, right, others⟩ := built
    obtain ⟨spill, taken, rest, some, image⟩ :=
      loadElf_loaded pool.owned wellFormed (Or.inr spaced) done
    refine ⟨some, fun ph member more => ⟨?_, fun offset inPointer above below => ?_⟩⟩
    · by_contra spills
      obtain ⟨address, outside, changed⟩ := image.spills pool spaced member
        fun contained => spills (contained more)
      exact changed (others address outside)
    · by_contra gap
      obtain ⟨i, inside, wrong⟩ := image.missed pool member inPointer above below (by omega)
      exact wrong (right ph member i inside)

/--
`load_elf` builds the image of a well-formed file from every state exactly if it can zero it.

For the second direction there has to be memory for the image; 8 GiB of frames are enough here.
-/
theorem buildsImage_iff_loadable (wellFormed : WellFormedElf bytes header) :
    (header.Loadable bytes → BuildsImage bytes header) ∧
      (framesNeeded (header.segments bytes) ≤ 2 ^ 21 →
        (BuildsImage bytes header ↔ header.Loadable bytes)) :=
  ⟨fun loadable => loadable.buildsImage wellFormed, fun room =>
    ⟨fun builds => builds.loadable wellFormed room, fun loadable => loadable.buildsImage wellFormed⟩⟩

end Converse

section Small

/-- A file with one segment of 16 bytes, of which it has ten. -/
def smallBss : List UInt8 :=
  [0x7F, 0x45, 0x4C, 0x46, 2, 1, 1, 0, 0, 0, 0, 0, 0, 0, 0, 0,
    2, 0, 0xB7, 0, 1, 0, 0, 0, 0, 0, 0, 0, 0, 0, 0, 0,
    0x40, 0, 0, 0, 0, 0, 0, 0, 0, 0, 0, 0, 0, 0, 0, 0,
    0, 0, 0, 0, 0x40, 0, 0x38, 0, 1, 0, 0, 0, 0, 0, 0, 0,
    1, 0, 0, 0, 6, 0, 0, 0, 0x78, 0, 0, 0, 0, 0, 0, 0,
    0, 0, 0, 0, 0, 0, 0, 0, 0, 0, 0, 0, 0, 0, 0, 0,
    0x0A, 0, 0, 0, 0, 0, 0, 0, 0x10, 0, 0, 0, 0, 0, 0, 0,
    0, 0x10, 0, 0, 0, 0, 0, 0, 1, 2, 3, 4, 5, 6, 7, 8,
    9, 0x0A]

/-- The header of the small file. -/
def smallBssHeader : Elf64Hdr := { magic := elfMagic, entry := 0, phoff := 64, phnum := 1 }

/-- The program header of the small file. -/
def smallBssSegment : Elf64ProgHdr :=
  { type := ptLoad, offset := 120, virtaddr := 0, filesize := 10, memsize := 16 }

/-- The small file has 130 bytes. -/
theorem smallBss_length : smallBss.length = 130 := by simp [smallBss]

set_option maxRecDepth 2000 in
/-- The small file has one segment. -/
theorem smallBss_segments : smallBssHeader.segments smallBss = [smallBssSegment] := by decide

set_option maxRecDepth 2000 in
/-- The small file has a header. -/
theorem smallBss_verified : Elf64Hdr.mkfrombytes smallBss = some smallBssHeader := by decide

/-- The small file is a well-formed ELF file. -/
theorem smallBss_wellFormed : WellFormedElf smallBss smallBssHeader := by
  refine ⟨smallBss_verified, by rw [smallBss_length]; decide, by decide, ?_, ?_⟩
  · rw [smallBss_segments]
    simp only [List.mem_singleton, forall_eq]
    exact ⟨by decide, by rw [smallBss_length]; decide, by decide⟩
  · rw [smallBss_segments]
    exact List.pairwise_singleton _ _

/--
The small file is loaded wrong whenever there are frames.

Its last four bytes keep the upper half of a free frame's pointer, which is a kernel address.
-/
theorem Owned.smallBss_not_built {alloc : PageAllocator} {roots : Set Nat} {free : List Nat}
    {managed : Set Nat} (owned : Owned alloc roots free managed)
    (enough : framesNeeded (smallBssHeader.segments smallBss) < free.length) :
    ¬ BuildsImageFrom smallBss smallBssHeader alloc free := by
  -- Nothing is zeroed outside of the page of the segment.
  have contained : ∀ ph ∈ smallBssHeader.segments smallBss, ph.Contained := by
    rw [smallBss_segments]
    simp only [List.mem_singleton, forall_eq]
    intro _
    decide
  have member : smallBssSegment ∈ smallBssHeader.segments smallBss := by
    rw [smallBss_segments]
    exact List.mem_singleton_self _
  -- The image would be refused for want of frames, and there are enough, or it would be right.
  rintro (⟨message, -, few⟩ | ⟨stackTop, root, after, done, right, -⟩)
  · omega
  · obtain ⟨spill, taken, rest, -, image⟩ :=
      loadElf_loaded owned smallBss_wellFormed (Or.inl contained) done
    -- The byte behind the first four is left out.
    have outside : smallBssSegment.virtaddr + 12 ∉
        zeroedBytes smallBssSegment.fileEnd smallBssSegment.vaEnd :=
      fun zeroed => absurd (zeroed.2.2 (by decide)) (by decide)
    have gap := (image.image _ member).gap 12 (by decide) (by decide) outside
    obtain ⟨byte, present, pa, listed, fresh⟩ := gap
    -- The frame was not the last one of the list, so it pointed to another frame.
    obtain ⟨before, behind, split⟩ := List.append_of_mem listed
    have whole := image.free_eq
    have few := image.few
    have count := congrArg List.length whole
    simp only [List.length_cons, List.length_append] at count
    cases rest with
    | nil =>
      rw [List.length_nil] at count
      omega
    | cons last rest =>
      obtain ⟨next, others, tail⟩ : ∃ next others, behind ++ last :: rest = next :: others :=
        List.exists_cons_of_ne_nil (by simp)
      have chain := owned.chain
      rw [whole, split, List.append_assoc, List.cons_append, tail, ← List.cons_append] at chain
      have wrong := right _ member 12 (by decide)
      rw [present, fresh] at wrong
      have isFrame : IsFrame next := owned.free_frame (by
        rw [whole, split, List.append_assoc, List.cons_append, tail]
        simp)
      -- So the byte belongs to a link that is not empty, and is not zero.
      exact chain.pointer_byte isFrame (Option.some.inj wrong)

/-- The pool that `init_frames` makes of 64 frames of zeroed memory. -/
def smallPool : Pool where
  alloc := initFrames 0xffffff8000000000 0xffffff8000040000
    { mem := fun _ => 0, freeFrameList := ⟨0, 0⟩, freeFrameCount := 0, totalFrameCount := 0 }
  live := ∅

/-- The small pool is one after boot. -/
theorem smallPool_booted : smallPool.Booted 0xffffff8000000000 0xffffff8000040000 :=
  ⟨by decide, by decide, by decide, rfl, fun _ => 0, ⟨0, 0⟩, rfl, rfl, by decide, rfl⟩

/-- From the small pool, which has enough frames, the small file is loaded wrong. -/
theorem smallBss_counterexample :
    WellFormedElf smallBss smallBssHeader ∧
      ∃ free managed, Owned smallPool.alloc smallPool.live free managed ∧
        framesNeeded (smallBssHeader.segments smallBss) < free.length ∧
        ¬ BuildsImageFrom smallBss smallBssHeader smallPool.alloc free := by
  obtain ⟨free, conserved⟩ := smallPool_booted.conserved
  have size : free.length = 64 := conserved.owned.count.symm.trans (by decide)
  have enough : framesNeeded (smallBssHeader.segments smallBss) < free.length := by
    rw [size, smallBss_segments]
    decide
  exact ⟨smallBss_wellFormed, free, _, conserved.owned, enough,
    conserved.owned.smallBss_not_built enough⟩

/-- The small file cannot be zeroed, and so it is not loaded from every state. -/
theorem smallBss_not_loadable :
    ¬ smallBssHeader.Loadable smallBss ∧ ¬ BuildsImage smallBss smallBssHeader := by
  have notLoadable : ¬ smallBssHeader.Loadable smallBss := by
    rintro ⟨-, zeroable⟩
    rw [smallBss_segments] at zeroable
    obtain ⟨-, apart⟩ := zeroable _ (List.mem_singleton_self _) (by decide)
    exact absurd (apart 12 (by simp [pointerBytes]) (by decide) (by decide)) (by decide)
  have room : framesNeeded (smallBssHeader.segments smallBss) ≤ 2 ^ 21 := by
    rw [smallBss_segments]
    decide
  exact ⟨notLoadable, fun builds =>
    notLoadable (((buildsImage_iff_loadable smallBss_wellFormed).2 room).mp builds)⟩

end Small

end AtOS
