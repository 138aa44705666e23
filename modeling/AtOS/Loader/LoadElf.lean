import AtOS.Paging.PageAllocator

/-! The ELF headers, and `load_elf`: a new address space with the segments of a file. -/

namespace AtOS

open ByteMemory

/-- A number of 64 bits, with arithmetic that wraps as in the release build. -/
abbrev wrapping (value : Nat) : Nat := value % 2 ^ 64

/-- The little-endian field of a `repr(C)` structure; what lies behind the file reads as zero. -/
def structField (bytes : List UInt8) (offset width : Nat) : Nat :=
  readLE (fun position => bytes.getD position 0) offset width

def elfMagic : Nat := 0x464C457F

def ptLoad : Nat := 1

/-- The fields of `Elf64Hdr` that are read. -/
structure Elf64Hdr where
  magic : Nat
  entry : Nat
  phoff : Nat
  phnum : Nat
  deriving DecidableEq

/-- The fields of `Elf64ProgHdr` that are read. -/
structure Elf64ProgHdr where
  type : Nat
  offset : Nat
  virtaddr : Nat
  filesize : Nat
  memsize : Nat
  deriving DecidableEq

/-- `read_unaligned` of the header at the start of a file. -/
def Elf64Hdr.read (bytes : List UInt8) : Elf64Hdr where
  magic := structField bytes 0 4
  entry := structField bytes 24 8
  phoff := structField bytes 32 8
  phnum := structField bytes 56 2

/-- `verify`. -/
def Elf64Hdr.verify (header : Elf64Hdr) : Bool := header.magic == elfMagic

/-- `mkfrombytes`: the header, if the file is long enough and has the magic number. -/
def Elf64Hdr.mkfrombytes (bytes : List UInt8) : Option Elf64Hdr :=
  if bytes.length < 64 then none
  else if (Elf64Hdr.read bytes).verify then some (Elf64Hdr.read bytes) else none

/-- `read_unaligned` of the program header at an offset. -/
def Elf64ProgHdr.read (bytes : List UInt8) (start : Nat) : Elf64ProgHdr where
  type := structField bytes start 4
  offset := structField bytes (start + 8) 8
  virtaddr := structField bytes (start + 16) 8
  filesize := structField bytes (start + 32) 8
  memsize := structField bytes (start + 40) 8

/-- The size of `Elf64ProgHdr`. -/
def phSize : Nat := 56

/-- More passes than a loop over pages can make: there are this many pages in 64 bits. -/
def maxPasses : Nat := 2 ^ 52

/-- The loop of `load_elf` that maps the pages of a segment, with a bound on its passes. -/
def allocSegmentPages (vaEnd root : Nat) :
    Nat → Nat → PageAllocator → Except Panic PageAllocator
  | 0, _, _ => .error (.failed "the loop goes round the address space")
  | passes + 1, currentPageVa, alloc =>
    if currentPageVa < vaEnd then
      match allocPage currentPageVa root alloc with
      | .ok (_, alloc) => allocSegmentPages vaEnd root passes (wrapping (currentPageVa + 4096)) alloc
      | .error panic => .error panic
    else .ok alloc

/--
The loop of `load_elf` that zeroes the BSS, with a bound on its passes.

The address `frame_va` has the offset in the page already, and gets it a second time.
-/
def zeroBss (vaEnd root : Nat) : Nat → Nat → PageAllocator → Except Panic PageAllocator
  | 0, _, _ => .error (.failed "the loop goes round the address space")
  | passes + 1, zeroVa, alloc =>
    if zeroVa < vaEnd then
      match ttbr0ToTtbr1 alloc.mem zeroVa root with
      | some frameVa =>
        let offsetInPage := zeroVa &&& 0xFFF
        let bytesToZero := min (4096 - offsetInPage) (vaEnd - zeroVa)
        zeroBss vaEnd root passes (wrapping (zeroVa + bytesToZero))
          { alloc with
            mem := fill alloc.mem (ttbr1ToPa frameVa + offsetInPage) bytesToZero 0 }
      | none => .error (.failed "load_elf: missing page while zeroing BSS")
    else .ok alloc

/-- The bytes of a segment in the file, or the panic of a slice that is out of bounds. -/
def segmentBytes (bytes : List UInt8) (ph : Elf64ProgHdr) : Except Panic (List UInt8) :=
  let limit := wrapping (ph.offset + ph.filesize)
  if ph.offset ≤ limit ∧ limit ≤ bytes.length then
    .ok ((bytes.drop ph.offset).take (limit - ph.offset))
  else .error (.failed "range out of bounds for slice")

/-- The step of `load_elf` that copies what the file has of a segment. -/
def copySegment (bytes : List UInt8) (ph : Elf64ProgHdr) (root : Nat) (alloc : PageAllocator) :
    Except Panic PageAllocator :=
  if ph.filesize > 0 then
    match segmentBytes bytes ph with
    | .ok data =>
      match copyToPages data ph.virtaddr root alloc with
      | (.ok (), alloc) => .ok alloc
      | (.error _, _) => .error (.failed "load_elf: copy_to_pages failed")
    | .error panic => .error panic
  else .ok alloc

/-- The body of `load_elf` for one segment: map its pages, copy the file part, zero the rest. -/
def loadSegment (bytes : List UInt8) (ph : Elf64ProgHdr) (root : Nat) (alloc : PageAllocator) :
    Except Panic PageAllocator := do
  let vaStart := ph.virtaddr
  let vaEnd := wrapping (vaStart + ph.memsize)
  let fileEnd := wrapping (vaStart + ph.filesize)
  -- The mask is `!0xFFF` on 64 bits.
  let alloc ← allocSegmentPages vaEnd root maxPasses (vaStart &&& 0xFFFFFFFFFFFFF000) alloc
  let alloc ← copySegment bytes ph root alloc
  if fileEnd < vaEnd then zeroBss vaEnd root maxPasses fileEnd alloc else .ok alloc

/-- The variables of `load_elf` that its loop over the program headers changes. -/
structure LoadState where
  alloc : PageAllocator
  maxAllocatedAddr : Nat
  loadedAnySegments : Bool

/-- The loop of `load_elf` over the program headers that are still to come. -/
def loadSegments (bytes : List UInt8) (start root : Nat) :
    List Nat → LoadState → Except Panic LoadState
  | [], state => .ok state
  | i :: rest, state =>
    let offset := wrapping (start + i * phSize)
    -- The loop breaks at the first header that is not inside the file.
    if wrapping (offset + phSize) > bytes.length then .ok state
    else
      let ph := Elf64ProgHdr.read bytes offset
      if ph.type = ptLoad then
        match loadSegment bytes ph root state.alloc with
        | .ok alloc =>
          let vaEnd := wrapping (ph.virtaddr + ph.memsize)
          loadSegments bytes start root rest
            { alloc
              maxAllocatedAddr :=
                if vaEnd > state.maxAllocatedAddr then vaEnd else state.maxAllocatedAddr
              loadedAnySegments := true }
        | .error panic => .error panic
      else loadSegments bytes start root rest state

/-- The loop of `load_elf` that maps the pages of the stack, from the top down. -/
def allocStackPages (stackTop root : Nat) : List Nat → PageAllocator → Except Panic PageAllocator
  | [], alloc => .ok alloc
  | i :: rest, alloc =>
    match allocPage (wrapping (stackTop + 2 ^ 64 - i * 4096 - 1)) root alloc with
    | .ok (_, alloc) => allocStackPages stackTop root rest alloc
    | .error panic => .error panic

/-- `load_elf`: the entry point, the top of the stack and the new root, or an error. -/
def loadElf (bytes : List UInt8) (alloc : PageAllocator) :
    Except Panic (Except String (Nat × Nat × Nat) × PageAllocator) :=
  match Elf64Hdr.mkfrombytes bytes with
  | none => .ok (.error "Invalid ELF file header", alloc)
  | some header =>
    match getFreeFramePa alloc with
    | none => .error (.outOfFrames "No free frames available for new process")
    | some (ttbr0, alloc) => do
      let loaded ← loadSegments bytes header.phoff ttbr0 (List.range header.phnum)
        { alloc, maxAllocatedAddr := 0, loadedAnySegments := false }
      if ¬ loaded.loadedAnySegments then
        return (.error "No loadable segments found in ELF file", loaded.alloc)
      let stackTop := wrapping (loaded.maxAllocatedAddr + 0x16000) &&& 0xFFFFFFFFFFFFFFF0
      let alloc ← allocStackPages stackTop ttbr0 (List.range 14) loaded.alloc
      return (.ok (header.entry, stackTop, ttbr0), alloc)

end AtOS
