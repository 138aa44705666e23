import AtOS.Library.ByteMemory
import AtOS.Library.Loop

/-! The page allocator: the free frame list, the three-level tables, and the walks over them. -/

namespace AtOS

open ByteMemory

/-- The ways a kernel call ends in the panic handler. -/
inductive Panic where
  /-- The free frame list was empty where a frame had to be there. -/
  | outOfFrames (message : String)
  /-- `alloc_page` met a page that is already mapped. -/
  | pageAlreadyAllocated (va : Nat)
  /-- Any other `panic!`, `expect` or `unwrap`, and failed bounds checks. -/
  | failed (message : String)
  deriving DecidableEq

/-- One of the `PAGE_ENTRIES` entries of a table of `PAGE_SIZE` bytes. -/
abbrev EntryIndex := Fin 512

/--
The value of `FreeFrame.next`, an `Option<*mut FreeFrame>`.

It is a tag word, 0 for `None` and 1 for `Some`, followed by the pointer word.
-/
structure FreeLink where
  tag : Nat
  ptr : Nat
  deriving DecidableEq

/-- The option a link stands for. -/
def FreeLink.toOption (link : FreeLink) : Option Nat :=
  if link.tag = 0 then none else some link.ptr

/--
The statics of `PageAllocator` and the physical memory it works on.

Memory is addressed physically, since the kernel window maps `ttbr1_to_va!(pa)` onto `pa`.
-/
structure PageAllocator where
  mem : Mem
  freeFrameList : FreeLink
  freeFrameCount : Nat
  totalFrameCount : Nat

/-- The macro `ttbr1_to_va!`. -/
def ttbr1ToVa (addr : Nat) : Nat := addr ||| 0xffffff8000000000

/-- The macro `ttbr1_to_pa!`. -/
def ttbr1ToPa (addr : Nat) : Nat := addr &&& 0x0000007FFFFFFFFF

/-- The mask that takes the frame address out of a table entry. -/
def addressMask : Nat := 0x0000FFFFFFFFF000

/-- The complement of `addressMask`, which isolates the attribute bits of an entry. -/
def flagsMask : Nat := 0xFFFF000000000FFF

/-- `(*table).entry[index]`, for a table at a physical address. -/
def entry (mem : Mem) (table : Nat) (index : EntryIndex) : Nat :=
  readLE mem (table + 8 * index.val) 8

/-- `(*table).entry[index] = value`. -/
def setEntry (mem : Mem) (table : Nat) (index : EntryIndex) (value : Nat) : Mem :=
  writeLE mem (table + 8 * index.val) 8 value

/-- An entry is valid when its two low bits are set. -/
def IsValid (value : Nat) : Prop := value &&& 0b11 = 0b11

instance (value : Nat) : Decidable (IsValid value) := inferInstanceAs (Decidable (_ = _))

/-- Nine bits of a virtual address, from the given position up, as a table index. -/
def tableIndex (va shift : Nat) : EntryIndex :=
  ⟨(va >>> shift) &&& 0x1FF, Nat.lt_of_le_of_lt Nat.and_le_right (by decide)⟩

/-- `l1_i`, the index into the root table. -/
def l1Index (va : Nat) : EntryIndex := tableIndex va 30

/-- `l2_i`, the index into the second-level table. -/
def l2Index (va : Nat) : EntryIndex := tableIndex va 21

/-- `l3_i`, the index into the third-level table. -/
def l3Index (va : Nat) : EntryIndex := tableIndex va 12

/-- Read the link a free frame starts with. -/
def readLink (mem : Mem) (frame : Nat) : FreeLink :=
  { tag := readLE mem frame 8, ptr := readLE mem (frame + 8) 8 }

/-- Write the link at the start of a free frame. -/
def writeLink (mem : Mem) (frame : Nat) (link : FreeLink) : Mem :=
  writeLE (writeLE mem frame 8 link.tag) (frame + 8) 8 link.ptr

/-- `zero_frame`. -/
def zeroFrame (mem : Mem) (frameVa : Nat) : Mem := fill mem (ttbr1ToPa frameVa) 4096 0

/-- `get_free_frame_pa`: pop a frame, or `None` on an empty list. -/
def getFreeFramePa (alloc : PageAllocator) : Option (Nat × PageAllocator) :=
  match alloc.freeFrameList.toOption with
  | some freeFrameVa =>
    some (ttbr1ToPa freeFrameVa,
      { alloc with
        freeFrameList := readLink alloc.mem (ttbr1ToPa freeFrameVa)
        freeFrameCount := alloc.freeFrameCount - 1 })
  | none => none

/-- `add_free_frame`: zero the frame around an address and push it. -/
def addFreeFrame (vaInFrame : Nat) (alloc : PageAllocator) : PageAllocator :=
  -- The mask is `!(PAGE_SIZE - 1)` on 64 bits.
  let freeFrameVa := vaInFrame &&& 0xFFFFFFFFFFFFF000
  let mem := zeroFrame alloc.mem freeFrameVa
  { alloc with
    mem := writeLink mem (ttbr1ToPa freeFrameVa) alloc.freeFrameList
    freeFrameList := { tag := 1, ptr := freeFrameVa }
    freeFrameCount := alloc.freeFrameCount + 1 }

/-- The addresses `init_frames` goes through: `(first..limit).step_by(PAGE_SIZE)`. -/
def frameVas (firstFreeFrameVa lastFrameVaLimit : Nat) : List Nat :=
  (List.range ((lastFrameVaLimit - firstFreeFrameVa + 4095) / 4096)).map
    fun step => firstFreeFrameVa + 4096 * step

/-- `init_frames`: mark every frame of a range as free. -/
def initFrames (firstFreeFrameVa lastFrameVaLimit : Nat) (alloc : PageAllocator) : PageAllocator :=
  let filled := (frameVas firstFreeFrameVa lastFrameVaLimit).foldl
    (fun alloc frameVa => addFreeFrame frameVa alloc) alloc
  { filled with totalFrameCount := filled.freeFrameCount }

/-- `ttbr0_to_pa`, for a table root that is passed in. -/
def ttbr0ToPa (mem : Mem) (va root : Nat) : Option Nat :=
  let l1 := root
  if ¬ IsValid (entry mem l1 (l1Index va)) then none
  else
    let l2 := entry mem l1 (l1Index va) &&& addressMask
    if ¬ IsValid (entry mem l2 (l2Index va)) then none
    else
      let l3 := entry mem l2 (l2Index va) &&& addressMask
      let l3Entry := entry mem l3 (l3Index va)
      if ¬ IsValid l3Entry then none
      else some ((l3Entry &&& addressMask) + (va &&& 0xFFF))

/-- `ttbr0_to_ttbr1`: the kernel address of a byte of another address space. -/
def ttbr0ToTtbr1 (mem : Mem) (va root : Nat) : Option Nat :=
  (ttbr0ToPa mem va root).map ttbr1ToVa

/-- The attributes `alloc_page` gives a leaf entry. -/
def leafFlags : Nat :=
  let valid := 1 <<< 0
  let page := 1 <<< 1
  let attrNormal := 1 <<< 2
  let apEl0Rw := 0b01 <<< 6
  let shInner := 0b11 <<< 8
  let af := 1 <<< 10
  let pxn := 1 <<< 53
  let ng := 1 <<< 11
  valid ||| page ||| apEl0Rw ||| shInner ||| af ||| pxn ||| ng ||| attrNormal

/-- The step of `alloc_page` that hangs a zeroed table below an entry that has none. -/
def ensureTable (table : Nat) (index : EntryIndex) (message : String) (alloc : PageAllocator) :
    Except Panic PageAllocator :=
  if ¬ IsValid (entry alloc.mem table index) then
    match getFreeFramePa alloc with
    | some (newTable, alloc) =>
      .ok { alloc with mem := fill (setEntry alloc.mem table index (newTable ||| 0b11)) newTable 4096 0 }
    | none => .error (.outOfFrames message)
  else .ok alloc

/-- `alloc_page`: map a page to a fresh frame, and return the frame. -/
def allocPage (va root : Nat) (alloc : PageAllocator) : Except Panic (Nat × PageAllocator) := do
  if (ttbr0ToPa alloc.mem va root).isSome then
    throw (.pageAlreadyAllocated va)
  let l1 := root
  let alloc ← ensureTable l1 (l1Index va) "No free frames available for new L2 page table" alloc
  let l2 := entry alloc.mem l1 (l1Index va) &&& addressMask
  let alloc ← ensureTable l2 (l2Index va) "No free frames available for new L3 page table" alloc
  let l3 := entry alloc.mem l2 (l2Index va) &&& addressMask
  if ¬ IsValid (entry alloc.mem l3 (l3Index va)) then
    match getFreeFramePa alloc with
    | some (frame, alloc) =>
      let alloc := { alloc with mem := setEntry alloc.mem l3 (l3Index va) (frame ||| leafFlags) }
      return (entry alloc.mem l3 (l3Index va) &&& addressMask, alloc)
    | none => throw (.outOfFrames "No free frames available for new page table entry")
  else throw (.pageAlreadyAllocated va)

/-- `free_page`: unmap a page and free its frame; nothing happens when it is not mapped. -/
def freePage (vaInPage root : Nat) (alloc : PageAllocator) : PageAllocator :=
  let l1 := root
  if ¬ IsValid (entry alloc.mem l1 (l1Index vaInPage)) then alloc
  else
    let l2 := entry alloc.mem l1 (l1Index vaInPage) &&& addressMask
    if ¬ IsValid (entry alloc.mem l2 (l2Index vaInPage)) then alloc
    else
      let l3 := entry alloc.mem l2 (l2Index vaInPage) &&& addressMask
      let l3Entry := entry alloc.mem l3 (l3Index vaInPage)
      if ¬ IsValid l3Entry then alloc
      else
        addFreeFrame (ttbr1ToVa (l3Entry &&& addressMask))
          { alloc with mem := setEntry alloc.mem l3 (l3Index vaInPage) 0 }

/-- `bytes_this_page`: what is left of the page and what is left of the source, if less. -/
def bytesThisPage (currentVa remaining : Nat) : Nat :=
  min (4096 - (currentVa &&& 4095)) remaining

/--
The loop of `copy_to_pages`, from an offset into the source on.

Its first argument bounds the passes; each pass moves a byte, so the source's length is enough.
-/
def copyToPagesFrom (src : List UInt8) (root : Nat) :
    Nat → Nat → Nat → Mem → Except String Unit × Mem
  | 0, _, _, mem => (.ok (), mem)
  | passes + 1, srcOffset, currentVa, mem =>
    if srcOffset < src.length then
      match ttbr0ToTtbr1 mem currentVa root with
      | some dst =>
        let count := bytesThisPage currentVa (src.length - srcOffset)
        copyToPagesFrom src root passes (srcOffset + count) (currentVa + count)
          (store mem (ttbr1ToPa dst) ((src.drop srcOffset).take count))
      | none => (.error "Destination page not mapped", mem)
    else (.ok (), mem)

/-- `copy_to_pages`: write bytes into an address space, page by page. -/
def copyToPages (src : List UInt8) (dstVa root : Nat) (alloc : PageAllocator) :
    Except String Unit × PageAllocator :=
  let (result, mem) := copyToPagesFrom src root src.length 0 dstVa alloc.mem
  (result, { alloc with mem })

/-- `do_duplicate_table_recursive`, one entry of the source table. -/
def duplicateEntry (recurse : Nat → Nat → PageAllocator → Except String Unit × PageAllocator)
    (isLeafTable : Bool) (srcTable dstTable : Nat) (index : EntryIndex) (alloc : PageAllocator) :
    Except String Unit × PageAllocator :=
  let srcEntry := entry alloc.mem srcTable index
  if IsValid srcEntry then
    let oldPa := srcEntry &&& addressMask
    let flags := srcEntry &&& flagsMask
    if ¬ isLeafTable then
      match getFreeFramePa alloc with
      | some (newTablePa, alloc) =>
        let mem := fill alloc.mem newTablePa 4096 0
        recurse oldPa newTablePa
          { alloc with mem := setEntry mem dstTable index (newTablePa ||| flags) }
      | none => (.error "Out of memory: failed to allocate intermediate page table", alloc)
    else
      match getFreeFramePa alloc with
      | some (newFramePa, alloc) =>
        let mem := copy alloc.mem oldPa newFramePa 4096
        (.ok (), { alloc with mem := setEntry mem dstTable index (newFramePa ||| flags) })
      | none => (.error "Out of memory: failed to allocate data frame for child process", alloc)
  else (.ok (), alloc)

/-- `do_duplicate_table_recursive`, with the height 4 minus the level as its first argument. -/
def doDuplicateTableRecursive :
    Nat → Nat → Nat → PageAllocator → Except String Unit × PageAllocator
  | 0, _, _, alloc => (.ok (), alloc)
  | height + 1, srcTtpa, dstTtpa, alloc =>
    Loop.forEach
      (duplicateEntry (doDuplicateTableRecursive height) (height == 0) srcTtpa dstTtpa)
      (List.finRange 512) alloc

/-- `do_free_table_recursive`, one entry of the table that is being freed. -/
def freeEntry (recurse : Nat → PageAllocator → PageAllocator) (isLeafTable : Bool) (table : Nat)
    (alloc : PageAllocator) (index : EntryIndex) : PageAllocator :=
  let value := entry alloc.mem table index
  if IsValid value then
    if ¬ isLeafTable then recurse (value &&& addressMask) alloc
    else
      addFreeFrame (ttbr1ToVa (value &&& addressMask))
        { alloc with mem := setEntry alloc.mem table index 0 }
  else alloc

/-- `do_free_table_recursive`, with the height 4 minus the level as its first argument. -/
def doFreeTableRecursive : Nat → Nat → PageAllocator → PageAllocator
  | 0, _, alloc => alloc
  | height + 1, ttpa, alloc =>
    addFreeFrame (ttbr1ToVa ttpa)
      ((List.finRange 512).foldl
        (freeEntry (doFreeTableRecursive height) (height == 0) ttpa) alloc)

/-- `free_page_table`. -/
def freePageTable (root : Nat) (alloc : PageAllocator) : PageAllocator :=
  doFreeTableRecursive 3 root alloc

/-- `duplicate_va_space`: copy a whole address space, or free the partial copy and fail. -/
def duplicateVaSpace (srcRoot : Nat) (alloc : PageAllocator) :
    Except String Nat × PageAllocator :=
  match getFreeFramePa alloc with
  | none => (.error "No more memory to allocate new translation table for child process", alloc)
  | some (dstRoot, alloc) =>
    let alloc := { alloc with mem := fill alloc.mem dstRoot 4096 0 }
    match doDuplicateTableRecursive 3 srcRoot dstRoot alloc with
    | (.ok (), alloc) => (.ok dstRoot, alloc)
    | (.error error, alloc) => (.error error, freePageTable dstRoot alloc)

end AtOS
