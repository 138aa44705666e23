import AtOS.Paging.PageAllocator
import AtOS.Processes.Context

/-! Arguments on the user stack: how the kernel pushes them, and how a program parses them. -/

namespace AtOS

open ByteMemory

/-- `STACK_BUF_SIZE`. -/
def stackBufSize : Nat := 4096

/-- `MAX_ARGS` of the kernel, and the length of the program's `argv`. -/
def maxArgs : Nat := 64

/-- `as_bytes`. -/
def asBytes (arg : String) : List UInt8 := arg.toByteArray.data.toList

/--
The loop of `push_args_to_stack` that copies the arguments into the image, from the top down.

The image is addressed like a memory. The result has the image, `sp` and `arg_starts`.
-/
def placeArgs : List String → Mem → Nat → Except String (Mem × Nat × List Nat)
  | [], image, sp => .ok (image, sp, [])
  | arg :: rest, image, sp =>
    let bytes := asBytes arg
    if sp < bytes.length then .error "arguments exceed stack"
    else
      let sp := sp - bytes.length
      match placeArgs rest (store image sp bytes) sp with
      | .ok (image, final, argStarts) => .ok (image, final, sp :: argStarts)
      | .error error => .error error

/-- The loop of `push_args_to_stack` that writes the offsets, from a position on. -/
def placeOffsets (sp : Nat) : List Nat → Nat → Mem → Mem
  | [], _, image => image
  | argStart :: rest, i, image =>
    placeOffsets sp rest (i + 1) (writeLE image (sp + i * 8) 8 (argStart - sp))

/-- The part of `push_args_to_stack` that works on the buffer: the image and the final `sp`. -/
def argsImage (args : List String) : Except String (Mem × Nat) :=
  if args.length > maxArgs then .error "too many arguments"
  else
    match placeArgs args (fun _ => 0) stackBufSize with
    | .error error => .error error
    | .ok (image, sp, argStarts) =>
      let sp := sp &&& 0xFFFFFFFFFFFFFFF0
      if sp < args.length * 8 + 8 then .error "arguments exceed stack"
      else
        let sp := (sp - args.length * 8) &&& 0xFFFFFFFFFFFFFFF0
        .ok (placeOffsets sp argStarts 0 image, sp)

/-- `push_args_to_stack`. -/
def pushArgsToStack (args : List String) (pctx : ProcessContext) (alloc : PageAllocator) :
    Except String (UInt64 × UInt64 × UInt64) × ProcessContext × PageAllocator :=
  match argsImage args with
  | .error error => (.error error, pctx, alloc)
  | .ok (image, sp) =>
    let stackTop := pctx.spEl0
    let newSp := stackTop - UInt64.ofNat (stackBufSize - sp)
    let bytes := (List.range (stackBufSize - sp)).map fun position => image (sp + position)
    match copyToPages bytes newSp.toNat pctx.ttbr0.toNat alloc with
    | (.error error, alloc) => (.error error, pctx, alloc)
    | (.ok (), alloc) =>
      (.ok (UInt64.ofNat args.length, newSp, stackTop), { pctx with spEl0 := newSp }, alloc)

/-- `initialize_args`. -/
def initializeArgs (args : List String) (pctx : ProcessContext) (alloc : PageAllocator) :
    Except String Unit × ProcessContext × PageAllocator :=
  match pushArgsToStack args pctx alloc with
  | (.error error, pctx, alloc) => (.error error, pctx, alloc)
  | (.ok (argc, newSp, spTop), pctx, alloc) =>
    (.ok (), { pctx with x := ((pctx.x.set 0 argc).set 1 newSp).set 2 spTop }, alloc)

/-- The registers that carry the arguments. -/
theorem argRegisters (x : Vector UInt64 31) (argc newSp spTop : UInt64) :
    (((x.set 0 argc).set 1 newSp).set 2 spTop).get 0 = argc ∧
      (((x.set 0 argc).set 1 newSp).set 2 spTop).get 1 = newSp ∧
      (((x.set 0 argc).set 1 newSp).set 2 spTop).get 2 = spTop := by
  simp [register_eq]

/-- The bytes of a slice, as a program reads them; where nothing is mapped, it faults. -/
def readSlice (read : Nat → Option UInt8) (start length : Nat) : Option (List UInt8) :=
  (List.range length).mapM fun position => read (start + position)

/-- A `u64` as a program reads it. -/
def readU64 (read : Nat → Option UInt8) (start : Nat) : Option UInt64 :=
  (readSlice read start 8).map fun bytes =>
    UInt64.ofNat (readLE (fun position => bytes.getD position 0) 0 8)

/-- The closure of `parse_args!` for an index below `argc`. -/
def parseArg (read : Nat → Option UInt8) (finalSp stackTop : UInt64) (offsets : List UInt64)
    (i : Nat) : Option String :=
  let start := finalSp + offsets.getD i 0
  let len := if i = 0 then stackTop - start else offsets.getD (i - 1) 0 - offsets.getD i 0
  (readSlice read start.toNat len.toNat).bind fun bytes => String.fromUTF8? bytes.toByteArray

/-- `parse_args!`: the arguments, unless the program faults or panics. -/
def parseArgs (read : Nat → Option UInt8) (argc finalSp stackTop : UInt64) : Option (List String) :=
  if argc.toNat > maxArgs then none
  else
    ((List.range argc.toNat).mapM fun i => readU64 read (finalSp.toNat + 8 * i)).bind fun offsets =>
      (List.range argc.toNat).mapM (parseArg read finalSp stackTop offsets)

end AtOS
