import AtOS.Processes.Kernel

/-! The kernel stacks: each process has a slot, which is mapped by the kernel's own table. -/

namespace AtOS

open ByteMemory SlotTable

/-- `KERNEL_STACK_SIZE`. -/
def kernelStackSize : Nat := 0x7000

/-- `KERNEL_STACK_REGION_START`. -/
def kernelStackRegionStart : Nat := 0xFFFFFF8080000000

/-- `kernel_stack_start`, the lowest address of a slot. -/
def kernelStackStart (slot : Fin maxProcesses) : Nat :=
  kernelStackRegionStart + slot.val * kernelStackSize

/-- `kernel_stack_top`. -/
def kernelStackTop (slot : Fin maxProcesses) : Nat := kernelStackStart slot + kernelStackSize

/-- The numbers of the pages of a slot that are mapped: page 0 is the guard. -/
def stackPageIndices : List Nat := [1, 2, 3, 4, 5, 6]

/-- `get_active_stack_index`. -/
def Kernel.getActiveStackIndex (k : Kernel) (pid : UInt64) : Option (Fin maxProcesses) :=
  (List.finRange maxProcesses).find? fun slot => k.kernelStacks slot == .allocated pid

/-- `get_stack_top`. -/
def Kernel.getStackTop (k : Kernel) (pid : UInt64) : Except String Nat :=
  match k.getActiveStackIndex pid with
  | some slot => .ok (kernelStackTop slot)
  | none => .error "[get_stack_top] Process does not have a kernel stack allocated"

/-- `get_stack_usage`. -/
def Kernel.getStackUsage (k : Kernel) (pid : UInt64) (spEl1 : Nat) : Except String Nat :=
  match k.getStackTop pid with
  | .ok stackTop =>
    if spEl1 > stackTop then
      .error "[get_stack_usage] kernel stack underflow! (how did this happen bro)"
    else .ok (stackTop - spEl1)
  | .error error => .error error

/-- Set the state of a kernel stack. -/
def Kernel.setStack (k : Kernel) (slot : Fin maxProcesses) (state : StackState) : Kernel :=
  { k with kernelStacks := Function.update k.kernelStacks slot state }

/-- `queue_stack_to_free`. -/
def Kernel.queueStackToFree (k : Kernel) (pid : UInt64) : Except String Kernel :=
  match k.getActiveStackIndex pid with
  | some slot => .ok (k.setStack slot (.queuedToFree pid))
  | none => .error "[queue_stack_to_free] Process does not have a kernel stack allocated"

/-- The loop of `alloc_stack` that maps the pages of a slot. -/
def allocStackFrames (start kernelL1 : Nat) : List Nat → PageAllocator → Except Panic PageAllocator
  | [], alloc => .ok alloc
  | page :: rest, alloc =>
    match allocPage (start + page * 4096) kernelL1 alloc with
    | .ok (_, alloc) => allocStackFrames start kernelL1 rest alloc
    | .error panic => .error panic

/-- The word `alloc_stack` writes to test the new stack. -/
def stackProbe : Nat := 0x123456789ABCDEF0

/-- `alloc_stack`: the top of the new stack, or an error. -/
def Kernel.allocStack (k : Kernel) (pid : UInt64) : Except Stop (Except String UInt64 × Kernel) :=
  if (k.getActiveStackIndex pid).isSome then
    .ok (.error "[alloc_stack] Process already has a kernel stack allocated", k)
  else
    match (List.finRange maxProcesses).find? fun slot => k.kernelStacks slot == .free with
    | none => .ok (.error "[alloc_stack] No available kernel stacks", k)
    | some slot =>
      let k := k.setStack slot (.allocated pid)
      match allocStackFrames (kernelStackStart slot) k.kernelL1 stackPageIndices k.alloc with
      | .error panic => .error (.panic panic)
      | .ok alloc =>
        match ttbr0ToPa alloc.mem (kernelStackTop slot - 0x10) k.kernelL1 with
        | none => .error .halted
        | some pa =>
          .ok (.ok (UInt64.ofNat (kernelStackTop slot)),
            { k with alloc := { alloc with mem := writeLE alloc.mem pa 8 stackProbe } })

/-- The bytes at addresses of the kernel's stack region. -/
def copyStack (src dst length kernelL1 : Nat) (alloc : PageAllocator) : Except Stop PageAllocator :=
  match (List.range length).mapM fun offset => (ttbr0ToPa alloc.mem (src + offset) kernelL1).map alloc.mem with
  | none => .error .halted
  | some bytes =>
    match copyToPages bytes dst kernelL1 alloc with
    | (.ok (), alloc) => .ok alloc
    | (.error _, _) => .error .halted

/-- `duplicate_stack`: the stack pointer of the copy, or an error. -/
def Kernel.duplicateStack (k : Kernel) (srcPid destPid srcSpEl1 : UInt64) :
    Except Stop (Except String UInt64 × Kernel) :=
  let withStack : Except Stop (Except String UInt64 × Kernel) :=
    match k.getStackTop destPid with
    | .ok top => .ok (.ok (UInt64.ofNat top), k)
    | .error _ => k.allocStack destPid
  match withStack with
  | .error stop => .error stop
  | .ok (.error error, k) => .ok (.error error, k)
  | .ok (.ok dstStackTop, k) =>
    match k.getStackUsage srcPid srcSpEl1.toNat with
    | .error error => .ok (.error error, k)
    | .ok activeSize =>
      let dstSpEl1 := dstStackTop - UInt64.ofNat activeSize
      match copyStack srcSpEl1.toNat dstSpEl1.toNat activeSize k.kernelL1 k.alloc with
      | .error stop => .error stop
      | .ok alloc => .ok (.ok dstSpEl1, { k with alloc })

/-- `free_stack`: the kernel table is given by its address in the kernel window here. -/
def Kernel.freeStack (k : Kernel) (slot : Fin maxProcesses) : Except String Kernel :=
  match k.kernelStacks slot with
  | .queuedToFree _ =>
    let root := ttbr1ToPa (ttbr1ToVa k.kernelL1)
    let alloc := stackPageIndices.foldl
      (fun alloc page => freePage (kernelStackStart slot + page * 4096) root alloc) k.alloc
    .ok ({ k with alloc }.setStack slot .free)
  | _ => .error "[free_stack] Stack is not queued to free"

/-- The body of `free_queued_stacks` for one slot. -/
def Kernel.freeQueuedStack (k : Kernel) (slot : Fin maxProcesses) : Except Stop Kernel :=
  match k.kernelStacks slot with
  | .queuedToFree pid =>
    match k.getCurrentProcess with
    | none => .error (.failed .noCurrentProcess)
    | some current =>
      if pid = current.pid then .ok k
      else
        match k.freeStack slot with
        | .ok k => .ok k
        | .error _ => .ok k
  | _ => .ok k

/-- `free_queued_stacks`. -/
def Kernel.freeQueuedStacks (k : Kernel) : Except Stop Kernel :=
  (List.finRange maxProcesses).foldlM Kernel.freeQueuedStack k

end AtOS
