import AtOS.Processes.ExecCall
import AtOS.Resources.ExecFailures

/-! What a new program finds when it starts: the image of its file, a stack, and its arguments. -/

namespace AtOS

open ByteMemory RadixForest SlotTable

section Pushing

variable {alloc last : PageAllocator} {roots : Set Nat} {free : List Nat} {managed : Set Nat}
  {args : List String} {pctx after : ProcessContext}

end Pushing

section Executing

variable {k next mid : Kernel} {self : Process} {roots : Set Nat} {free : List Nat}
  {managed : Set Nat} {bytes : List UInt8} {header : Elf64Hdr} {args : List String}
  {slot : Fin maxProcesses} {ctx frame : ExceptionContext} {path : String}
  {files : String → Option (List UInt8)}

end Executing

section Machine

variable {files : String → Option (List UInt8)} {start : Kernel} {boot m after : Machine}
  {first limit : Nat} {self : Process} {ctx : ExceptionContext} {devices : Devices}
  {path : String} {args : List String}

end Machine

end AtOS
