import AtOS.Loader.LoadElf
import AtOS.Processes.Args
import AtOS.Processes.KernelStack

/-! How a process comes to be, forks, executes another program and terminates. -/

namespace AtOS

open SlotTable

/-- The name of a process: the first 32 bytes of a string, and zeros. -/
def processName (name : String) : Vector UInt8 32 :=
  Vector.ofFn fun position => (asBytes name).getD position.val 0

/-- Let a step that can fail act on the allocator alone. -/
def Kernel.withAlloc {Value : Type} (k : Kernel)
    (result : Except Panic (Except String Value × PageAllocator)) :
    Except Stop (Except String Value × Kernel) :=
  match result with
  | .ok (value, alloc) => .ok (value, { k with alloc })
  | .error panic => .error (.panic panic)

/-- `Process::new`. -/
def Kernel.newProcess (k : Kernel) (name : String) (parentPid entryPoint userSp ttbr0 : UInt64) :
    Except Stop (Except String Process × Kernel) :=
  match k.takePid with
  | .error stop => .error stop
  | .ok (pid, k) =>
    match k.allocStack pid with
    | .error stop => .error stop
    | .ok (.error error, k) => .ok (.error error, k)
    | .ok (.ok kernelSp, k) =>
      .ok (.ok
        { pid
          name := processName name
          state := .ready
          blockReason := none
          parentPid
          pctx := ProcessContext.new entryPoint userSp kernelSp ttbr0
          chan := 0
          exitCode := 0 }, k)

/-- `spawn_from_elf`: the pid of the new process, or an error. -/
def Kernel.spawnFromElf (k : Kernel) (name : String) (parentPid : UInt64) (bytes : List UInt8)
    (args : List String) : Except Stop (Except String UInt64 × Kernel) :=
  match k.withAlloc (loadElf bytes k.alloc) with
  | .error stop => .error stop
  | .ok (.error error, k) => .ok (.error error, k)
  | .ok (.ok (entryPoint, stackTop, ttbr0), k) =>
    match k.newProcess name parentPid (UInt64.ofNat entryPoint) (UInt64.ofNat stackTop)
      (UInt64.ofNat ttbr0) with
    | .error stop => .error stop
    | .ok (.error error, k) => .ok (.error error, { k with alloc := freePageTable ttbr0 k.alloc })
    | .ok (.ok process, k) =>
      match initializeArgs args process.pctx k.alloc with
      | (.error error, _, alloc) => .ok (.error error, { k with alloc })
      | (.ok (), pctx, alloc) =>
        let process := { process with pctx }
        match { k with alloc }.addProcessToPtable process with
        | .error error => .ok (.error error, { k with alloc := freePageTable ttbr0 alloc })
        | .ok k => .ok (.ok process.pid, k)

/-- `Process::fork`: the child, which is not in the table yet, or an error. -/
def Kernel.forkProcess (k : Kernel) (self : Process) : Except Stop (Except String Process × Kernel) :=
  match duplicateVaSpace self.pctx.ttbr0.toNat k.alloc with
  | (.error error, alloc) => .ok (.error error, { k with alloc })
  | (.ok newTtbr0, alloc) =>
    match { k with alloc }.takePid with
    | .error stop => .error stop
    | .ok (newPid, k) =>
      match k.duplicateStack self.pid newPid self.pctx.spEl1 with
      | .error stop => .error stop
      | .ok (.error error, k) => .ok (.error error, k)
      | .ok (.ok newKernelSp, k) =>
        .ok (.ok
          { pid := newPid
            name := self.name
            state := .ready
            blockReason := none
            parentPid := self.pid
            pctx := { self.pctx with ttbr0 := UInt64.ofNat newTtbr0, spEl1 := newKernelSp }
            chan := 0
            exitCode := 0 }, k)

/--
`Process::exec` on the process of a slot.

The old page table and the old kernel stack are given up before the steps that can still fail.
-/
def Kernel.exec (k : Kernel) (slot : Fin maxProcesses) (self : Process) (bytes : List UInt8)
    (args : List String) : Except Stop (Except String Unit × Kernel) :=
  match k.withAlloc (loadElf bytes k.alloc) with
  | .error stop => .error stop
  | .ok (.error error, k) => .ok (.error error, k)
  | .ok (.ok (entryPoint, stackTop, newTtbr0), k) =>
    let k := { k with alloc := freePageTable self.pctx.ttbr0.toNat k.alloc }
    match k.queueStackToFree self.pid with
    | .error error => .ok (.error error, k)
    | .ok k =>
      match k.allocStack self.pid with
      | .error stop => .error stop
      | .ok (.error error, k) => .ok (.error error, k)
      | .ok (.ok newKernelSp, k) =>
        let pctx := ProcessContext.new (UInt64.ofNat entryPoint) (UInt64.ofNat stackTop) newKernelSp
          (UInt64.ofNat newTtbr0)
        match initializeArgs args pctx k.alloc with
        | (.error error, pctx, alloc) =>
          .ok (.error error, { k with alloc }.setEntry slot (some { self with pctx }))
        | (.ok (), pctx, alloc) =>
          .ok (.ok (), { k with alloc }.setEntry slot (some { self with pctx }))

/-- `Process::terminate` on the process of a slot. -/
def Kernel.terminate (k : Kernel) (slot : Fin maxProcesses) (self : Process) (exitCode : Int64) :
    Except Stop Kernel :=
  match k.queueStackToFree self.pid with
  | .error error => .error (.failed (.terminateUnwrap error))
  | .ok k =>
    let k := k.setEntry slot (some { self with exitCode, state := .terminated })
    let k := k.reparentChildrenTo self.pid 1
    .ok { k with alloc := freePageTable self.pctx.ttbr0.toNat k.alloc }

end AtOS
