import AtOS.Processes.Boot
import AtOS.Processes.StackAllocation
import AtOS.Resources.Handling

/-! Which steps `fork` and `exec` take, and which of them give out kernel stacks. -/

namespace AtOS

open ByteMemory SlotTable

variable {k next : Kernel} {self : Process}

section Stack

/-- `duplicate_stack` for a process without a stack: it gets one, and the active part is copied. -/
theorem Kernel.duplicateStack_ok {srcPid destPid srcSpEl1 sp : UInt64}
    (inactive : k.getActiveStackIndex destPid = none)
    (done : k.duplicateStack srcPid destPid srcSpEl1 = .ok (.ok sp, next)) :
    ∃ mid top stack activeSize alloc, k.StackAllocated destPid top stack mid ∧
      mid.getStackUsage srcPid srcSpEl1.toNat = .ok activeSize ∧
      sp = top - UInt64.ofNat activeSize ∧
      copyStack srcSpEl1.toNat sp.toNat activeSize mid.kernelL1 mid.alloc = .ok alloc ∧
      next = { mid with alloc } := by
  -- The process has no stack yet, so one is allocated.
  rw [Kernel.duplicateStack_eq, Kernel.getStackTop_eq, inactive] at done
  dsimp only at done
  split at done
  · cases done
  · cases done
  rename_i top mid allocated
  obtain ⟨stack, allocated⟩ := Kernel.allocStack_ok allocated
  -- Then the used part of the stack of the caller is copied.
  unfold Kernel.copyActiveStack at done
  split at done
  · cases done
  rename_i activeSize usage
  split at done
  · cases done
  rename_i alloc copied
  cases done
  exact ⟨mid, top, stack, activeSize, alloc, allocated, usage, rfl, copied, rfl⟩

end Stack

section Lifecycle

/-- The steps of a `fork` that succeeds. -/
structure Kernel.ForkTakes (k : Kernel) (process child : Process) (root : Nat)
    (copy : PageAllocator) (next : Kernel) : Prop where
  space : duplicateVaSpace process.pctx.ttbr0.toNat k.alloc = (.ok root, copy)
  stack : { k with alloc := copy, nextPid := k.nextPid + 1 }.duplicateStack process.pid child.pid
    process.pctx.spEl1 = .ok (.ok child.pctx.spEl1, next)
  context : child.pctx =
    { process.pctx with ttbr0 := UInt64.ofNat root, spEl1 := child.pctx.spEl1 }

/-- A `fork` that succeeds has copied the address space and the stack. -/
theorem Kernel.forkProcess_takes {child : Process}
    (done : k.forkProcess self = .ok (.ok child, next)) :
    ∃ root copy, k.ForkTakes self child root copy next := by
  unfold Kernel.forkProcess at done
  split at done
  · cases done
  rename_i root copy space
  split at done
  · cases done
  rename_i pid mid taken
  obtain ⟨-, rfl, rfl⟩ := Kernel.takePid_ok taken
  split at done
  · cases done
  · cases done
  rename_i sp after duplicated
  cases done
  exact ⟨root, copy, space, duplicated, rfl⟩

/-- The kernel after `exec` has given up the old page table and the old kernel stack. -/
def Kernel.givenUp (k : Kernel) (process : Process) (stack : Fin maxProcesses)
    (alloc : PageAllocator) : Kernel :=
  { k with alloc := freePageTable process.pctx.ttbr0.toNat alloc }.setStack stack
    (.queuedToFree process.pid)

/-- Where an `exec` ends; only the first end comes before anything is given up. -/
inductive Kernel.ExecEnds (k : Kernel) (slot : Fin maxProcesses) (process : Process)
    (bytes : List UInt8) (args : List String) : Except String Unit → Kernel → Prop
  | notLoaded {error : String} {alloc : PageAllocator}
      (loads : loadElf bytes k.alloc = .ok (.error error, alloc)) :
      ExecEnds k slot process bytes args (.error error) { k with alloc }
  /-- The process has no kernel stack that could be queued. -/
  | inactive {entry sp root : Nat} {alloc : PageAllocator} (error : String)
      (loads : loadElf bytes k.alloc = .ok (.ok (entry, sp, root), alloc))
      (inactive : k.getActiveStackIndex process.pid = none) :
      ExecEnds k slot process bytes args (.error error)
        { k with alloc := freePageTable process.pctx.ttbr0.toNat alloc }
  | noStack {entry sp root : Nat} {alloc : PageAllocator} {old : Fin maxProcesses} {error : String}
      (loads : loadElf bytes k.alloc = .ok (.ok (entry, sp, root), alloc))
      (active : k.getActiveStackIndex process.pid = some old)
      (refused : (k.givenUp process old alloc).allocStack process.pid =
        .ok (.error error, k.givenUp process old alloc)) :
      ExecEnds k slot process bytes args (.error error) (k.givenUp process old alloc)
  | withStack {entry sp root : Nat} {alloc last : PageAllocator} {old stack : Fin maxProcesses}
      {top : UInt64} {mid : Kernel} {result : Except String Unit} {pctx : ProcessContext}
      (loads : loadElf bytes k.alloc = .ok (.ok (entry, sp, root), alloc))
      (active : k.getActiveStackIndex process.pid = some old)
      (allocated : (k.givenUp process old alloc).StackAllocated process.pid top stack mid)
      (pushes : initializeArgs args (ProcessContext.new (UInt64.ofNat entry) (UInt64.ofNat sp) top
        (UInt64.ofNat root)) mid.alloc = (result, pctx, last)) :
      ExecEnds k slot process bytes args result
        ({ mid with alloc := last }.setEntry slot (some { process with pctx }))

/-- Every `exec` that returns ends at one of these places. -/
theorem Kernel.exec_ends {slot : Fin maxProcesses} {bytes : List UInt8} {args : List String}
    {result : Except String Unit} (done : k.exec slot self bytes args = .ok (result, next)) :
    k.ExecEnds slot self bytes args result next := by
  unfold Kernel.exec Kernel.withAlloc at done
  -- First the file is loaded.
  cases loads : loadElf bytes k.alloc with
  | error panic =>
    rw [loads] at done
    cases done
  | ok loaded =>
    obtain ⟨loaded, alloc⟩ := loaded
    rw [loads] at done
    cases loaded with
    | error error =>
      cases done
      exact .notLoaded loads
    | ok image =>
      obtain ⟨entry, sp, root⟩ := image
      -- Then the old image is freed and the old stack is queued.
      dsimp only [Kernel.queueStackToFree] at done
      have sameIndex : Kernel.getActiveStackIndex
          { k with alloc := freePageTable self.pctx.ttbr0.toNat alloc } self.pid =
            k.getActiveStackIndex self.pid := rfl
      rw [sameIndex] at done
      cases active : k.getActiveStackIndex self.pid with
      | none =>
        rw [active] at done
        cases done
        exact .inactive _ loads active
      | some old =>
        rw [active] at done
        have given : Kernel.setStack { k with alloc := freePageTable self.pctx.ttbr0.toNat alloc }
            old (.queuedToFree self.pid) = k.givenUp self old alloc := rfl
        dsimp only at done
        rw [given] at done
        -- Then a stack is allocated, unless there is none.
        cases allocated : (k.givenUp self old alloc).allocStack self.pid with
        | error stop =>
          rw [allocated] at done
          cases done
        | ok stack =>
          obtain ⟨stack, mid⟩ := stack
          rw [allocated] at done
          cases stack with
          | error error =>
            cases done
            have same := (Kernel.allocStack_error allocated).1
            rw [same] at allocated
            rw [same]
            exact .noStack loads active allocated
          | ok top =>
            -- At last the arguments are pushed, if they fit.
            obtain ⟨stack, took⟩ := Kernel.allocStack_ok allocated
            dsimp only at done
            split at done
            · rename_i pushes
              cases done
              exact .withStack loads active took pushes
            · rename_i pushes
              cases done
              exact .withStack loads active took pushes

/-- What an `exec` does to the kernel stacks: it may queue the old one, and then allocate another. -/
theorem Kernel.ExecEnds.stacks {slot : Fin maxProcesses} {bytes : List UInt8} {args : List String}
    {result : Except String Unit} (ends : k.ExecEnds slot self bytes args result next) :
    next.kernelStacks = k.kernelStacks ∨
      ∃ image alloc old, loadElf bytes k.alloc = .ok (.ok image, alloc) ∧
        k.kernelStacks old = .allocated self.pid ∧
        (next.kernelStacks = Function.update k.kernelStacks old (.queuedToFree self.pid) ∨
          ∃ stack, Function.update k.kernelStacks old (.queuedToFree self.pid) stack = .free ∧
            next.kernelStacks = Function.update
              (Function.update k.kernelStacks old (.queuedToFree self.pid)) stack
              (.allocated self.pid)) := by
  cases ends with
  -- Before the old stack is queued, nothing has happened to the stacks.
  | notLoaded loads => exact Or.inl rfl
  | inactive error loads inactive => exact Or.inl rfl
  -- With no stack left, the old one is queued.
  | noStack loads active refused =>
    exact Or.inr ⟨_, _, _, loads, Kernel.getActiveStackIndex_some active, Or.inl rfl⟩
  | withStack loads active allocated pushes =>
    refine Or.inr ⟨_, _, _, loads, Kernel.getActiveStackIndex_some active,
      Or.inr ⟨_, allocated.free, ?_⟩⟩
    exact allocated.kernelStacks

/-- An `exec` changes what its own process holds at most. -/
theorem Kernel.Runs.exec_holding {inKernel : UInt64 → Bool} (runs : k.Runs inKernel self)
    {bytes : List UInt8} {args : List String} {result : Except String Unit}
    (done : k.exec k.currentProcess self bytes args = .ok (result, next)) :
    next.resources.holding = k.resources.holding ∨ ∃ pctx : ProcessContext,
      next.resources.holding =
        Function.update k.resources.holding self.pid (some pctx.holding) := by
  rcases Kernel.exec_ok done with ⟨mid, pctx, ⟨_, _, rfl⟩, rfl⟩ | ⟨⟨_, _, rfl⟩, -⟩
  · have changed : Process.holding { self with pctx } = some pctx.holding := by
      apply Process.holding_alive
      rw [runs.state]
      decide
    refine Or.inr ⟨pctx, ?_⟩
    rw [← changed]
    apply runs.resources_put
    · rfl
    · rfl
  · exact Or.inl rfl

/-- The steps of spawning a process. -/
structure Kernel.SpawnTakes (start k : Kernel) (bytes : List UInt8) (args : List String)
    (process : Process) (root : Nat) (loaded last : PageAllocator) (stack : Fin maxProcesses)
    (mid : Kernel) : Prop where
  loads : ∃ entry sp, loadElf bytes start.alloc = .ok (.ok (entry, sp, root), loaded) ∧
    ∃ top, { start with alloc := loaded, nextPid := start.nextPid + 1 }.StackAllocated
        start.nextPid top stack mid ∧
      initializeArgs args (ProcessContext.new (UInt64.ofNat entry) (UInt64.ofNat sp) top
        (UInt64.ofNat root)) mid.alloc = (.ok (), process.pctx, last)
  alloc : k.alloc = last
  kernelStacks : k.kernelStacks = mid.kernelStacks
  kernelL1 : k.kernelL1 = start.kernelL1

/-- Spawning the first process takes these steps. -/
theorem Kernel.Fresh.spawn_takes {start : Kernel} (fresh : start.Fresh) {name : String}
    {bytes : List UInt8} {args : List String} {pid : UInt64}
    (done : start.spawnFromElf name 0 bytes args = .ok (.ok pid, k)) :
    ∃ process root loaded last stack mid,
      k.processTable = put start.processTable ⟨0, by decide⟩ (some process) ∧
      start.SpawnTakes k bytes args process root loaded last stack mid := by
  -- The file is loaded, the process gets its pid and its stack, and the arguments are pushed.
  unfold Kernel.spawnFromElf Kernel.withAlloc at done
  cases loads : loadElf bytes start.alloc with
  | error panic =>
    rw [loads] at done
    cases done
  | ok image =>
    obtain ⟨image, loaded⟩ := image
    rw [loads] at done
    cases image with
    | error error => cases done
    | ok image =>
      obtain ⟨entry, sp, root⟩ := image
      dsimp only [Kernel.newProcess] at done
      split at done
      · cases done
      · cases done
      rename_i process mid created
      split at created
      · cases created
      -- The pid is the next one.
      rename_i next taken
      obtain ⟨-, rfl, rfl⟩ := Kernel.takePid_ok taken
      split at created
      · cases created
      · cases created
      -- The stack is one of the free ones.
      rename_i top mid' allocated
      obtain ⟨stack, took⟩ := Kernel.allocStack_ok allocated
      rw [Except.ok.injEq, Prod.mk.injEq, Except.ok.injEq] at created
      obtain ⟨rfl, rfl⟩ := created
      split at done
      · cases done
      rename_i pctx last pushes
      -- None of this has touched the table, so the first slot is free.
      obtain ⟨alloc, pa, -, -, same⟩ := took.next_eq
      have table : mid'.processTable = start.processTable := by rw [same]; rfl
      have kernelL1 : mid'.kernelL1 = start.kernelL1 := by rw [same]; rfl
      have free : firstFree mid'.processTable = some ⟨0, by decide⟩ := by
        have empty : mid'.processTable = fun _ => none := table.trans (funext fresh.table)
        rw [empty]
        rfl
      simp only [Kernel.addProcessToPtable, free, Except.ok.injEq, Prod.mk.injEq] at done
      obtain ⟨-, rfl⟩ := done
      refine ⟨⟨start.nextPid, processName name, .ready, none, 0, pctx, 0, 0⟩, root, loaded, last,
        stack, mid', ?_, ⟨entry, sp, loads, top, took, pushes⟩, rfl, rfl, kernelL1⟩
      rw [← table]
      rfl

/-- The machine that boot leaves, with the steps that spawned `init`. -/
theorem Machine.Booted.takes {files : String → Option (List UInt8)} {start : Kernel} {m : Machine}
    (booted : Machine.Booted files start m) :
    ∃ k init frame bytes root loaded last stack mid, files "init" = some bytes ∧
      start.Spawned k init ∧ start.SpawnTakes k bytes bootArgs init root loaded last stack mid ∧
      m = ⟨k, .scheduling frame false, fun _ => none, fun _ => []⟩ := by
  have fresh := booted.fresh
  obtain ⟨k, init, frame, ⟨bytes, pid, file, spawns⟩, spawned, rfl⟩ := booted.started
  obtain ⟨process, root, loaded, last, stack, mid, table, takes⟩ := fresh.spawn_takes spawns
  have same : init = process := by
    have first := congrFun (spawned.table.symm.trans table) ⟨0, by decide⟩
    rw [put_self, put_self] at first
    exact Option.some.inj first
  subst same
  exact ⟨k, init, frame, bytes, root, loaded, last, stack, mid, file, spawned, takes, rfl⟩

/-- Only `init` holds anything after boot. -/
theorem Kernel.Spawned.holding {start : Kernel} {init : Process} (spawned : start.Spawned k init)
    (fresh : start.Fresh) :
    k.resources.holding = Function.update (fun _ => none) 1 (some init.pctx.holding) := by
  have empty : start.processTable = fun _ => none := funext fresh.table
  obtain ⟨-, entries⟩ := @Distinct.put_new (fun _ => none) ⟨0, by decide⟩
    ⟨fun there => by cases there⟩ init rfl rfl
  have alive : init.state ≠ .terminated := by simp [spawned.isInit.ready]
  funext pid
  show (entriesOf k.processTable pid).bind Process.holding = _
  rw [spawned.table, empty, entries, spawned.isInit.pid, Function.update_apply,
    Function.update_apply]
  split
  · exact Process.holding_alive alive
  · rfl

end Lifecycle

end AtOS
