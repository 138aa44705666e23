import AtOS.Resources.Bystanders
import AtOS.Resources.ExecFailures

/-! What `fork` makes: a process whose memory and registers are a copy, in frames of its own. -/

namespace AtOS

open ByteMemory RadixForest SlotTable

section Space

variable {alloc after : PageAllocator} {roots : Set Nat} {free rest used : List Nat}
  {managed : Set Nat} {src dst : Nat}

/-- A copy leads to a page wherever its source does. -/
theorem SpaceDuplicated.mapped (copied : SpaceDuplicated alloc after roots free managed src dst used rest)
    {path : List EntryIndex} (short : path.length ≤ 3) (nonempty : path ≠ []) :
    (walk (child after.mem) dst path).isSome = (walk (child alloc.mem) src path).isSome := by
  rw [← attributes_isSome nonempty, ← attributes_isSome nonempty, copied.attributes_eq path short]

/-- A copy holds at every address what its source held. -/
theorem SpaceDuplicated.byteAt (copied : SpaceDuplicated alloc after roots free managed src dst used rest)
    (va : Nat) : AtOS.byteAt after.mem dst va = AtOS.byteAt alloc.mem src va := by
  have full : (pagePath va).length = 3 := pagePath_length va
  have mapped := copied.mapped (Nat.le_of_eq full) (List.ne_nil_of_length_pos (by omega))
  rw [byteAt_eq, byteAt_eq, leafOf, leafOf]
  cases source : walk (child alloc.mem) src (pagePath va) with
  | none =>
    rw [source, Option.isSome_none, Option.isSome_eq_false_iff, Option.isNone_iff_eq_none] at mapped
    rw [mapped]
    rfl
  | some pa =>
    rw [source, Option.isSome_some, Option.isSome_iff_exists] at mapped
    obtain ⟨copy, reached⟩ := mapped
    rw [reached, Option.map_some, Option.map_some,
      copied.content _ full pa copy source reached (va % 4096) (Nat.mod_lt _ (by decide))]

/-- Two address spaces have no frame in common. -/
theorem Owned.disjoint {root other : Nat} (owned : Owned alloc roots free managed)
    (live : root ∈ roots) (otherLive : other ∈ roots) (distinct : root ≠ other) :
    Disjoint (nodes (child alloc.mem) 3 root) (nodes (child alloc.mem) 3 other) := by
  rw [Set.disjoint_left]
  rintro node ⟨path, short, reached⟩ ⟨rest, shortRest, reachedRest⟩
  exact distinct (owned.separate live otherLive short shortRest reached reachedRest).1

end Space

variable {files : String → Option (List UInt8)} {m : Machine} {mid next : Kernel}
  {self child : Process} {ctx frame : ExceptionContext} {devices : Devices}

/--
A process is an independent copy of another one.

The kernels are the one that the trap found, the one it left to `sys_fork`, and what `sys_fork` left.
-/
structure Process.ForkedFrom (child parent : Process) (found entered next : Kernel)
    (ctx : ExceptionContext) : Prop where
  /-- The child has the registers of its parent, but for `x0`. -/
  entry : ∃ root stack, child = { parent with
    pid := entered.nextPid
    state := .ready
    blockReason := none
    parentPid := parent.pid
    pctx := { (ProcessContext.fromEctx ctx).setX 0 0 with
      ttbr0 := root
      spEl1 := UInt64.ofNat (kernelStackTop stack) }
    chan := 0
    exitCode := 0 } ∧ entered.kernelStacks stack = .free ∧
      next.kernelStacks = Function.update entered.kernelStacks stack (.allocated child.pid)
  attributes : ∀ path : List EntryIndex, path.length ≤ 3 →
    AtOS.attributes next.alloc.mem child.pctx.ttbr0.toNat path =
      AtOS.attributes found.alloc.mem ctx.ttbr0.toNat path
  bytes : ∀ va, byteAt next.alloc.mem child.pctx.ttbr0.toNat va =
    byteAt found.alloc.mem ctx.ttbr0.toNat va
  /-- All frames of the child were free. -/
  fresh : ∃ free, FreeChain entered.alloc.mem entered.alloc.freeFrameList free ∧
    ∀ node ∈ nodes (AtOS.child next.alloc.mem) 3 child.pctx.ttbr0.toNat, node ∈ free
  /-- They are shared with nobody: no other process that is alive, and not the kernel. -/
  apart : ∀ slot other, next.processTable slot = some other → other.state ≠ .terminated →
    other.pid ≠ child.pid → Disjoint (nodes (AtOS.child next.alloc.mem) 3 other.pctx.ttbr0.toNat)
      (nodes (AtOS.child next.alloc.mem) 3 child.pctx.ttbr0.toNat)
  apartKernel : Disjoint (nodes (AtOS.child next.alloc.mem) 3 next.kernelL1)
    (nodes (AtOS.child next.alloc.mem) 3 child.pctx.ttbr0.toNat)
  /-- No frame of the parent's own tables and pages is changed. -/
  tables : Kept found.alloc.mem next.alloc.mem {ctx.ttbr0.toNat}
  kept : ∀ va, byteAt next.alloc.mem ctx.ttbr0.toNat va = byteAt found.alloc.mem ctx.ttbr0.toNat va
  /-- What one of them stores later, the other does not see. -/
  unseen : ∀ va byte other,
    byteAt (next.storeByte ctx.ttbr0.toNat va byte).alloc.mem child.pctx.ttbr0.toNat other =
        byteAt next.alloc.mem child.pctx.ttbr0.toNat other ∧
      byteAt (next.storeByte child.pctx.ttbr0.toNat va byte).alloc.mem ctx.ttbr0.toNat other =
        byteAt next.alloc.mem ctx.ttbr0.toNat other

/-- The child that `fork` makes has the name and the registers of its parent. -/
theorem Kernel.forkProcess_child {k : Kernel} (done : k.forkProcess self = .ok (.ok child, next)) :
    child = { self with
      pid := k.nextPid
      state := .ready
      blockReason := none
      parentPid := self.pid
      pctx := child.pctx
      chan := 0
      exitCode := 0 } := by
  -- The fork takes a pid, copies the tables and takes a stack.
  unfold Kernel.forkProcess at done
  split at done
  · cases done
  split at done
  · cases done
  rename_i taken
  obtain ⟨-, pid, -⟩ := Kernel.takePid_ok taken
  split at done
  · cases done
  · cases done
  cases done
  subst pid
  rfl

section Run

variable {start : Kernel} {boot : Machine} {first limit : Nat} {roots : Set Nat} {free : List Nat}
  {managed : Set Nat}

/-- When `sys_fork` returns to a process that owns what it holds, its child is an independent copy. -/
theorem Machine.Traps.forks {handled : Handled}
    (traps : m.Traps files self ctx devices mid handled) (owns : m.Owns roots free managed)
    (done : mid.sysFork ctx = .returned next frame) :
    ∃ slot child, mid.processTable slot = none ∧
      next.processTable = put mid.processTable slot (some child) ∧
      frame = ctx.setX 0 child.pid ∧
      child.ForkedFrom { self with pctx := .fromEctx ctx } m.kernel mid next ctx ∧
      Kept m.kernel.alloc.mem next.alloc.mem roots ∧
      (nodes (AtOS.child next.alloc.mem) 3 child.pctx.ttbr0.toNat).ncard =
        (nodes (AtOS.child m.kernel.alloc.mem) 3 ctx.ttbr0.toNat).ncard := by
  have runs := traps.entered.runs
  obtain ⟨freed, sound, -⟩ := traps.sound owns
  obtain ⟨top, onTop⟩ := traps.onTop owns
  obtain ⟨entering, -⟩ := traps.kept owns
  have live : ctx.ttbr0.toNat ∈ roots := traps.live owns
  -- The fork returned, so it has made a child and found a slot for it.
  rcases runs.sysFork_cases ctx with
    ⟨stop, stopped, -⟩ | ⟨made, after, slot, forks, forked, found, returned⟩
  · rw [stopped] at done
    cases done
  rw [returned, Handled.returned.injEq] at done
  obtain ⟨isNext, isFrame⟩ := done
  have inactive := runs.child_inactive sound.assigned.slots forks
  obtain ⟨root, copy, used, taken, rest, forkOwns⟩ :=
    Kernel.forkProcess_owns sound.accounted sound.assigned.slots onTop live
      (forked.pid ▸ inactive) forks
  -- The child's stack was free, and it is the child's now.
  obtain ⟨stack, vacant, given, spEl1⟩ := forkOwns.stack
  obtain ⟨alloc, kernelStacks, same⟩ := forked.same
  have isAlloc : next.alloc = after.alloc := by
    rw [← isNext]
    rfl
  have isKernelL1 : next.kernelL1 = mid.kernelL1 := by
    rw [← isNext]
    show after.kernelL1 = mid.kernelL1
    rw [same]
  have table : next.processTable = put mid.processTable slot
      (some { made with pctx := made.pctx.setX 0 0 }) := by
    rw [← isNext]
    show put after.processTable slot _ = _
    rw [show after.processTable = mid.processTable by rw [same]]
  have ownedCopy : Owned copy (insert root (insert mid.kernelL1 roots)) (taken ++ rest) managed :=
    forkOwns.space.owned
  -- The root is a frame, so it fits the register.
  have isRoot : (made.pctx.setX 0 0).ttbr0.toNat = root := by
    show made.pctx.ttbr0.toNat = root
    rw [forkOwns.context]
    exact ownedCopy.root_fits (Set.mem_insert _ _)
  have ownedNext : Owned next.alloc (insert mid.kernelL1 (insert root roots)) rest managed := by
    have accounted : Owned after.alloc (insert after.kernelL1 (insert root roots)) rest managed :=
      forkOwns.accounted.owned
    rwa [← isAlloc, show after.kernelL1 = mid.kernelL1 by rw [same]] at accounted
  have stackKept : Kept copy.mem next.alloc.mem (insert root roots) := isAlloc ▸ forkOwns.kept
  have copied : root ∈ insert root roots := Set.mem_insert _ _
  have copiedAll : root ∈ insert mid.kernelL1 (insert root roots) := Set.mem_insert_of_mem _ copied
  have parentAll : ctx.ttbr0.toNat ∈ insert mid.kernelL1 (insert root roots) :=
    Set.mem_insert_of_mem _ (Set.mem_insert_of_mem _ live)
  have distinct : ctx.ttbr0.toNat ≠ root := by
    rintro rfl
    exact forkOwns.fresh (Set.mem_insert_of_mem _ live)
  -- From the trap to the return, all memory is kept: stacks are freed, then it is copied.
  have copying : Kept mid.alloc.mem next.alloc.mem roots :=
    isAlloc ▸ forkOwns.kept_all sound.accounted.owned
  have allKept : Kept m.kernel.alloc.mem next.alloc.mem roots := entering.trans copying
  refine ⟨slot, { made with pctx := made.pctx.setX 0 0 }, firstFree_some found, table,
    isFrame.symm, ?_, allKept, ?_⟩
  swap
  · rw [isRoot, isAlloc, forkOwns.ncard sound.accounted.owned live]
    exact congrArg Set.ncard (entering.nodes live)
  constructor
  case entry =>
    -- The entry is the parent's but for the fields that a fork sets.
    refine ⟨UInt64.ofNat root, stack, ?_, vacant, ?_⟩
    · rw [Kernel.forkProcess_child forks, forkOwns.context, spEl1]
      rfl
    · rw [← isNext]
      exact given
  -- The copy has the attributes of the original, which the entry has left alone.
  case attributes =>
    intro path short
    rw [isRoot, stackKept.attributes copied short, forkOwns.space.attributes_eq path short]
    exact entering.attributes live short
  case bytes =>
    intro va
    rw [isRoot, stackKept.byteAt copied, forkOwns.space.byteAt]
    exact entering.byteAt live va
  case fresh =>
    -- The copy is made of frames that were free before the fork.
    refine ⟨_, sound.accounted.owned.chain, fun node member => ?_⟩
    rw [isRoot, isAlloc, forkOwns.nodes_iff sound.accounted.owned] at member
    rw [forkOwns.space.free_eq]
    simp only [List.mem_cons, List.mem_append] at member ⊢
    tauto
  case apart =>
    -- Whoever else is alive has a root of its own, which is neither the copy's nor the parent's.
    intro place other there alive apart
    have elsewhere : place ≠ slot := by
      rintro rfl
      rw [table, put_self, Option.some.injEq] at there
      exact apart (there ▸ rfl)
    rw [table, put_of_ne _ _ _ elsewhere] at there
    have otherLive := sound.assigned.live (Kernel.holding_slot runs.distinct there alive)
    have otherRoot : other.pctx.ttbr0.toNat ≠ root := fun equal =>
      forkOwns.fresh (Set.mem_insert_of_mem _ (equal ▸ otherLive))
    rw [isRoot]
    exact ownedNext.disjoint (Set.mem_insert_of_mem _ (Set.mem_insert_of_mem _ otherLive)) copiedAll
      otherRoot
  case apartKernel =>
    rw [isRoot, isKernelL1]
    exact ownedNext.disjoint (Set.mem_insert ..) copiedAll
      (fun equal => forkOwns.fresh (equal ▸ Set.mem_insert ..))
  case tables => exact allKept.mono (Set.singleton_subset_iff.mpr live)
  case kept => exact fun va => allKept.byteAt live va
  case unseen =>
    -- A store through one of the two roots does not reach the frames of the other.
    intro va byte other
    rw [isRoot]
    exact ⟨(Kernel.storeByte_kept ownedNext parentAll va byte).byteAt ⟨copiedAll, distinct.symm⟩ other,
      (Kernel.storeByte_kept ownedNext copiedAll va byte).byteAt ⟨parentAll, distinct⟩ other⟩

/--
In every run from boot in which each `exec` that fails is refused before it loads, a `fork` that
returns has made an independent copy.

The child has the registers, the pages, the attributes and the bytes of its parent at the trap, in
frames that were free and belong to nobody else, and its own kernel stack.
-/
theorem Machine.Booted.forkCopies (booted : Machine.Booted files start boot)
    (prepared : start.Prepared first limit)
    (loadsFresh : ∀ path bytes, files path = some bytes → LoadsFresh bytes)
    (run : Machine.Runs files (Machine.FailsEarly files) boot m) {context : ExceptionContext}
    (running : m.control = .user context) (isFork : ctx.IsSyscall 4)
    (stack : ctx.spEl1 = context.spEl1) (table : ctx.ttbr0 = context.ttbr0)
    (entry : m.kernel.entered devices ctx = .ok mid)
    (done : m.kernel.handleExceptionEl1 files devices ctx = .returned next frame) :
    ∃ self slot child, m.kernel.getCurrentProcess = some self ∧ mid.processTable slot = none ∧
      next.processTable = put mid.processTable slot (some child) ∧
      frame = ctx.setX 0 child.pid ∧
      child.ForkedFrom { self with pctx := .fromEctx ctx } m.kernel mid next ctx := by
  -- With the ELF files alone no `exec` fails, so everybody owns what it holds.
  obtain ⟨valid, roots, free, owns⟩ := (run.withElfFiles booted).owns booted.withElfFiles prepared
    fun path bytes file => loadsFresh path bytes (elfFiles_eq_some.mp file).1
  obtain ⟨self, other, traps, handles, -⟩ := valid.calls running isFork stack table files devices
  have same := traps.entry
  rw [entry, Except.ok.injEq] at same
  subst same
  -- The call is `fork`, so the kernel is in `sys_fork`.
  have sysFork : mid.handleSyscall files ctx = mid.sysFork ctx := by
    rw [Kernel.handleSyscall, isFork.immediate]
    rfl
  rw [handles, sysFork] at done
  obtain ⟨slot, child, vacant, put, returned, forked, -⟩ := traps.forks owns done
  exact ⟨self, slot, child, traps.runs.current, vacant, put, returned, forked⟩

/-- The first `fork` of the small program makes a copy. -/
theorem forkCopies_words : ∃ (m : Machine) (frame context : ExceptionContext) (mid next : Kernel)
    (self child : Process), Machine.Reachable wordsFiles m ∧ m.control = .user frame ∧
      m.kernel.handleExceptionEl1 wordsFiles ⟨false, false, false⟩ (frame.calling 4 frame.x) =
        .returned next context ∧
      child.ForkedFrom { self with pctx := .fromEctx (frame.calling 4 frame.x) } m.kernel mid next
        (frame.calling 4 frame.x) := by
  obtain ⟨boot, m, init, frame, booted, scheduled, orderly, running, current, -, -, -, -⟩ :=
    wordsStart_init 1 (by decide)
  have isFork := frame.isSyscall_calling 4 (by decide) frame.x
  obtain ⟨process, mid, traps, handles, -⟩ :=
    orderly.valid.calls running isFork rfl rfl wordsFiles ⟨false, false, false⟩
  obtain ⟨rfl, finds⟩ := orderly.finds current rfl traps
  -- The frames and the slots are enough, so the call cannot have stopped the kernel.
  obtain ⟨roots, free, managed, stack, sound, onTop⟩ := finds.owned
  obtain ⟨⟨_, _, can⟩, vacant, room⟩ := finds.affords.forks finds.runs sound onTop
  have sysFork : mid.handleSyscall wordsFiles (frame.calling 4 frame.x) =
      mid.sysFork (frame.calling 4 frame.x) := by
    rw [Kernel.handleSyscall, isFork.immediate]
    rfl
  rcases finds.runs.sysFork_cases (frame.calling 4 frame.x) with
    ⟨stop, stopped, -⟩ | ⟨child, after, slot, forks, forked, found, returned⟩
  · exact absurd stopped (finds.runs.sysFork_returns can room stop)
  have done := handles.trans (sysFork.trans returned)
  -- What the theorem says of this call is said of the child it made.
  have noExec : boot.FailsEarly wordsFiles (.schedule false) := fun same => by cases same
  have run : Machine.Runs wordsFiles (Machine.FailsEarly wordsFiles) boot m :=
    .single ⟨_, noExec, scheduled.2⟩
  obtain ⟨self, _, copy, _, _, _, _, copies⟩ := booted.forkCopies wordsStart_prepared
    wordsFiles_loadsFresh run running isFork rfl rfl traps.entry done
  exact ⟨m, frame, _, mid, _, self, copy,
    ⟨_, boot, booted, scheduled.run.weaken fun _ _ _ => trivial⟩, running, done, copies⟩

end Run

end AtOS
