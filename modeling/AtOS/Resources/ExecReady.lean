import AtOS.Processes.Starting
import AtOS.Resources.Executing

/-! An `exec` of a well-formed file gets as far as its arguments when frames and a stack are left. -/

namespace AtOS

open ByteMemory RadixForest SlotTable

section Image

variable {alloc after : PageAllocator} {roots : Set Nat} {free taken rest : List Nat}
  {managed : Set Nat} {bytes : List UInt8} {header : Elf64Hdr} {root : Nat} {spill : Set Nat}

/-- The frames of a new address space are its root and what was taken besides. -/
theorem ImageLoaded.nodes_iff
    (image : ImageLoaded alloc after roots free managed bytes (header.segments bytes) root spill taken
      rest) (owned : Owned alloc roots free managed) (node : Nat) :
    node ∈ nodes (child after.mem) 3 root ↔ node ∈ root :: taken := by
  have ownedAfter := image.loading.owned
  have free_eq := image.free_eq
  have nodup := owned.nodup
  rw [free_eq] at nodup
  -- One direction is known from the loading. The other one counts who owns the frames.
  constructor
  · exact image.loading.tree node
  · intro listed
    have isFree : node ∈ free := by
      rw [free_eq, ← List.cons_append]
      exact List.mem_append_left _ listed
    have notLeft : node ∉ rest := by
      intro left
      rw [← List.cons_append, List.nodup_append] at nodup
      exact nodup.2.2 node listed node left rfl
    -- The frame is nobody else's, since all other roots own what they owned before.
    rcases (ownedAfter.cover node).mp (owned.free_managed isFree) with left | ⟨owner, live, inside⟩
    · exact absurd left notLeft
    · rcases live with rfl | live
      · exact inside
      · rw [(image.kept_all owned).nodes live] at inside
        exact absurd isFree (owned.apart owner live node inside)

/-- A new address space has a frame for its root, and those that were taken besides. -/
theorem ImageLoaded.ncard
    (image : ImageLoaded alloc after roots free managed bytes (header.segments bytes) root spill taken
      rest) (owned : Owned alloc roots free managed) :
    (nodes (child after.mem) 3 root).ncard = taken.length + 1 := by
  have nodup := owned.nodup
  rw [image.free_eq, ← List.cons_append, List.nodup_append] at nodup
  rw [← length_of_nodup nodup.1 fun pa => (image.nodes_iff owned pa).symm, List.length_cons]

/-- What is loaded has its stack where the segments say. -/
theorem loadElf_stackTop (owned : Owned alloc roots free managed)
    (wellFormed : WellFormedElf bytes header)
    (safe : (∀ ph ∈ header.segments bytes, ph.Contained) ∨ Spaced managed) {entry sp : Nat}
    (done : loadElf bytes alloc = .ok (.ok (entry, sp, root), after)) :
    entry = header.entry ∧ sp = stackTopOf (header.segments bytes) := by
  have outcome := loadElf_spec owned wellFormed safe
  rw [done] at outcome
  cases outcome with
  | loaded proper image => exact ⟨rfl, rfl⟩

end Image

section Ready

variable {k next : Kernel} {self : Process} {roots : Set Nat} {free : List Nat} {managed : Set Nat}
  {bytes : List UInt8} {header : Elf64Hdr} {old vacant : Fin maxProcesses}

/-- The context with which `exec` comes to the arguments. -/
def execContext (bytes : List UInt8) (header : Elf64Hdr) (root : Nat) (stack : Fin maxProcesses) :
    ProcessContext :=
  ProcessContext.new (UInt64.ofNat header.entry)
    (UInt64.ofNat (stackTopOf (header.segments bytes))) (UInt64.ofNat (kernelStackTop stack))
    (UInt64.ofNat root)

/-- The kernel with which `exec` comes to the arguments: image and kernel stack are the new ones. -/
structure Kernel.ExecReady (k : Kernel) (process : Process) (bytes : List UInt8) (header : Elf64Hdr)
    (roots : Set Nat) (managed : Set Nat) (old : Fin maxProcesses) (root : Nat)
    (stack : Fin maxProcesses) (mid : Kernel) (rest : List Nat) : Prop where
  fresh : root ∉ insert k.kernelL1 roots
  fits : (UInt64.ofNat root).toNat = root
  accounted : mid.resources.Accounted (insert root (roots \ {process.pctx.ttbr0.toNat})) rest managed
  unused : k.kernelStacks stack = .free
  kernelStacks : mid.kernelStacks = Function.update
    (Function.update k.kernelStacks old (.queuedToFree process.pid)) stack (.allocated process.pid)
  /-- The frames that the old image gives back, and those that image and stack take. -/
  count : rest.length + (nodes (child mid.alloc.mem) 3 root).ncard + 6 =
    k.alloc.freeFrameCount + (nodes (child k.alloc.mem) 3 process.pctx.ttbr0.toNat).ncard
  size : (nodes (child mid.alloc.mem) 3 root).ncard ≤ framesNeeded (header.segments bytes)
  image : ∀ ph ∈ header.segments bytes, ∀ i < ph.filesize,
    byteAt mid.alloc.mem root (ph.virtaddr + i) = bytes[ph.offset + i]?
  mapped : StackMapped mid.alloc.mem root (stackTopOf (header.segments bytes))
  /-- The address spaces of other programs are not touched. -/
  kept : Kept k.alloc.mem mid.alloc.mem (roots \ {process.pctx.ttbr0.toNat})
  processTable : mid.processTable = k.processTable
  currentProcess : mid.currentProcess = k.currentProcess
  exec : ∀ slot args, k.exec slot process bytes args =
    match initializeArgs args (execContext bytes header root stack) mid.alloc with
    | (.error error, pctx, alloc) =>
      .ok (.error error, { mid with alloc }.setEntry slot (some { process with pctx }))
    | (.ok (), pctx, alloc) =>
      .ok (.ok (), { mid with alloc }.setEntry slot (some { process with pctx }))

/-- The kernel in which `exec` asks for a stack: the file is loaded, and the rest is given up. -/
structure Kernel.ExecGivenUp (k : Kernel) (process : Process) (bytes : List UInt8)
    (header : Elf64Hdr) (roots : Set Nat) (managed : Set Nat) (root : Nat) (alloc : PageAllocator)
    (given : Kernel) (left : List Nat) : Prop where
  loads : loadElf bytes k.alloc =
    .ok (.ok (header.entry, stackTopOf (header.segments bytes), root), alloc)
  fresh : root ∉ insert k.kernelL1 roots
  fits : (UInt64.ofNat root).toNat = root
  accounted : given.resources.Accounted (insert root (roots \ {process.pctx.ttbr0.toNat})) left
    managed
  inactive : given.getActiveStackIndex process.pid = none
  /-- The frames that the old image gives back, and those that the new one takes. -/
  count : left.length + (nodes (child given.alloc.mem) 3 root).ncard =
    k.alloc.freeFrameCount + (nodes (child k.alloc.mem) 3 process.pctx.ttbr0.toNat).ncard
  size : (nodes (child given.alloc.mem) 3 root).ncard ≤ framesNeeded (header.segments bytes)
  image : ∀ ph ∈ header.segments bytes, ∀ i < ph.filesize,
    byteAt given.alloc.mem root (ph.virtaddr + i) = bytes[ph.offset + i]?
  mapped : StackMapped given.alloc.mem root (stackTopOf (header.segments bytes))
  /-- The address spaces of other programs are not touched. -/
  kept : Kept k.alloc.mem given.alloc.mem (roots \ {process.pctx.ttbr0.toNat})

/-- With frames for the image, `exec` gets as far as the new kernel stack. -/
theorem Kernel.exec_givenUp (accounted : k.resources.Accounted roots free managed)
    (owned : k.resources.SlotsOwned) (active : k.kernelStacks old = .allocated self.pid)
    (live : self.pctx.ttbr0.toNat ∈ roots) (wellFormed : WellFormedElf bytes header)
    (contained : ∀ ph ∈ header.segments bytes, ph.Contained) (loads : header.segments bytes ≠ [])
    (enough : framesNeeded (header.segments bytes) ≤ k.alloc.freeFrameCount) :
    ∃ root alloc left, k.ExecGivenUp self bytes header roots managed root alloc
      (k.givenUp self old alloc) left := by
  have ownedAll : Owned k.alloc (insert k.kernelL1 roots) free managed := accounted.owned
  -- The file loads, since its segments fit and the frames are enough.
  have count : k.alloc.freeFrameCount = free.length := ownedAll.count
  have outcome := loadElf_spec ownedAll wellFormed (Or.inl contained)
  generalize loadsEq : loadElf bytes k.alloc = result at outcome
  cases outcome with
  | noSegments none => exact absurd none loads
  | outOfFrames few => omega
  | @loaded alloc root spill taken left _ built =>
    -- The new image comes out of the free frames.
    obtain ⟨fresh, keptLoaded, other, loaded⟩ :=
      accounted.loaded (wellFormed.loadsFresh contained) loadsEq
    have sameLeft : left.length = other.length := by
      rw [← loaded.owned.count]
      exact built.loading.owned.count.symm
    have size := built.ncard ownedAll
    have whole := congrArg List.length built.free_eq
    rw [List.length_cons, List.length_append] at whole
    have few := built.few
    have distinct : root ≠ self.pctx.ttbr0.toNat := by
      rintro rfl
      exact fresh (Set.mem_insert_of_mem _ live)
    -- The old image and the old stack are given up.
    obtain ⟨freed, freedCount, given, keptGiven⟩ := loaded.givenUp distinct live active
    -- The process has given up its only stack, so that it gets another one.
    have inactive : (k.givenUp self old alloc).getActiveStackIndex self.pid = none := by
      rw [Kernel.getActiveStackIndex_none]
      intro slot here
      have here : Function.update k.kernelStacks old (.queuedToFree self.pid) slot = _ := here
      rw [Function.update_apply] at here
      split at here
      · cases here
      · rename_i apart
        exact apart (owned.alone here active)
    -- The new root is a frame, so it fits a register.
    have isFrame : IsFrame root := by
      have ownedLoaded := loaded.owned
      exact ownedLoaded.node_frame (Set.mem_insert_of_mem _ (Set.mem_insert _ _))
        (root_mem_nodes root)
    have fits : (UInt64.ofNat root).toNat = root := by
      obtain ⟨-, small⟩ := isFrame
      rw [UInt64.toNat_ofNat', Nat.mod_eq_of_lt (by omega)]
    -- Giving up the old image leaves the new one alone.
    have isNew : root ∈ insert root (roots \ {self.pctx.ttbr0.toNat}) := Set.mem_insert _ _
    have keptOld : (nodes (child alloc.mem) 3 self.pctx.ttbr0.toNat) =
        nodes (child k.alloc.mem) 3 self.pctx.ttbr0.toNat :=
      keptLoaded.nodes (Set.mem_insert_of_mem _ live)
    refine ⟨root, alloc, freed ++ other, ⟨loadsEq, fresh, fits, given, inactive, ?count, ?size,
      ?image, ?mapped, ?kept⟩⟩
    case count =>
      rw [keptGiven.nodes isNew, List.length_append]
      rw [keptOld] at freedCount
      omega
    case size =>
      rw [keptGiven.nodes isNew]
      omega
    case image =>
      intro ph member i inside
      rw [keptGiven.byteAt isNew]
      exact (built.image ph member).file i inside
    case mapped => exact (built.stackMapped wellFormed.segments.each).kept keptGiven isNew
    case kept =>
      refine (keptLoaded.mono fun other inside => ?_).trans (keptGiven.mono (Set.subset_insert _ _))
      exact Set.mem_insert_of_mem _ inside.1

/-- From there on, `exec` allocates a stack and pushes the arguments. -/
theorem Kernel.ExecGivenUp.exec_eq {root : Nat} {alloc : PageAllocator} {left : List Nat}
    (given : k.ExecGivenUp self bytes header roots managed root alloc (k.givenUp self old alloc)
      left)
    (active : k.getActiveStackIndex self.pid = some old) (slot : Fin maxProcesses)
    (args : List String) :
    k.exec slot self bytes args =
      match (k.givenUp self old alloc).allocStack self.pid with
      | .error stop => .error stop
      | .ok (.error error, mid) => .ok (.error error, mid)
      | .ok (.ok top, mid) =>
        match initializeArgs args (ProcessContext.new (UInt64.ofNat header.entry)
          (UInt64.ofNat (stackTopOf (header.segments bytes))) top (UInt64.ofNat root)) mid.alloc with
        | (.error error, pctx, alloc) =>
          .ok (.error error, { mid with alloc }.setEntry slot (some { self with pctx }))
        | (.ok (), pctx, alloc) =>
          .ok (.ok (), { mid with alloc }.setEntry slot (some { self with pctx })) := by
  unfold Kernel.exec Kernel.withAlloc
  rw [given.loads]
  dsimp only
  unfold Kernel.queueStackToFree
  -- The stack that is queued is the one that was active.
  rw [show Kernel.getActiveStackIndex { k with
    alloc := freePageTable self.pctx.ttbr0.toNat alloc } self.pid = some old from active]
  rfl

/-- With frames for the image and six more, and a kernel stack, `exec` comes to the arguments. -/
theorem Kernel.exec_ready (accounted : k.resources.Accounted roots free managed)
    (owned : k.resources.SlotsOwned) (active : k.kernelStacks old = .allocated self.pid)
    (live : self.pctx.ttbr0.toNat ∈ roots) (wellFormed : WellFormedElf bytes header)
    (contained : ∀ ph ∈ header.segments bytes, ph.Contained) (loads : header.segments bytes ≠ [])
    (room : k.kernelStacks vacant = .free)
    (enough : framesNeeded (header.segments bytes) + 6 ≤ k.alloc.freeFrameCount) :
    ∃ root stack mid rest,
      k.ExecReady self bytes header roots managed old root stack mid rest := by
  obtain ⟨root, alloc, left, given⟩ := Kernel.exec_givenUp accounted owned active live wellFormed
    contained loads (by omega)
  -- The slot that was free is still free, since it was not the old stack's.
  have stillFree : (k.givenUp self old alloc).kernelStacks vacant = .free := by
    show Function.update k.kernelStacks old (.queuedToFree self.pid) vacant = _
    rw [Function.update_of_ne]
    · exact room
    · rintro rfl
      rw [room] at active
      cases active
  have count := given.count
  have size := given.size
  -- With six frames and a free slot, the new stack is mapped.
  rcases Kernel.allocStack_total given.accounted given.inactive with
    ⟨top, mid, stack, six, rest, gives, allocated, took⟩ | ⟨error, -, full⟩ | ⟨message, -, scarce⟩
  · obtain rfl := allocated.top_eq
    -- Taking the stack leaves the new image alone.
    have isNew : root ∈ insert root (roots \ {self.pctx.ttbr0.toNat}) := Set.mem_insert _ _
    obtain ⟨_, pa, -, -, same⟩ := allocated.next_eq
    have active : k.getActiveStackIndex self.pid = some old := owned.active active
    refine ⟨root, stack, mid, rest, ⟨given.fresh, given.fits, took.accounted, ?unused,
      allocated.kernelStacks, ?count, ?size, ?image, given.mapped.kept took.kept isNew,
      given.kept.trans (took.kept.mono (Set.subset_insert _ _)), ?table, ?current, ?exec⟩⟩
    case unused =>
      have free := allocated.free
      rw [show (k.givenUp self old alloc).kernelStacks =
        Function.update k.kernelStacks old (.queuedToFree self.pid) from rfl,
        Function.update_apply] at free
      split at free
      · cases free
      · exact free
    case count =>
      rw [took.kept.nodes isNew]
      have taking := congrArg List.length took.free_eq
      have isSix := took.six
      rw [List.length_append] at taking
      omega
    case size =>
      rw [took.kept.nodes isNew]
      exact size
    case image =>
      intro ph member i inside
      rw [took.kept.byteAt isNew]
      exact given.image ph member i inside
    case table =>
      rw [same]
      rfl
    case current =>
      rw [same]
      rfl
    case exec =>
      intro slot args
      rw [given.exec_eq active, gives]
      rfl
  · exact absurd stillFree (full vacant)
  · omega

/-- With frames for the image but no kernel stack, `exec` fails after it has given up everything. -/
theorem Kernel.ExecGivenUp.exec_error {root : Nat} {alloc : PageAllocator} {left : List Nat}
    (given : k.ExecGivenUp self bytes header roots managed root alloc (k.givenUp self old alloc)
      left)
    (active : k.getActiveStackIndex self.pid = some old)
    (full : ∀ stack, k.kernelStacks stack ≠ .free) (enough : 6 ≤ left.length) :
    ∃ error, ∀ slot args,
      k.exec slot self bytes args = .ok (.error error, k.givenUp self old alloc) := by
  -- The old stack is only queued, so its slot is not free either.
  have stillFull : ∀ stack, (k.givenUp self old alloc).kernelStacks stack ≠ .free := by
    intro stack
    show Function.update k.kernelStacks old (.queuedToFree self.pid) stack ≠ _
    rw [Function.update_apply]
    split
    · exact StackState.noConfusion
    · exact full stack
  rcases Kernel.allocStack_total given.accounted given.inactive with
    ⟨top, mid, stack, six, rest, gives, allocated, took⟩ | ⟨error, fails, -⟩ | ⟨message, -, scarce⟩
  · exact absurd allocated.free (stillFull stack)
  · refine ⟨error, fun slot args => ?_⟩
    rw [given.exec_eq active, fails]
  · omega

end Ready

section Pushing

variable {alloc last : PageAllocator} {roots : Set Nat} {free : List Nat} {managed : Set Nat}
  {args : List String} {pctx after : ProcessContext}

/-- Pushing arguments changes nothing but the bytes below the top of the stack. -/
theorem initializeArgs_image (owned : Owned alloc roots free managed)
    (live : pctx.ttbr0.toNat ∈ roots)
    (stack : StackMapped alloc.mem pctx.ttbr0.toNat pctx.spEl0.toNat)
    (done : initializeArgs args pctx alloc = (.ok (), after, last)) :
    last.freeFrameCount = alloc.freeFrameCount ∧
      nodes (child last.mem) 3 pctx.ttbr0.toNat = nodes (child alloc.mem) 3 pctx.ttbr0.toNat ∧
      ∀ va < 2 ^ 39, (va < pctx.spEl0.toNat - stackBufSize ∨ pctx.spEl0.toNat ≤ va) →
        byteAt last.mem pctx.ttbr0.toNat va = byteAt alloc.mem pctx.ttbr0.toNat va := by
  rw [initializeArgs, pushArgsToStack] at done
  -- The strings fit the buffer, or nothing has been written.
  cases made : argsImage args with
  | error error =>
    rw [made] at done
    cases done
  | ok image =>
    obtain ⟨image, sp⟩ := image
    rw [made] at done
    dsimp only at done
    obtain ⟨count, copied⟩ := copyToPages_spec owned live
      ((List.range (stackBufSize - sp)).map fun position => image (sp + position))
      (pctx.spEl0 - UInt64.ofNat (stackBufSize - sp)).toNat
    generalize copyToPages _ _ _ alloc = written at done copied
    obtain ⟨written, next⟩ := written
    cases written with
    | error error => cases done
    | ok value =>
      -- Only the buffer below the stack's top has been written.
      cases done
      have low := stack.low
      have room := stack.room
      rw [stackBufSize] at room
      have small : (UInt64.ofNat (stackBufSize - sp)).toNat = stackBufSize - sp := by
        rw [stackBufSize, UInt64.toNat_ofNat', Nat.mod_eq_of_lt (by omega)]
      have address : (pctx.spEl0 - UInt64.ofNat (stackBufSize - sp)).toNat =
          pctx.spEl0.toNat - (stackBufSize - sp) := by
        rw [UInt64.toNat_sub_of_le, small]
        rw [UInt64.le_iff_toNat_le, small, stackBufSize]
        omega
      have length : ((List.range (stackBufSize - sp)).map fun position =>
          image (sp + position)).length = stackBufSize - sp := by simp
      have sameCount := congrArg PageAllocator.freeFrameCount copied.after_eq
      refine ⟨sameCount, ?_, fun va inMemory outside => ?_⟩
      · -- The tables are walked as before, so they have the same nodes.
        ext node
        constructor
        · rintro ⟨path, short, reached⟩
          exact ⟨path, short, (copied.walks owned live live short).symm.trans reached⟩
        · rintro ⟨path, short, reached⟩
          exact ⟨path, short, (copied.walks owned live live short).trans reached⟩
      · -- Every byte outside of the buffer is kept.
        rw [copied.byteAt owned live ?_ rfl inMemory, if_neg]
        · rw [address, length]
          rw [stackBufSize] at *
          omega
        · rw [address, length, stackBufSize]
          omega

end Pushing

section Handler

variable {files : String → Option (List UInt8)} {k mid : Kernel} {self : Process}
  {roots : Set Nat} {managed : Set Nat} {bytes : List UInt8} {header : Elf64Hdr}
  {old stack : Fin maxProcesses} {root : Nat} {rest : List Nat} {args : List String}
  {ctx : ExceptionContext}

/-- The kernel after an `exec` that succeeded, in which the new program has its arguments. -/
structure Kernel.ExecDone (mid : Kernel) (root : Nat) (stack : Fin maxProcesses) (top : Nat)
    (pctx : ProcessContext) (next : Kernel) : Prop where
  holding : pctx.holding = ⟨UInt64.ofNat root, UInt64.ofNat (kernelStackTop stack)⟩
  kernelStacks : next.kernelStacks = mid.kernelStacks
  frames : next.alloc.freeFrameCount = mid.alloc.freeFrameCount
  nodes : nodes (child next.alloc.mem) 3 root = nodes (child mid.alloc.mem) 3 root
  image : ∀ va < 2 ^ 39, (va < top - stackBufSize ∨ top ≤ va) →
    byteAt next.alloc.mem root va = byteAt mid.alloc.mem root va

/-- With a path that names a file, `sys_exec` goes on with the file. -/
theorem Kernel.sysExec_file (current : k.getCurrentProcess = some self)
    (reads : readExecArgs (k.loadByte ctx.ttbr0) (ctx.x.get 0) (ctx.x.get 1) (ctx.x.get 2) = .ok args)
    (file : files (args.headD "") = some bytes) :
    k.sysExec files ctx = k.execFile ctx self (args.headD "") bytes args := by
  unfold Kernel.sysExec
  rw [reads]
  dsimp only
  rw [current, file]

/-- What `sys_exec` returns when `exec` fails. -/
theorem Kernel.sysExec_failed {error : String} (current : k.getCurrentProcess = some self)
    (reads : readExecArgs (k.loadByte ctx.ttbr0) (ctx.x.get 0) (ctx.x.get 1) (ctx.x.get 2) = .ok args)
    (file : files (args.headD "") = some bytes)
    (fails : k.exec k.currentProcess self bytes args = .ok (.error error, mid)) :
    k.sysExec files ctx = .returned mid (ctx.setX 0 failure) := by
  rw [Kernel.sysExec_file current reads file]
  unfold Kernel.execFile
  rw [fails]

/-- The top of the stack fits a register. -/
theorem Kernel.ExecReady.top_fits
    (ready : k.ExecReady self bytes header roots managed old root stack mid rest) :
    (UInt64.ofNat (stackTopOf (header.segments bytes))).toNat = stackTopOf (header.segments bytes) := by
  have low := ready.mapped.low
  rw [UInt64.toNat_ofNat', Nat.mod_eq_of_lt (by omega)]

/-- An `exec` whose arguments fit the stack goes on with the new program. -/
theorem Kernel.ExecReady.sysExec_ok
    (ready : k.ExecReady self bytes header roots managed old root stack mid rest)
    (current : k.getCurrentProcess = some self)
    (reads : readExecArgs (k.loadByte ctx.ttbr0) (ctx.x.get 0) (ctx.x.get 1) (ctx.x.get 2) = .ok args)
    (file : files (args.headD "") = some bytes) {image : Mem} {sp : Nat}
    (fits : argsImage args = .ok (image, sp)) :
    ∃ pctx after next, k.exec k.currentProcess self bytes args = .ok (.ok (), after) ∧
      k.sysExec files ctx = .returned next (ctx.updateFromPctx pctx) ∧
      mid.ExecDone root stack (stackTopOf (header.segments bytes)) pctx next := by
  -- The new root is live, and its stack is mapped.
  have ownedMid : Owned mid.alloc (insert mid.kernelL1 (insert root _)) rest managed :=
    ready.accounted.owned
  have sameRoot : (execContext bytes header root stack).ttbr0.toNat = root := ready.fits
  have sameTop : (execContext bytes header root stack).spEl0.toNat =
      stackTopOf (header.segments bytes) := ready.top_fits
  have live : (execContext bytes header root stack).ttbr0.toNat ∈
      insert mid.kernelL1 (insert root (roots \ {self.pctx.ttbr0.toNat})) := by
    rw [sameRoot]
    exact Set.mem_insert_of_mem _ (Set.mem_insert _ _)
  have mapped : StackMapped mid.alloc.mem (execContext bytes header root stack).ttbr0.toNat
      (execContext bytes header root stack).spEl0.toNat := by
    rw [sameRoot, sameTop]
    exact ready.mapped
  obtain ⟨pctx, last, pushes⟩ := initializeArgs_ok ownedMid live mapped fits
  obtain ⟨-, -, -, holding⟩ := initializeArgs_kept ownedMid live pushes
  obtain ⟨frames, sameNodes, bytesKept⟩ := initializeArgs_image ownedMid live mapped pushes
  -- With the arguments pushed, `exec` succeeds.
  have exec := ready.exec k.currentProcess args
  rw [pushes] at exec
  dsimp only at exec
  rw [sameRoot] at sameNodes bytesKept
  rw [sameTop] at bytesKept
  have handled := Kernel.sysExec_file current reads file
  -- The entry that is read back is the one that was just written.
  have entry : ({ mid with alloc := last }.setEntry k.currentProcess
      (some { self with pctx })).processTable ({ mid with alloc := last }.setEntry k.currentProcess
        (some { self with pctx })).currentProcess = some { self with pctx } := by
    show put mid.processTable k.currentProcess _ mid.currentProcess = _
    rw [ready.currentProcess, put_self]
  unfold Kernel.execFile at handled
  rw [exec] at handled
  dsimp only at handled
  rw [entry] at handled
  exact ⟨pctx, _, _, exec, handled, holding, rfl, frames, sameNodes, bytesKept⟩

/-- An `exec` whose arguments do not fit the stack returns -1 after it has given up everything. -/
theorem Kernel.ExecReady.sysExec_error
    (ready : k.ExecReady self bytes header roots managed old root stack mid rest)
    (current : k.getCurrentProcess = some self)
    (reads : readExecArgs (k.loadByte ctx.ttbr0) (ctx.x.get 0) (ctx.x.get 1) (ctx.x.get 2) = .ok args)
    (file : files (args.headD "") = some bytes) {error : String}
    (tooLong : argsImage args = .error error) :
    k.sysExec files ctx = .returned
      (mid.setEntry k.currentProcess (some { self with pctx := execContext bytes header root stack }))
      (ctx.setX 0 failure) := by
  have fails := ready.exec k.currentProcess args
  rw [initializeArgs, pushArgsToStack, tooLong] at fails
  exact Kernel.sysExec_failed current reads file fails

end Handler

end AtOS
