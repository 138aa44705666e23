import AtOS.Processes.FailedSpawn
import AtOS.Resources.KernelMoves

/-! A run of the machine is, for its frames, a run of the pool: the kernel does nothing else. -/

namespace AtOS

open ByteMemory RadixForest SlotTable

/-- A file whose zeroing stays in its pages is loaded into fresh frames. -/
theorem ElfStaysInside.loadsFresh {bytes : List UInt8} (inside : ElfStaysInside bytes) :
    LoadsFresh bytes := by
  intro alloc roots free managed entry sp root after owned done
  obtain ⟨header, verified, -, builds⟩ := loadElf_ok done
  obtain ⟨rest, building⟩ := builds owned (Or.inl (inside header verified))
  exact ⟨building.fresh, building.kept, rest, building.owned⟩

section Handlers

variable {files : String → Option (List UInt8)} {k next mid : Kernel} {self child : Process}
  {inKernel : UInt64 → Bool} {ctx : ExceptionContext} {handled : Handled}
  {roots : Set Nat} {free : List Nat} {managed : Set Nat}

/-- Resources whose address spaces are known are a pool with these. -/
theorem Resources.pool_eq {r : Resources} {others : Set Nat} (same : r.spaces = others) :
    r.pool = ⟨r.alloc, insert r.kernelL1 others⟩ := by
  rw [Resources.pool, same]

/-- `exit` frees the address space of its process. -/
theorem Kernel.Runs.exited_moves (runs : k.Runs inKernel self)
    (sound : k.resources.Sound roots free managed) {stack : Fin maxProcesses}
    (resources : next.resources = { k.resources with
      alloc := freePageTable self.pctx.ttbr0.toNat k.alloc
      kernelStacks := Function.update k.kernelStacks stack (.queuedToFree self.pid)
      holding := Function.update k.resources.holding self.pid none }) :
    Pool.Moves (mayChange k.kernelL1) k.resources.pool next.resources.pool := by
  have live : self.pctx.ttbr0.toNat ∈ roots := sound.assigned.live runs.holding
  have notKernel : self.pctx.ttbr0.toNat ≠ k.kernelL1 := (sound.accounted.ne_kernel live).symm
  -- The process leaves, and its root goes with it.
  have spaces : next.resources.spaces = roots \ {self.pctx.ttbr0.toNat} :=
    sound.assigned.spaces_dropped runs.holding (congrArg Resources.holding resources)
  have retiring : Pool.Move (mayChange k.kernelL1) ⟨k.alloc, insert k.kernelL1 roots⟩
      ⟨freePageTable self.pctx.ttbr0.toNat k.alloc,
        insert k.kernelL1 roots \ {self.pctx.ttbr0.toNat}⟩ :=
    .freePageTable (Set.mem_insert_of_mem _ live) (mayChange_other notKernel)
  rw [Set.insert_sdiff_of_notMem _ (by simpa using notKernel.symm)] at retiring
  rw [Resources.pool_eq sound.assigned.spaces_eq, Resources.pool_eq spaces, resources]
  exact .single retiring

/-- `fork` adds the address space of the child. -/
theorem Kernel.Runs.forked_moves (runs : k.Runs inKernel self)
    (sound : k.resources.Sound roots free managed)
    (forks : k.forkProcess self = .ok (.ok child, mid))
    (resources : next.resources = { mid.resources with
      holding := Function.update k.resources.holding child.pid (some child.pctx.holding) }) :
    Pool.Moves (mayChange k.kernelL1) k.resources.pool next.resources.pool ∧
      next.kernelL1 = k.kernelL1 := by
  have live : self.pctx.ttbr0.toNat ∈ roots := sound.assigned.live runs.holding
  have pid := (Kernel.forkProcess_ok forks).pid
  have inactive := runs.child_inactive sound.assigned.slots forks
  obtain ⟨root, copy, takes⟩ := Kernel.forkProcess_takes forks
  -- The new root is a frame that was free, and it fits a register.
  have ownedAll : Owned k.alloc (insert k.kernelL1 roots) free managed := sound.accounted.owned
  have outcome := duplicateVaSpace_spec ownedAll (Set.mem_insert_of_mem _ live)
  rw [takes.space] at outcome
  obtain ⟨fresh, fits⟩ : root ∉ insert k.kernelL1 roots ∧ (UInt64.ofNat root).toNat = root := by
    cases outcome with
    | done duplicated =>
      obtain ⟨_, _, duplicated⟩ := duplicated
      exact ⟨duplicated.fresh ownedAll, duplicated.owned.root_fits (Set.mem_insert _ _)⟩
  have isRoot : child.pctx.holding.ttbr0.toNat = root := by
    have ttbr0 : child.pctx.ttbr0 = UInt64.ofNat root := congrArg ProcessContext.ttbr0 takes.context
    show child.pctx.ttbr0.toNat = root
    rw [ttbr0, fits]
  -- The pid of the child is new, so nobody gives an address space up for its.
  obtain ⟨moves, kernelL1⟩ :=
    Kernel.forkProcess_moves takes live sound.accounted.apart fresh inactive
  have vacant : k.resources.holding child.pid = none := by
    rw [pid]
    exact runs.fresh_holding
  have spaces := sound.assigned.spaces_added vacant (congrArg Resources.holding resources)
  rw [isRoot] at spaces
  have sameL1 : next.kernelL1 = k.kernelL1 :=
    (congrArg Resources.kernelL1 resources).trans kernelL1
  -- The pool's roots are the spaces that are held and the kernel's own.
  have sameL1' : next.resources.kernelL1 = k.kernelL1 := sameL1
  have sameAlloc : next.resources.alloc = mid.alloc := congrArg Resources.alloc resources
  rw [Resources.pool_eq sound.assigned.spaces_eq, Resources.pool_eq spaces, sameL1', sameAlloc]
  exact ⟨moves, sameL1⟩

/-- `exec` exchanges the address space of its process. -/
theorem Kernel.Runs.executed_moves (runs : k.Runs inKernel self)
    (sound : k.resources.Sound roots free managed) {bytes : List UInt8} {args : List String}
    (inside : ElfStaysInside bytes) {pctx : ProcessContext}
    (executes : k.exec k.currentProcess self bytes args = .ok (.ok (), mid))
    (entry : mid.processTable mid.currentProcess = some { self with pctx })
    (resources : next.resources = mid.resources) :
    Pool.Moves (mayChange k.kernelL1) k.resources.pool next.resources.pool ∧
      next.kernelL1 = k.kernelL1 := by
  have live : self.pctx.ttbr0.toNat ∈ roots := sound.assigned.live runs.holding
  obtain ⟨root, changed, table, ttbr0, kernelL1, moves⟩ :=
    Kernel.exec_moves sound.accounted live inside.loadsFresh inside executes
  -- The entry of the process is the one that `exec` has made.
  have holding := runs.executed_holding executes entry
  obtain ⟨-, current, -⟩ := Kernel.exec_entry executes
  rw [current, table, put_self, Option.some.injEq, Process.mk.injEq] at entry
  have isPctx : changed = pctx := entry.2.2.2.2.2.1
  subst isPctx
  -- The process exchanges its old space for the new one.
  have holdingNext : next.resources.holding =
      Function.update k.resources.holding self.pid (some changed.holding) := by
    rw [resources]
    exact holding
  have spaces := sound.assigned.spaces_exchanged runs.holding holdingNext
  rw [show changed.holding.ttbr0.toNat = root from ttbr0] at spaces
  have sameL1 : next.kernelL1 = k.kernelL1 :=
    (congrArg Resources.kernelL1 resources).trans kernelL1
  have sameL1' : next.resources.kernelL1 = k.kernelL1 := sameL1
  have sameAlloc : next.resources.alloc = mid.alloc := congrArg Resources.alloc resources
  rw [Resources.pool_eq sound.assigned.spaces_eq, Resources.pool_eq spaces, sameL1', sameAlloc]
  exact ⟨moves, sameL1⟩

/-- A handler works on the pool by such operations, if its `exec` does not fail. -/
theorem Kernel.Uses.moves (uses : k.Uses files self ctx handled) (runs : k.Runs inKernel self)
    (sound : k.resources.Sound roots free managed)
    (staysInside : ∀ path bytes, files path = some bytes → ElfStaysInside bytes)
    (execsWell : k.ExecsWell files self ctx) (goesOn : handled.kernel = some next) :
    Pool.Moves (mayChange k.kernelL1) k.resources.pool next.resources.pool ∧
      next.kernelL1 = k.kernelL1 := by
  -- Three of the uses move the pool. The others leave it where it is.
  cases uses with
  | stopped unwraps => cases goesOn
  | returned same holding =>
    cases goesOn
    rw [same]
    exact ⟨.refl, congrArg Resources.kernelL1 same⟩
  | scheduling lockHeld same =>
    cases goesOn
    rw [same]
    exact ⟨.refl, congrArg Resources.kernelL1 same⟩
  | inSyscall =>
    cases goesOn
    exact ⟨.refl, rfl⟩
  | exited isExit active resources =>
    cases goesOn
    exact ⟨runs.exited_moves sound resources, congrArg Resources.kernelL1 resources⟩
  | forked isFork forks vacant next_eq resources =>
    cases goesOn
    exact runs.forked_moves sound forks resources
  | executed isExec reads file executes entry resources =>
    cases goesOn
    exact runs.executed_moves sound (staysInside _ _ file) executes entry resources
  | notExecuted isExec reads file fails => exact absurd fails (execsWell isExec reads file)

end Handlers

section Run

variable {files : String → Option (List UInt8)} {m after boot : Machine} {self : Process}
  {ctx : ExceptionContext} {devices : Devices} {mid start : Kernel} {handled : Handled}
  {action : Action} {roots : Set Nat} {free : List Nat} {managed : Set Nat} {first limit : Nat}

/-- The root of the kernel's own table is a frame. -/
theorem Machine.Owns.kernelFrame (owns : m.Owns roots free managed) :
    m.kernel.kernelL1 < 2 ^ 39 := by
  have owned : Owned m.kernel.alloc (insert m.kernel.kernelL1 roots) free managed :=
    owns.sound.accounted.owned
  exact (owned.node_frame (Set.mem_insert _ _) (root_mem_nodes _)).2

/-- Entering an exception frees stacks, and no address space. -/
theorem Machine.Traps.entered_moves (traps : m.Traps files self ctx devices mid handled)
    (owns : m.Owns roots free managed) :
    Pool.Moves (mayChange m.kernel.kernelL1) m.kernel.resources.pool mid.resources.pool ∧
      mid.kernelL1 = m.kernel.kernelL1 := by
  obtain ⟨freed, freeing, resources⟩ := traps.runs.entered_resources traps.fromUser traps.entry
  obtain ⟨frames, sound, -⟩ := traps.sound owns
  have live : m.kernel.kernelL1 ∈ insert m.kernel.kernelL1 roots := Set.mem_insert _ _
  obtain ⟨moves, same⟩ := Kernel.freeQueuedStacks_moves owns.kernelFrame live freeing
  have kernelL1 : mid.resources.kernelL1 = m.kernel.kernelL1 :=
    (congrArg Resources.kernelL1 resources).trans same
  have alloc : mid.resources.alloc = freed.alloc := congrArg Resources.alloc resources
  rw [Resources.pool_eq owns.sound.assigned.spaces_eq, Resources.pool_eq sound.assigned.spaces_eq,
    kernelL1, alloc]
  exact ⟨moves, kernelL1⟩

/-- A step that is no trap stores a byte at most. -/
theorem Machine.Rests.moves (rests : m.Rests after) (base : after.base = m.base)
    (owns : m.Owns roots free managed) :
    Pool.Moves (mayChange m.kernel.kernelL1) m.kernel.resources.pool after.kernel.resources.pool ∧
      after.kernel.kernelL1 = m.kernel.kernelL1 := by
  have later := rests.owns base owns
  -- The pool before and after is given by the same roots, since the bases are the same.
  rw [Resources.pool_eq owns.sound.assigned.spaces_eq,
    Resources.pool_eq later.sound.assigned.spaces_eq]
  cases rests with
  | same resources =>
    rw [resources]
    exact ⟨.refl, congrArg Resources.kernelL1 resources⟩
  | saved goesOn resources =>
    rw [resources]
    exact ⟨.refl, congrArg Resources.kernelL1 resources⟩
  | @stored root va byte owner resources =>
    have live : root ∈ insert m.kernel.kernelL1 roots := by
      rcases owner with rfl | ⟨pid, now, goesOn, rfl⟩
      · exact Set.mem_insert _ _
      · obtain ⟨held, holds, same⟩ := (owns.based goesOn).table
        exact Set.mem_insert_of_mem _ (same ▸ owns.sound.assigned.live holds)
    rw [resources]
    exact ⟨Kernel.storeByte_moves live va byte, congrArg Resources.kernelL1 resources⟩

/-- A step in which no `exec` fails works on the pool by such operations. -/
theorem Machine.Outcome.moves (outcome : m.Outcome files action (.ok after)) (valid : m.Valid)
    (staysInside : ∀ path bytes, files path = some bytes → ElfStaysInside bytes)
    (execsWell : m.ExecsWell files action) (owns : m.Owns roots free managed) :
    Pool.Moves (mayChange m.kernel.kernelL1) m.kernel.resources.pool after.kernel.resources.pool ∧
      after.kernel.kernelL1 = m.kernel.kernelL1 := by
  by_cases trap : ∃ ctx devices, action = .trap ctx devices
  · -- A trap first frees queued stacks, and then its handler works on what that leaves.
    obtain ⟨ctx, devices, rfl⟩ := trap
    obtain ⟨self, mid, handled, traps, done⟩ := outcome.traps
    obtain ⟨freed, sound, -⟩ := traps.sound owns
    obtain ⟨entering, same⟩ := traps.entered_moves owns
    obtain ⟨handling, sameAfter⟩ := traps.uses.moves traps.entered.runs sound staysInside
      (execsWell rfl traps.runs.current traps.entry) (Machine.after_kernel done.symm)
    rw [same] at handling
    exact ⟨entering.trans handling, sameAfter.trans same⟩
  · obtain ⟨base, rests⟩ := outcome.rests valid fun ctx devices same => trap ⟨ctx, devices, same⟩
    exact rests.moves base owns

/-- Boot makes the address space of `init`, and a kernel stack. -/
theorem Machine.Booted.moves (booted : Machine.Booted files start boot)
    (prepared : start.Prepared first limit)
    (staysInside : ∀ path bytes, files path = some bytes → ElfStaysInside bytes) :
    Pool.Moves (mayChange start.kernelL1) ⟨start.alloc, {start.kernelL1}⟩
        boot.kernel.resources.pool ∧ boot.kernel.kernelL1 = start.kernelL1 := by
  -- From the prepared kernel to the booted one there are three moves.
  have fresh := booted.fresh
  obtain ⟨k, init, frame, bytes, root, loaded, last, stack, mid, file, spawned, takes, rfl⟩ :=
    booted.takes
  obtain ⟨entry, sp, loads, top, allocated, pushes⟩ := takes.loads
  obtain ⟨free, owned, -⟩ := prepared.owned
  obtain ⟨newRoot, -, rest, ownedLoaded⟩ :=
    (staysInside _ _ file).loadsFresh _ _ _ _ _ _ _ _ owned loads
  -- The program is loaded into a space of its own, then comes its kernel stack, then the arguments.
  have notKernel : root ≠ start.kernelL1 := newRoot
  have fits : (UInt64.ofNat root).toNat = root := ownedLoaded.root_fits (Set.mem_insert _ _)
  have loading : Pool.Moves (mayChange start.kernelL1) ⟨start.alloc, {start.kernelL1}⟩
      ⟨loaded, {root, start.kernelL1}⟩ :=
    loadElf_moves (staysInside _ _ file) (mayChange_other notKernel) loads
  rw [Set.pair_comm] at loading
  have liveKernel : start.kernelL1 ∈ ({start.kernelL1, root} : Set Nat) := Set.mem_insert _ _
  obtain ⟨giving, -⟩ := allocated.moves liveKernel
  have liveRoot : (ProcessContext.new (UInt64.ofNat entry) (UInt64.ofNat sp) top
      (UInt64.ofNat root)).ttbr0.toNat ∈ ({start.kernelL1, root} : Set Nat) := by
    show (UInt64.ofNat root).toNat ∈ _
    rw [fits]
    exact Set.mem_insert_of_mem _ rfl
  obtain ⟨pushing, ttbr0⟩ := initializeArgs_moves liveRoot pushes
  have isRoot : init.pctx.ttbr0.toNat = root := by
    rw [ttbr0]
    exact fits
  -- Nobody but `init` has an entry, and its table is the new one.
  have spaces : k.resources.spaces = {root} := by
    ext other
    rw [Set.mem_singleton_iff, ← isRoot]
    constructor
    · rintro ⟨pid, held, holds, rfl⟩
      rw [spawned.holding fresh, Function.update_apply] at holds
      split at holds
      · rw [Option.some.injEq] at holds
        subst holds
        rfl
      · cases holds
    · rintro rfl
      exact ⟨1, _, by rw [spawned.holding fresh, Function.update_self], rfl⟩
  have kernelL1 : k.resources.kernelL1 = start.kernelL1 := takes.kernelL1
  have alloc : k.resources.alloc = last := takes.alloc
  rw [Resources.pool_eq spaces, kernelL1, alloc]
  exact ⟨(loading.trans giving).trans pushing, takes.kernelL1⟩

/-- A run of the machine in which no `exec` fails is a run of such operations. -/
theorem Machine.Runs.moves (run : Machine.Runs files (Machine.ExecsWell files) boot m)
    (booted : Machine.Booted files start boot) (prepared : start.Prepared first limit)
    (staysInside : ∀ path bytes, files path = some bytes → ElfStaysInside bytes) :
    m.Valid ∧ (∃ roots free, m.Owns roots free (start.knownFrames first limit)) ∧
      Pool.Moves (mayChange start.kernelL1) ⟨start.alloc, {start.kernelL1}⟩
        m.kernel.resources.pool ∧ m.kernel.kernelL1 = start.kernelL1 := by
  -- A file that stays inside its pages loads fresh, so the run is one where everybody owns what it
  -- has.
  have loadsFresh : ∀ path bytes, files path = some bytes → LoadsFresh bytes :=
    fun path bytes file => (staysInside path bytes file).loadsFresh
  have booting := booted.moves prepared staysInside
  have owns := booted.owns prepared loadsFresh
  refine run.induction (motive := fun m =>
    (∃ roots free, m.Owns roots free (start.knownFrames first limit)) ∧
      Pool.Moves (mayChange start.kernelL1) ⟨start.alloc, {start.kernelL1}⟩
        m.kernel.resources.pool ∧ m.kernel.kernelL1 = start.kernelL1)
    booted.tree.1 ⟨owns, booting⟩ ?_
  rintro before next action valid ⟨⟨roots, free, owns⟩, moves, kernelL1⟩ execsWell outcome -
  -- The moves of one more step come after those of the run.
  obtain ⟨later, same⟩ := outcome.moves valid staysInside execsWell owns
  rw [kernelL1] at later
  exact ⟨outcome.owns valid loadsFresh execsWell owns, moves.trans later, same.trans kernelL1⟩

/-- The top tables in use: that of the kernel, and those of the processes that are alive. -/
def Kernel.topTables (k : Kernel) : Set Nat :=
  { root | root = k.kernelL1 ∨ ∃ slot process, k.processTable slot = some process ∧
    process.state ≠ .terminated ∧ process.pctx.ttbr0.toNat = root }

/-- They are those of the pool. -/
theorem Kernel.resources_pool {k : Kernel} (distinct : Distinct k.processTable) :
    k.resources.pool = ⟨k.alloc, k.topTables⟩ := by
  rw [Resources.pool]
  congr 1
  ext root
  constructor
  · rintro (same | ⟨pid, held, holds, isRoot⟩)
    · exact Or.inl same
    · obtain ⟨slot, process, there, -, alive, rfl⟩ := Kernel.slot_of_holding holds
      exact Or.inr ⟨slot, process, there, alive, isRoot⟩
  · rintro (same | ⟨slot, process, there, alive, isRoot⟩)
    · exact Or.inl same
    · exact Or.inr ⟨process.pid, _, Kernel.holding_slot distinct there alive, isRoot⟩

/--
Every run of the machine in which no `exec` fails is, on the allocator, a run of the pool's steps.

Whatever the processes call and in whichever order they are scheduled: frames are popped, pages
mapped, copied and freed below the tables in use only, and these are always the kernel's and those
of the processes that are alive.
-/
theorem Machine.Booted.runsPool (booted : Machine.Booted files start boot)
    (prepared : start.Prepared first limit)
    (staysInside : ∀ path bytes, files path = some bytes → ElfStaysInside bytes)
    (run : Machine.Runs files (Machine.ExecsWell files) boot m) :
    Relation.ReflTransGen Pool.Step ⟨start.alloc, {start.kernelL1}⟩
      ⟨m.kernel.alloc, m.kernel.topTables⟩ := by
  obtain ⟨valid, -, moves, -⟩ := run.moves booted prepared staysInside
  obtain ⟨free, owned, -⟩ := prepared.owned
  have steps := (Pool.Moves.steps moves owned).1
  rw [Kernel.resources_pool valid.distinct] at steps
  exact steps

/-- The small program is loaded and scheduled by steps of the pool. -/
theorem runsPool_words : ∃ m frame, Machine.Reachable wordsFiles m ∧ m.control = .user frame ∧
    Relation.ReflTransGen Pool.Step ⟨wordsStart.alloc, {wordsStart.kernelL1}⟩
      ⟨m.kernel.alloc, m.kernel.topTables⟩ := by
  obtain ⟨boot, booted⟩ := wordsStart_boots
  obtain ⟨_, _, frame, step, running, -⟩ := booted.schedules
  have noExec : boot.ExecsWell wordsFiles (.schedule false) := fun same => nomatch same
  exact ⟨_, frame, ⟨_, boot, booted, .single ⟨_, trivial, step⟩⟩, running,
    booted.runsPool wordsStart_prepared wordsFiles_staysInside (.single ⟨_, noExec, step⟩)⟩

end Run

end AtOS
