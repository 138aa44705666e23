import AtOS.Resources.Bases

/-! Each process that is alive owns its page table and its kernel stack, while no `exec` fails. -/

namespace AtOS

open ByteMemory RadixForest SlotTable

variable {files : String → Option (List UInt8)} {k next : Kernel} {m after : Machine}
  {self : Process} {inKernel : UInt64 → Bool} {roots : Set Nat} {free : List Nat}
  {managed : Set Nat}

/-- A process goes on with its own page table, and on top of its own kernel stack. -/
structure Resources.Backs (r : Resources) (pid : UInt64) (base : Holding) : Prop where
  table : ∃ held, r.holding pid = some held ∧ held.ttbr0 = base.ttbr0
  stack : ∃ slot, r.kernelStacks slot = .allocated pid ∧
    base.spEl1 = UInt64.ofNat (kernelStackTop slot)

/-- After a handler, all that processes hold is theirs, and what is new is backed. -/
structure Resources.Passes (r after : Resources) (managed : Set Nat) : Prop where
  sound : ∃ roots free, after.Sound roots free managed
  backs : ∀ {pid base}, (if after.holding pid = r.holding pid then r.Backs pid base
    else after.holding pid = some base) → after.Backs pid base

section Handlers

variable {r after : Resources}

/-- What backs a process goes on to back it if its slot stays allocated. -/
theorem Resources.Backs.congr {pid : UInt64} {base : Holding} (backs : r.Backs pid base)
    (holding : after.holding pid = r.holding pid)
    (slots : ∀ slot, r.kernelStacks slot = .allocated pid → after.kernelStacks slot = .allocated pid) :
    after.Backs pid base := by
  obtain ⟨held, holds, table⟩ := backs.table
  obtain ⟨slot, active, top⟩ := backs.stack
  exact ⟨⟨held, holding.trans holds, table⟩, slot, slots slot active, top⟩

/-- Registers that are saved again name the same page table. -/
theorem Resources.Backs.resaved {pid other : UInt64} {base held saved : Holding}
    (backs : r.Backs other base) (holds : r.holding pid = some held)
    (same : saved.ttbr0 = held.ttbr0)
    (holding : after.holding = Function.update r.holding pid (some saved))
    (slots : ∀ slot, r.kernelStacks slot = .allocated other → after.kernelStacks slot = .allocated other) :
    after.Backs other base := by
  obtain ⟨own, mine, table⟩ := backs.table
  obtain ⟨slot, active, top⟩ := backs.stack
  refine ⟨?_, slot, slots slot active, top⟩
  rw [holding, Function.update_apply]
  split
  · rename_i isPid
    rw [isPid, holds, Option.some.injEq] at mine
    exact ⟨saved, rfl, same.trans (mine ▸ table)⟩
  · exact ⟨own, mine, table⟩

/-- Nothing is passed where nothing changes. -/
theorem Resources.Passes.refl (sound : r.Sound roots free managed) : r.Passes r managed := by
  refine ⟨⟨roots, free, sound⟩, fun {pid base} backs => ?_⟩
  rwa [if_pos rfl] at backs

/-- The change of what one process holds, with the slots of the others. -/
theorem Resources.Passes.update {pid : UInt64} {value : Option Holding}
    (sound : ∃ roots free, after.Sound roots free managed)
    (holding : after.holding = Function.update r.holding pid value) (changed : value ≠ r.holding pid)
    (others : ∀ {other slot}, other ≠ pid → r.kernelStacks slot = .allocated other →
      after.kernelStacks slot = .allocated other)
    (mine : ∀ {held}, value = some held → after.Backs pid held) : r.Passes after managed := by
  refine ⟨sound, fun {other base} backs => ?_⟩
  rw [holding, Function.update_apply] at backs
  by_cases isPid : other = pid
  · subst isPid
    rw [if_pos rfl, if_neg changed] at backs
    exact mine backs
  · rw [if_neg isPid, if_pos rfl] at backs
    refine backs.congr ?_ fun slot => others isPid
    rw [holding, Function.update_of_ne isPid]

/-- The root of an address space fits a register. -/
theorem Owned.root_fits {alloc : PageAllocator} {root : Nat} (owned : Owned alloc roots free managed)
    (live : root ∈ roots) : (UInt64.ofNat root).toNat = root := by
  obtain ⟨-, small⟩ := owned.node_frame live (root_mem_nodes root)
  rw [UInt64.toNat_ofNat', Nat.mod_eq_of_lt (by omega)]

variable {ctx : ExceptionContext}

/-- `exit` gives up what its process holds. -/
theorem Kernel.Runs.exited_passes (runs : k.Runs inKernel self)
    (sound : k.resources.Sound roots free managed) {stack : Fin maxProcesses}
    (active : k.getActiveStackIndex self.pid = some stack)
    (resources : next.resources = { k.resources with
      alloc := freePageTable self.pctx.ttbr0.toNat k.alloc
      kernelStacks := Function.update k.kernelStacks stack (.queuedToFree self.pid)
      holding := Function.update k.resources.holding self.pid none }) :
    k.resources.Passes next.resources managed := by
  have here := Kernel.getActiveStackIndex_some active
  have live : self.pctx.ttbr0.toNat ∈ roots := sound.assigned.live runs.holding
  -- The tables are freed and the stack is queued, and the process holds neither any more.
  obtain ⟨freed, -, -, accounted, -⟩ := sound.accounted.freeSpace live
  have slots : next.resources.kernelStacks =
      Function.update k.kernelStacks stack (.queuedToFree self.pid) := by rw [resources]
  have holding : next.resources.holding = Function.update k.resources.holding self.pid none := by
    rw [resources]
  have accountedNext : next.resources.Accounted (roots \ {self.pctx.ttbr0.toNat}) (freed ++ free)
      managed := by
    apply accounted.congr
    · rw [resources]
      rfl
    · rw [resources]
    · rw [slots]
      exact stackEntries_used (by simp [here]) (by simp)
  refine .update ⟨_, _, accountedNext, sound.assigned.released runs.holding here slots holding⟩
    holding ?_ ?_ ?_
  · rw [runs.holding]
    exact fun same => nomatch same
  · -- The stacks of the others are as they were.
    intro other slot distinct theirs
    rw [slots, Function.update_of_ne]
    · exact theirs
    · rintro rfl
      have theirs : k.kernelStacks slot = .allocated other := theirs
      rw [here, StackState.allocated.injEq] at theirs
      exact distinct theirs.symm
  · exact fun impossible => nomatch impossible

/-- `fork` gives the child what it is to hold. -/
theorem Kernel.Runs.forked_passes (runs : k.Runs inKernel self)
    (sound : k.resources.Sound roots free managed) {stack : Fin maxProcesses}
    (onTop : k.OnTop self stack) {mid : Kernel} {child : Process}
    (forks : k.forkProcess self = .ok (.ok child, mid))
    (resources : next.resources = { mid.resources with
      holding := Function.update k.resources.holding child.pid (some child.pctx.holding) }) :
    k.resources.Passes next.resources managed := by
  have live : self.pctx.ttbr0.toNat ∈ roots := sound.assigned.live runs.holding
  have pid := (Kernel.forkProcess_ok forks).pid
  have inactive : ∀ other, k.kernelStacks other ≠ .allocated child.pid :=
    runs.child_inactive sound.assigned.slots forks
  obtain ⟨root, copy, used, taken, rest, owns⟩ :=
    Kernel.forkProcess_owns sound.accounted sound.assigned.slots onTop live (pid ▸ inactive) forks
  -- The child gets a new root and a stack that was free.
  obtain ⟨slot, vacant, given, top⟩ := owns.stack
  have slots : next.resources.kernelStacks =
      Function.update k.kernelStacks slot (.allocated child.pid) := by
    rw [resources]
    exact given
  have holding : next.resources.holding =
      Function.update k.resources.holding child.pid (some child.pctx.holding) := by
    rw [resources]
  have newcomer : k.resources.holding child.pid = none := by
    rw [pid]
    exact runs.fresh_holding
  have isRoot : child.pctx.holding.ttbr0.toNat = root := by
    have ttbr0 : child.pctx.ttbr0 = UInt64.ofNat root := congrArg ProcessContext.ttbr0 owns.context
    show child.pctx.ttbr0.toNat = root
    rw [ttbr0]
    have accounted := owns.accounted.owned
    exact accounted.root_fits (Set.mem_insert_of_mem _ (Set.mem_insert _ _))
  have fresh : child.pctx.holding.ttbr0.toNat ∉ roots := by
    rw [isRoot]
    exact fun inside => owns.fresh (Set.mem_insert_of_mem _ inside)
  have accounted : next.resources.Accounted (insert child.pctx.holding.ttbr0.toNat roots) rest
      managed := by
    rw [isRoot]
    apply owns.accounted.congr <;> rw [resources]
  refine .update ⟨_, _, accounted, sound.assigned.added newcomer inactive fresh vacant slots holding⟩
    holding ?_ ?_ ?_
  · rw [newcomer]
    exact fun same => nomatch same
  · -- The slot was free, so nobody else loses it.
    intro other own distinct theirs
    rw [slots, Function.update_of_ne]
    · exact theirs
    · rintro rfl
      have theirs : k.kernelStacks own = .allocated other := theirs
      rw [vacant] at theirs
      cases theirs
  · intro held isHeld
    rw [Option.some.injEq] at isHeld
    subst isHeld
    refine ⟨⟨_, by rw [holding, Function.update_self], rfl⟩, slot, ?_, top⟩
    rw [slots, Function.update_self]

/-- `exec` exchanges what its process holds. -/
theorem Kernel.Runs.executed_passes (runs : k.Runs inKernel self)
    (sound : k.resources.Sound roots free managed) {bytes : List UInt8} {args : List String}
    (loadsFresh : LoadsFresh bytes) {mid : Kernel} {pctx : ProcessContext}
    (executes : k.exec k.currentProcess self bytes args = .ok (.ok (), mid))
    (entry : mid.processTable mid.currentProcess = some { self with pctx })
    (resources : next.resources = mid.resources) : k.resources.Passes next.resources managed := by
  have live : self.pctx.ttbr0.toNat ∈ roots := sound.assigned.live runs.holding
  have holding := runs.executed_holding executes entry
  obtain ⟨root, changed, old, stack, rest, owns, table⟩ :=
    Kernel.exec_owns sound.accounted live loadsFresh executes
  obtain ⟨-, current, -⟩ := Kernel.exec_entry executes
  rw [current, table, put_self, Option.some.injEq, Process.mk.injEq] at entry
  have isPctx : changed = pctx := entry.2.2.2.2.2.1
  subst isPctx
  rw [resources]
  -- In between, the process holds nothing: it has given up the old and not yet got the new.
  have between : Resources.Assigned { k.resources with
      kernelStacks := Function.update k.kernelStacks old (.queuedToFree self.pid)
      holding := Function.update k.resources.holding self.pid none }
      (roots \ {self.pctx.ttbr0.toNat}) :=
    sound.assigned.released runs.holding owns.active rfl rfl
  have inactive : ∀ other, Function.update k.kernelStacks old (.queuedToFree self.pid) other ≠
      .allocated self.pid := by
    intro other here
    rw [Function.update_apply] at here
    split at here
    · cases here
    · rename_i distinct
      exact distinct (sound.assigned.slots.alone here owns.active)
  have fresh : changed.holding.ttbr0.toNat ∉ roots \ {self.pctx.ttbr0.toNat} := by
    have isRoot : changed.holding.ttbr0.toNat = root := owns.ttbr0
    rw [isRoot]
    exact fun inside => owns.fresh (Set.mem_insert_of_mem _ inside.1)
  have accounted : mid.resources.Accounted
      (insert changed.holding.ttbr0.toNat (roots \ {self.pctx.ttbr0.toNat})) rest managed := by
    have isRoot : changed.holding.ttbr0.toNat = root := owns.ttbr0
    rw [isRoot]
    exact owns.accounted
  refine .update ⟨_, _, accounted, between.added ?_ inactive fresh owns.unused owns.kernelStacks ?_⟩
    holding ?_ ?_ ?_
  · exact Function.update_self ..
  · rw [holding, Function.update_idem]
  · -- What the process holds now is new, so it is not what it held before.
    rw [runs.holding]
    intro same
    rw [Option.some.injEq] at same
    have equal : changed.ttbr0 = self.pctx.ttbr0 := congrArg Holding.ttbr0 same
    have isRoot : self.pctx.ttbr0.toNat = root := equal ▸ owns.ttbr0
    exact owns.fresh (Set.mem_insert_of_mem _ (isRoot ▸ live))
  · intro other own distinct theirs
    have theirs : k.kernelStacks own = .allocated other := theirs
    have notOld : own ≠ old := by
      rintro rfl
      rw [owns.active, StackState.allocated.injEq] at theirs
      exact distinct theirs.symm
    -- The new stack was free, so it was nobody's.
    have notNew : own ≠ stack := by
      rintro rfl
      have unused := owns.unused
      rw [Function.update_of_ne notOld, theirs] at unused
      cases unused
    show mid.kernelStacks own = _
    rw [owns.kernelStacks, Function.update_of_ne notNew, Function.update_of_ne notOld, theirs]
  · intro held isHeld
    rw [Option.some.injEq] at isHeld
    subst isHeld
    refine ⟨⟨_, by rw [holding, Function.update_self], rfl⟩, stack, ?_, owns.spEl1⟩
    show mid.kernelStacks stack = _
    rw [owns.kernelStacks, Function.update_self]

/-- A handler keeps that processes own what they hold, if its `exec` does not fail. -/
theorem Kernel.Uses.passes {handled : Handled} (uses : k.Uses files self ctx handled)
    (runs : k.Runs inKernel self) (sound : k.resources.Sound roots free managed)
    {stack : Fin maxProcesses} (onTop : k.OnTop self stack)
    (loadsFresh : ∀ path bytes, files path = some bytes → LoadsFresh bytes)
    (execsWell : k.ExecsWell files self ctx) (goesOn : handled.kernel = some next) :
    k.resources.Passes next.resources managed := by
  -- Three of the uses pass something on. The others change no resource.
  cases uses with
  | stopped unwraps => cases goesOn
  | returned same holding =>
    cases goesOn
    rw [same]
    exact .refl sound
  | scheduling lockHeld same =>
    cases goesOn
    rw [same]
    exact .refl sound
  | inSyscall =>
    cases goesOn
    exact .refl sound
  | exited isExit active resources =>
    cases goesOn
    exact runs.exited_passes sound active resources
  | forked isFork forks vacant next_eq resources =>
    cases goesOn
    exact runs.forked_passes sound onTop forks resources
  | executed isExec reads file executes entry resources =>
    cases goesOn
    exact runs.executed_passes sound (loadsFresh _ _ file) executes entry resources
  | notExecuted isExec reads file fails => exact absurd fails (execsWell isExec reads file)

end Handlers

/-- Each process that is alive owns what it holds, and goes on with it at its next trap. -/
structure Machine.Owns (m : Machine) (roots : Set Nat) (free : List Nat) (managed : Set Nat) :
    Prop where
  sound : m.kernel.resources.Sound roots free managed
  based : ∀ {pid base}, m.base pid = some base → m.kernel.resources.Backs pid base

section Steps

variable {ctx : ExceptionContext} {devices : Devices} {mid : Kernel} {handled : Handled}
  {action : Action}

/-- Entering an exception frees the stacks that other processes have queued, six frames each. -/
theorem Machine.Traps.frees (traps : m.Traps files self ctx devices mid handled)
    (accounted : m.kernel.resources.Accounted roots free managed) :
    ∃ freed, freed.length = 6 * ((List.finRange maxProcesses).filter fun slot =>
        (m.kernel.kernelStacks slot).isFreeable self.pid).length ∧
      mid.resources.Accounted roots (freed ++ free) managed ∧
      Kept m.kernel.alloc.mem mid.alloc.mem roots := by
  obtain ⟨after, freeing, resources⟩ := traps.runs.entered_resources traps.fromUser traps.entry
  obtain ⟨freed, frees⟩ :=
    Kernel.freeQueuedStacks_accounted traps.runs.current accounted freeing
  -- Saving the registers afterwards touches no frame.
  refine ⟨freed, frees.length, ?_, ?_⟩
  · apply frees.accounted.congr <;> rw [resources]
  · rw [show mid.alloc = after.alloc from congrArg Resources.alloc resources]
    exact frees.kept

/-- What the handler of a trap finds: the registers are saved, and queued stacks are freed. -/
theorem Machine.Traps.sound (traps : m.Traps files self ctx devices mid handled)
    (owns : m.Owns roots free managed) :
    ∃ freed, mid.resources.Sound roots (freed ++ free) managed ∧
      ∀ {pid base}, m.kernel.resources.Backs pid base → mid.resources.Backs pid base := by
  -- On entry the queued stacks are freed and the frame is saved, which keeps the tables.
  obtain ⟨slots, -⟩ := traps.runs.entered_stacks traps.fromUser traps.entry
  obtain ⟨freed, -, accounted, -⟩ := traps.frees owns.sound.accounted
  obtain ⟨held, holds, table⟩ := (owns.based traps.base.2).table
  have assigned : Resources.Assigned
      { m.kernel.resources with kernelStacks := mid.kernelStacks } roots :=
    owns.sound.assigned.freed slots rfl
  refine ⟨freed, ⟨accounted, assigned.resaved holds table.symm rfl traps.holding⟩,
    fun {pid base} backs => ?_⟩
  -- Whoever was backed by a stack still is, since only queued stacks are freed.
  refine backs.resaved holds table.symm traps.holding fun slot active => ?_
  show mid.kernelStacks slot = _
  rw [slots]
  exact StackState.allocated_afterFreeing.mpr active

/-- The process that traps is on top of its kernel stack. -/
theorem Machine.Traps.onTop (traps : m.Traps files self ctx devices mid handled)
    (owns : m.Owns roots free managed) :
    ∃ stack, mid.OnTop { self with pctx := .fromEctx ctx } stack := by
  obtain ⟨freed, -, backs⟩ := traps.sound owns
  obtain ⟨slot, active, top⟩ := (backs (owns.based traps.base.2)).stack
  exact ⟨slot, active, top⟩

/-- A trap whose `exec` does not fail keeps that processes own what they hold. -/
theorem Machine.Traps.owns (traps : m.Traps files self ctx devices mid handled)
    (owns : m.Owns roots free managed)
    (loadsFresh : ∀ path bytes, files path = some bytes → LoadsFresh bytes)
    (execsWell : mid.ExecsWell files { self with pctx := .fromEctx ctx } ctx)
    (done : m.after handled = .ok after) : ∃ roots free, after.Owns roots free managed := by
  -- The call starts with what the entry has left.
  obtain ⟨freed, sound, backs⟩ := traps.sound owns
  obtain ⟨stack, onTop⟩ := traps.onTop owns
  have passes := traps.uses.passes traps.entered.runs sound onTop loadsFresh execsWell
    (Machine.after_kernel done)
  obtain ⟨rootsAfter, freeAfter, soundAfter⟩ := passes.sound
  refine ⟨rootsAfter, freeAfter, soundAfter, fun {pid base} goesOn => passes.backs ?_⟩
  rw [traps.base_after execsWell done] at goesOn
  -- Whose holding has changed gets a new base, and everybody else keeps the old one.
  split
  · rename_i same
    rw [if_pos same] at goesOn
    exact backs (owns.based goesOn)
  · rename_i changed
    rwa [if_neg changed] at goesOn

/-- A byte of a page that is mapped may change. -/
theorem Resources.Accounted.stored (accounted : k.resources.Accounted roots free managed)
    {root : Nat} (live : root ∈ insert k.kernelL1 roots) (va : Nat) (byte : UInt8) :
    ({ k.resources with alloc := (k.storeByte root va byte).alloc } : Resources).Accounted
      roots free managed := by
  unfold Kernel.storeByte
  -- A store that finds no page changes nothing.
  cases found : ttbr0ToPa k.alloc.mem va root with
  | none => exact accounted
  | some pa =>
    obtain ⟨leaf, mapped, rfl⟩ := ttbr0ToPa_eq_some.mp found
    have ownedAll : Owned k.alloc (insert k.kernelL1 roots) free managed := accounted.owned
    have same : ∀ address ∉ frame leaf,
        Function.update k.alloc.mem (leaf + va % 4096) byte address = k.alloc.mem address := by
      intro address outside
      rw [Function.update_of_ne]
      rintro rfl
      apply outside
      simp only [frame, block, Set.mem_Ico]
      omega
    -- The byte lies in a page, so neither the tables nor the free frames change.
    obtain ⟨written, kept⟩ := ownedAll.write_leaf live (pagePath_length va) mapped same
    obtain ⟨table, there⟩ := accounted.table
    refine ⟨written, accounted.apart, table, there.congr fun node inTree => ?_⟩
    refine kept node (ownedAll.node_managed accounted.live (tables_subset_nodes _ inTree)) ?_
    rintro rfl
    exact ownedAll.separate.leaf_not_table live accounted.live (pagePath_length va) mapped inTree

/-- A step that is no trap keeps that processes own what they hold. -/
theorem Machine.Rests.owns (rests : m.Rests after) (base : after.base = m.base)
    (owns : m.Owns roots free managed) : after.Owns roots free managed := by
  -- Each of these steps changes the holdings or the memory, and not both.
  cases rests with
  | same resources =>
    constructor
    · rw [resources]
      exact owns.sound
    · rw [resources, base]
      exact owns.based
  -- The process that saves a frame has the same tables in it.
  | @saved pid saved goesOn resources =>
    obtain ⟨old, goesOn, table⟩ := goesOn
    obtain ⟨held, holds, same⟩ := (owns.based goesOn).table
    rw [← table] at same
    constructor
    · rw [resources]
      refine ⟨?_, owns.sound.assigned.resaved holds same.symm rfl rfl⟩
      exact owns.sound.accounted.congr rfl rfl rfl
    · rw [resources, base]
      exact fun {other now} goes =>
        (owns.based goes).resaved holds same.symm rfl fun slot active => active
  | @stored root va byte owner resources =>
    -- The store goes through the kernel's root or through that of a process.
    have live : root ∈ insert m.kernel.kernelL1 roots := by
      rcases owner with rfl | ⟨pid, now, goesOn, rfl⟩
      · exact Set.mem_insert _ _
      · obtain ⟨held, holds, same⟩ := (owns.based goesOn).table
        exact Set.mem_insert_of_mem _ (same ▸ owns.sound.assigned.live holds)
    constructor
    · rw [resources]
      exact ⟨owns.sound.accounted.stored live va byte, owns.sound.assigned.congr rfl rfl⟩
    · rw [resources, base]
      exact fun {other now} goes => (owns.based goes).congr rfl fun slot active => active

end Steps

end AtOS
