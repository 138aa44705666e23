import AtOS.Resources.Crowding

/-! A process whose `exec` failed late keeps a page table that a later fork gives to a child. -/

namespace AtOS

open ByteMemory RadixForest SlotTable

variable {files : String → Option (List UInt8)} {m : Machine} {mid : Kernel} {self : Process}
  {ctx frame : ExceptionContext} {devices : Devices} {handled : Handled} {pid : UInt64}
  {stale : Nat} {roots : Set Nat} {rest : List Nat} {managed : Set Nat}

section Dangling

/-- The root of a page table that was freed is the first frame to be handed out. -/
theorem Owned.freePageTable_head {alloc : PageAllocator} {root : Nat} {free : List Nat}
    (owned : Owned (freePageTable root alloc) roots free managed) (isFrame : IsFrame root) :
    ∃ rest, free = root :: rest := by
  -- The root is freed last, so its address is in the head of the list.
  have chain := owned.chain
  rw [freePageTable, doFreeTableRecursive, addFreeFrame_eq _ isFrame] at chain
  cases free with
  | nil => exact absurd chain.1 Nat.one_ne_zero
  | cons pa rest =>
    obtain ⟨link, -⟩ := chain
    have same : ttbr1ToVa root = ttbr1ToVa pa := congrArg FreeLink.ptr link
    have small := (owned.free_frame (List.mem_cons_self ..)).2
    have back := congrArg ttbr1ToPa same
    rw [ttbr1ToPa_ttbr1ToVa isFrame.2, ttbr1ToPa_ttbr1ToVa small] at back
    exact ⟨rest, by rw [back]⟩

/-- A list that runs past the end of a prefix has the element that follows the prefix. -/
theorem mem_of_append_eq {Value : Type} {before after front back : List Value} {value : Value}
    (same : before ++ value :: after = front ++ back) (longer : before.length < front.length) :
    value ∈ front := by
  -- Both lists are read at the place behind the prefix.
  have here := congrArg (·[before.length]?) same
  simp only [List.getElem?_append_right le_rfl, Nat.sub_self, List.getElem?_cons_zero,
    List.getElem?_append_left longer] at here
  exact List.mem_of_getElem? here.symm

/-- One process goes on with a page table that is free; everybody else owns what it holds. -/
structure Resources.Stale (r : Resources) (pid : UInt64) (stale : Nat) (roots : Set Nat)
    (rest : List Nat) (managed : Set Nat) : Prop where
  accounted : r.Accounted roots (stale :: rest) managed
  slots : r.SlotsOwned
  enough : 52 ≤ (stale :: rest).length
  dangling : ∃ held, r.holding pid = some held ∧ held.ttbr0.toNat = stale
  /-- It has queued a stack or two, and nobody else has. -/
  queued : ∃ first second, r.kernelStacks first = .queuedToFree pid ∧
    ∀ slot owner, r.kernelStacks slot = .queuedToFree owner →
      owner = pid ∧ (slot = first ∨ slot = second)
  others : ∀ {other held}, other ≠ pid → r.holding other = some held →
    held.ttbr0.toNat ∈ roots ∧ MidSized r.alloc.mem held.ttbr0.toNat ∧ r.Backs other held

/-- A trap of that process frees nothing. -/
theorem Machine.Traps.stays_stale (traps : m.Traps files self ctx devices mid handled)
    (dangles : m.kernel.resources.Stale self.pid stale roots rest managed)
    (table : ctx.ttbr0.toNat = stale) : mid.resources.Stale self.pid stale roots rest managed := by
  obtain ⟨first, second, queued, only⟩ := dangles.queued
  obtain ⟨slots, alive⟩ := traps.runs.entered_stacks traps.fromUser traps.entry
  -- All that is queued was queued by the process itself, so it stays.
  have sameStacks : mid.kernelStacks = m.kernel.kernelStacks := by
    rw [slots]
    exact funext fun slot => StackState.afterFreeing_mine fun owner here => (only slot owner here).1
  have none : ((List.finRange maxProcesses).filter fun slot =>
      (m.kernel.kernelStacks slot).isFreeable self.pid) = [] := by
    rw [List.filter_eq_nil_iff]
    intro slot _ freeable
    obtain ⟨owner, here, distinct⟩ := StackState.isFreeable_iff.mp freeable
    exact distinct (only slot owner here).1
  obtain ⟨freed, length, accounted, kept⟩ := traps.frees dangles.accounted
  rw [none] at length
  obtain rfl := List.eq_nil_of_length_eq_zero length
  refine ⟨accounted, dangles.slots.freed slots alive, dangles.enough, ?_, ⟨first, second, ?_⟩, ?_⟩
  · -- The registers that are saved name the same root.
    refine ⟨ctx.holding, ?_, table⟩
    rw [traps.holding, Function.update_self]
  · show mid.kernelStacks first = _ ∧ ∀ slot owner, mid.kernelStacks slot = _ → _
    rw [sameStacks]
    exact ⟨queued, only⟩
  · -- Nobody else is concerned.
    intro other held distinct holds
    rw [traps.holding, Function.update_of_ne distinct] at holds
    obtain ⟨live, sized, backs⟩ := dangles.others distinct holds
    refine ⟨live, sized.congr (congrArg Set.ncard (kept.nodes live)), backs.congr ?_ ?_⟩
    · rw [traps.holding, Function.update_of_ne distinct]
    · intro slot active
      show mid.kernelStacks slot = _
      rw [sameStacks]
      exact active

end Dangling

section Failing

/-- One process goes on with a page table that is free, and another one can still fork. -/
structure Machine.Stale (m : Machine) (pid : UInt64) (stale : Nat) : Prop where
  resources : ∃ roots rest managed, m.kernel.resources.Stale pid stale roots rest managed
  vacant : m.kernel.vacantSlots.Nonempty
  room : m.kernel.nextPid.toNat + 1 < 2 ^ 64
  awake : m.suspended = fun _ => none

/-- An `exec` that has given up everything leaves its process with a page table that is free. -/
theorem Kernel.ExecGivenUp.goesStale {k : Kernel} {bytes : List UInt8} {header : Elf64Hdr}
    {free left : List Nat} {root : Nat} {alloc : PageAllocator} {active old : Fin maxProcesses}
    (given : k.ExecGivenUp self bytes header roots managed root alloc (k.givenUp self active alloc)
      left)
    (sound : k.resources.Sound roots free managed) (onTop : k.OnTop self active)
    (holding : k.resources.holding self.pid = some self.pctx.holding) (enough : 52 ≤ left.length)
    (only : ∀ slot owner, k.kernelStacks slot = .queuedToFree owner → slot = old ∧ owner = self.pid)
    (others : ∀ {other held}, other ≠ self.pid → k.resources.holding other = some held →
      MidSized k.alloc.mem held.ttbr0.toNat ∧ k.resources.Backs other held) :
    ∃ rest, (k.givenUp self active alloc).resources.Stale self.pid self.pctx.ttbr0.toNat
      (insert root (roots \ {self.pctx.ttbr0.toNat})) rest managed := by
  have live : self.pctx.ttbr0.toNat ∈ roots := sound.assigned.live holding
  have isFrame : IsFrame self.pctx.ttbr0.toNat :=
    sound.accounted.owned.node_frame (Set.mem_insert_of_mem _ live) (root_mem_nodes _)
  -- The old root is the first frame of the free list, and the process still names it.
  have owned : Owned (freePageTable self.pctx.ttbr0.toNat alloc) _ left managed :=
    given.accounted.owned
  obtain ⟨rest, rfl⟩ := owned.freePageTable_head isFrame
  have slots : (k.givenUp self active alloc).resources.kernelStacks =
      Function.update k.kernelStacks active (.queuedToFree self.pid) := rfl
  refine ⟨rest, given.accounted, ?_, enough, ⟨_, holding, rfl⟩, ⟨active, old, ?_⟩, ?_⟩
  · exact sound.assigned.slots.queued onTop.allocated rfl fun owner _ alive => alive
  · rw [slots]
    refine ⟨Function.update_self .., fun slot owner queued => ?_⟩
    rw [Function.update_apply] at queued
    split at queued
    · cases queued
      exact ⟨rfl, Or.inl ‹_›⟩
    · obtain ⟨isOld, mine⟩ := only slot owner queued
      exact ⟨mine, Or.inr isOld⟩
  · -- The others have their own tables still, and they are not those that were freed.
    intro other held distinct holds
    have holds : k.resources.holding other = some held := holds
    obtain ⟨sized, backs⟩ := others distinct holds
    have otherLive := sound.assigned.live holds
    have apart : held.ttbr0.toNat ≠ self.pctx.ttbr0.toNat := fun equal =>
      distinct (sound.assigned.alone holds holding (UInt64.toNat_inj.mp equal))
    have kept := given.kept.nodes ⟨otherLive, apart⟩
    refine ⟨Set.mem_insert_of_mem _ ⟨otherLive, apart⟩, sized.congr (congrArg Set.ncard kept),
      backs.congr rfl fun slot theirs => ?_⟩
    rw [slots, Function.update_of_ne]
    · exact theirs
    · rintro rfl
      have mine : k.resources.kernelStacks slot = .allocated self.pid := onTop.allocated
      rw [mine, StackState.allocated.injEq] at theirs
      exact distinct theirs.symm

/-- With no kernel stack left, an `exec` of the small program fails when its tables are free. -/
theorem Machine.Jammed.goesStale (jammed : m.Jammed frame self) (valid : m.Valid) :
    ∃ next context changed,
      m.Step wordsFiles (.trap (frame.rerunning 1) ⟨false, false, false⟩) (.ok next) ∧
        m.Replaced next self changed ∧ next.control = .user context ∧
        next.Stale self.pid context.ttbr0.toNat := by
  obtain ⟨process, mid, traps, step, reads, bound, size⟩ :=
    jammed.small.asksAgain valid (by decide : 0 < 1) (by decide) ⟨false, false, false⟩
  have same : m.kernel.getCurrentProcess = some process := traps.runs.current
  rw [jammed.current, Option.some.injEq] at same
  subst same
  obtain ⟨roots, free, managed, owns⟩ := jammed.small.owns
  obtain ⟨freed, sound, backs⟩ := traps.sound owns
  obtain ⟨active, onTop⟩ := traps.onTop owns
  obtain ⟨entering, -⟩ := traps.kept owns
  have live : frame.ttbr0.toNat ∈ roots := traps.live owns
  obtain ⟨old, only⟩ := jammed.queued
  -- The only stack that is queued was queued by the process itself, so it is not freed.
  have sameStacks : mid.kernelStacks = m.kernel.kernelStacks := by
    rw [(traps.runs.entered_stacks traps.fromUser traps.entry).1]
    exact funext fun slot => StackState.afterFreeing_mine fun owner here => (only slot owner here).2
  -- So the file is loaded, and everything is given up, before a stack is missing.
  obtain ⟨root, alloc, left, given⟩ :=
    @Kernel.exec_givenUp mid { self with pctx := .fromEctx (frame.rerunning 1) } _ _ _ _ _ _
      sound.accounted sound.assigned.slots onTop.allocated live wordsElf_wellFormed
      wordsElf_contained wordsElf_loads (by rw [wordsElf_framesNeeded]; omega)
  have fewer := given.size
  have count : left.length + (nodes (child _) 3 root).ncard = mid.alloc.freeFrameCount +
    (nodes (child mid.alloc.mem) 3 frame.ttbr0.toNat).ncard := given.count
  rw [wordsElf_framesNeeded] at fewer
  obtain ⟨error, fails⟩ := given.exec_error (sound.assigned.slots.active onTop.allocated)
    (fun slot => sameStacks ▸ jammed.full slot) (by omega)
  have current : mid.getCurrentProcess =
      some { self with pctx := .fromEctx (frame.rerunning 1) } := traps.entered.runs.current
  have file : wordsFiles ([wordsArg].headD "") = some wordsElf := rfl
  have readsArgs : readExecArgs (mid.loadByte (frame.rerunning 1).ttbr0)
      ((frame.rerunning 1).x.get 0) ((frame.rerunning 1).x.get 1) ((frame.rerunning 1).x.get 2) =
      .ok [wordsArg] := reads
  have failed := Kernel.sysExec_failed current readsArgs file (fails _ _)
  rw [failed] at step
  obtain ⟨changed, replaced⟩ := valid.replaces jammed.small.running jammed.current
    (frame.isSyscall_calling 5 (by decide) (argumentRegisters 0x100 0x100 (UInt64.ofNat 1)))
    rfl rfl rfl step
  refine ⟨_, _, changed, step, replaced, rfl, ?_, ?_, ?_, replaced.suspended.trans jammed.awake⟩
  · have holding : mid.resources.holding self.pid = some (frame.rerunning 1).holding := by
      rw [traps.holding, Function.update_self]
    -- The others do not run, so their tables and stacks are those in their entries.
    have others : ∀ {other held}, other ≠ self.pid → mid.resources.holding other = some held →
        MidSized mid.alloc.mem held.ttbr0.toNat ∧ mid.resources.Backs other held := by
      intro other held distinct holds
      have otherLive := sound.assigned.live holds
      rw [traps.holding, Function.update_of_ne distinct] at holds
      obtain ⟨process, there, isHeld⟩ := Option.bind_eq_some_iff.mp holds
      obtain ⟨alive, rfl⟩ := Process.alive_of_holding isHeld
      obtain ⟨-, sized⟩ := jammed.others other process there distinct
      have idle : m.running ≠ some other := by
        rw [traps.base.1]
        exact fun same => distinct (Option.some.inj same).symm
      exact ⟨sized.congr (congrArg Set.ncard (entering.nodes otherLive)),
        backs (owns.based (Machine.entries_base there alive idle jammed.awake))⟩
    obtain ⟨rest, dangles⟩ := given.goesStale sound onTop holding (by omega)
      (fun slot owner => sameStacks ▸ only slot owner) others
    exact ⟨_, rest, managed, dangles⟩
  · rw [replaced.vacant]
    exact jammed.vacant
  · rw [replaced.nextPid]
    exact jammed.room

/-- The time slice of the process may end before it has touched its tables. -/
theorem Machine.Stale.usesUp (dangles : m.Stale self.pid frame.ttbr0.toNat) (valid : m.Valid)
    (running : m.control = .user frame) (current : m.kernel.getCurrentProcess = some self)
    (files : String → Option (List UInt8)) :
    ∃ next changed, m.Step files (.trap frame.interrupted ⟨false, true, false⟩) (.ok next) ∧
      next.Stale self.pid frame.ttbr0.toNat ∧ m.Replaced next self changed ∧
      ∃ context, next.control = .scheduling context false := by
  have fromUser : wasFromUserEl0 frame.interrupted = true := rfl
  obtain ⟨process, mid, traps, step⟩ :=
    valid.traps running fromUser rfl rfl files ⟨false, true, false⟩
  have same : m.kernel.getCurrentProcess = some process := traps.runs.current
  rw [current, Option.some.injEq] at same
  subst same
  have runs := traps.entered.runs
  obtain ⟨saved, slot, nextPid⟩ := traps.runs.entered_quiet traps.fromUser rfl traps.entry
  rw [Kernel.entered_irq rfl files traps.entry] at step
  -- With its slice over, the process is ready.
  have ends : mid.handleIrqException true false frame.interrupted = .scheduling
      (mid.setEntry mid.currentProcess
        (some { self with pctx := .fromEctx frame.interrupted, state := .ready }))
      frame.interrupted false := by
    unfold Kernel.handleIrqException Kernel.timesliceUp
    rw [runs.current]
    rfl
  rw [ends] at step
  have resources := @Kernel.resources_setEntry mid runs.distinct mid.currentProcess _
    { self with pctx := .fromEctx frame.interrupted, state := .ready } runs.current rfl (by
      simp [Process.holding, traps.runs.state])
  obtain ⟨roots, rest, managed, own⟩ := dangles.resources
  have vacant : (mid.setEntry mid.currentProcess (some
      { self with pctx := .fromEctx frame.interrupted, state := .ready })).vacantSlots =
      m.kernel.vacantSlots :=
    (Kernel.vacantSlots_replaced runs.current rfl).trans
      (Kernel.vacantSlots_replaced traps.runs.current saved)
  refine ⟨_, { self with pctx := .fromEctx frame.interrupted, state := .ready }, step,
    ⟨⟨roots, rest, managed, ?_⟩, ?_, ?_, dangles.awake⟩,
    ⟨rfl, put_self .., ?_, vacant, nextPid, rfl⟩, _, rfl⟩
  · rw [resources]
    exact traps.stays_stale own rfl
  · rw [vacant]
    exact dangles.vacant
  · exact nextPid ▸ dangles.room
  · -- The entry is saved first, and then put aside.
    have entries := (@Distinct.put_same _ mid.currentProcess runs.distinct _
      { self with pctx := .fromEctx frame.interrupted, state := .ready } runs.current rfl).2
    have found := (traps.runs.distinct.put_same traps.runs.current
      (show Process.pid { self with pctx := .fromEctx frame.interrupted } = self.pid from rfl)).2
    show entriesOf (put mid.processTable mid.currentProcess _) = _
    rw [entries, saved, found]
    exact Function.update_idem ..

/-- While another process is ready, the scheduler takes up another one than the last. -/
theorem Machine.Stale.schedules {lockHeld : Bool} {ready last : Process}
    (dangles : m.Stale last.pid stale) (valid : m.Valid)
    (looping : m.control = .scheduling frame lockHeld)
    (current : m.kernel.getCurrentProcess = some last)
    (there : m.entries pid = some ready) (isReady : ready.state = .ready) (other : pid ≠ last.pid)
    (files : String → Option (List UInt8)) :
    ∃ next context self, m.Step files (.schedule false) (.ok next) ∧
      next.Stale last.pid stale ∧ next.control = .user context ∧
      next.kernel.getCurrentProcess = some self ∧ self.pid ≠ last.pid ∧
      context.holding = self.pctx.holding := by
  have distinct := valid.distinct
  obtain ⟨slot, inSlot, rfl⟩ := slot_of_entriesOf there
  obtain ⟨found, second, here, secondReady, fair, step⟩ :=
    @Machine.Valid.schedules_ready files m ready frame lockHeld valid looping slot inSlot isReady
  have resources := Machine.loaded_resources distinct here secondReady frame
  have control : (m.loaded found second frame).control =
      .user (frame.updateFromPctx second.pctx) := by
    unfold Machine.loaded
    dsimp only
    rw [congrFun dangles.awake]
  obtain ⟨roots, rest, managed, own⟩ := dangles.resources
  refine ⟨_, _, { second with state := .running }, step, ⟨⟨roots, rest, managed, ?_⟩, ?_,
    dangles.room, ?_⟩, control, put_self .., ?_, rfl⟩
  · rw [resources]
    exact own
  · have vacant : (m.loaded found second frame).kernel.vacantSlots = m.kernel.vacantSlots :=
      Kernel.vacantSlots_replaced here rfl
    rw [vacant]
    exact dangles.vacant
  · -- Nobody had been suspended, so nobody is now.
    funext owner
    show Function.update m.suspended second.pid none owner = none
    rw [Function.update_apply, congrFun dangles.awake, ite_self]
  · -- The last process is taken up only if the ready one is the last.
    intro same
    have isLast := fair (distinct.slot_eq here current same)
    rw [isLast] at inSlot
    have equal : some ready = some last := inSlot.symm.trans current
    exact other (congrArg Process.pid (Option.some.inj equal))

end Failing

section Overlap

/-- A trap of another process frees two stacks at most, in front of the stale root. -/
theorem Machine.Traps.frees_stale (traps : m.Traps files self ctx devices mid handled)
    (dangles : m.kernel.resources.Stale pid stale roots rest managed) (other : self.pid ≠ pid) :
    ∃ freed, freed.length ≤ 12 ∧ mid.resources.Accounted roots (freed ++ stale :: rest) managed ∧
      Kept m.kernel.alloc.mem mid.alloc.mem roots ∧ mid.resources.SlotsOwned ∧
      ∃ slot, mid.kernelStacks slot = .free := by
  obtain ⟨first, second, queued, only⟩ := dangles.queued
  obtain ⟨slots, alive⟩ := traps.runs.entered_stacks traps.fromUser traps.entry
  obtain ⟨freed, length, accounted, kept⟩ := traps.frees dangles.accounted
  -- Only the two stacks of the process with the stale root can be freed.
  have few : ((List.finRange maxProcesses).filter fun slot =>
      (m.kernel.kernelStacks slot).isFreeable self.pid).length ≤ [first, second].length := by
    refine ((List.nodup_finRange _).filter _).subperm ?_ |>.length_le
    intro slot freeable
    obtain ⟨owner, here, -⟩ := StackState.isFreeable_iff.mp (List.mem_filter.mp freeable).2
    simpa using (only slot owner here).2
  refine ⟨freed, ?_, accounted, kept, dangles.slots.freed slots alive, first, ?_⟩
  · simp only [List.length_cons, List.length_nil] at few
    omega
  · have here : m.kernel.kernelStacks first = .queuedToFree pid := queued
    rw [slots]
    dsimp only
    rw [here]
    exact if_neg fun same => other same.symm

/-- A fork of another process makes the stale root a frame of the child. -/
theorem Machine.Traps.forks_stale (traps : m.Traps files self ctx devices mid handled)
    (dangles : m.kernel.resources.Stale pid stale roots rest managed) (other : self.pid ≠ pid)
    (holding : m.kernel.resources.holding self.pid = some ctx.holding)
    (room : mid.nextPid.toNat + 1 < 2 ^ 64) :
    ∃ made after, mid.forkProcess { self with pctx := .fromEctx ctx } = .ok (.ok made, after) ∧
      stale ∈ nodes (child after.alloc.mem) 3 made.pctx.ttbr0.toNat := by
  obtain ⟨freed, few, accounted, kept, slotsOwned, vacant⟩ := traps.frees_stale dangles other
  obtain ⟨live, ⟨least, most⟩, backs⟩ := dangles.others other holding
  have live : ctx.ttbr0.toNat ∈ roots := live
  have sameNodes : nodes (child mid.alloc.mem) 3 ctx.ttbr0.toNat =
      nodes (child m.kernel.alloc.mem) 3 ctx.ttbr0.toNat := kept.nodes live
  have least : 13 ≤ (nodes (child mid.alloc.mem) 3 ctx.ttbr0.toNat).ncard := sameNodes ▸ least
  have most : (nodes (child mid.alloc.mem) 3 ctx.ttbr0.toNat).ncard ≤ 46 := sameNodes ▸ most
  -- The parent is on top of its stack, and there is enough for a child.
  obtain ⟨slot, active, top⟩ := backs.stack
  have onTop : mid.OnTop { self with pctx := .fromEctx ctx } slot := by
    refine ⟨?_, top⟩
    rw [(traps.runs.entered_stacks traps.fromUser traps.entry).1]
    exact StackState.allocated_afterFreeing.mpr active
  have inactive : ∀ stack, mid.kernelStacks stack ≠ .allocated mid.nextPid := by
    intro stack here
    have alive := slotsOwned.alive here
    rw [traps.entered.runs.fresh_holding] at alive
    cases alive
  have owned : Owned mid.alloc (insert mid.kernelL1 roots) (freed ++ stale :: rest) managed :=
    accounted.owned
  have count : mid.alloc.freeFrameCount = (freed ++ stale :: rest).length := owned.count
  have enough := dangles.enough
  obtain ⟨made, after, forks⟩ :=
    (Kernel.forkProcess_iff accounted slotsOwned onTop live inactive).mpr
      ⟨by
        show (nodes (child mid.alloc.mem) 3 ctx.ttbr0.toNat).ncard + 6 ≤ _
        rw [count, List.length_append]
        omega, vacant, room⟩
  refine ⟨made, after, forks, ?_⟩
  obtain ⟨root, copy, used, taken, left, owns⟩ :=
    Kernel.forkProcess_owns accounted slotsOwned onTop live inactive forks
  -- The child has thirteen frames at least, and those come first in the free list.
  have size := owns.space.length owned (Set.mem_insert_of_mem _ live)
  have inside : stale ∈ root :: used := by
    refine mem_of_append_eq owns.space.free_eq (lt_of_le_of_lt few ?_)
    rw [size]
    exact least
  have isRoot : made.pctx.ttbr0.toNat = root := by
    have ownedCopy := owns.space.owned
    rw [show made.pctx.ttbr0 = UInt64.ofNat root from congrArg ProcessContext.ttbr0 owns.context]
    exact ownedCopy.root_fits (Set.mem_insert _ _)
  rw [isRoot]
  exact (owns.nodes_iff owned).mpr inside

/-- A child whose address space has the root of another process that is alive. -/
structure Kernel.Overlaps (before after : Kernel) (slot : Fin maxProcesses) (made : Process)
    (pid : UInt64) : Prop where
  vacant : before.processTable slot = none
  table : after.processTable = put before.processTable slot (some made)
  victim : ∃ place other, after.processTable place = some other ∧ other.pid = pid ∧
    other.state ≠ .terminated ∧ other.pid ≠ made.pid ∧
    other.pctx.ttbr0.toNat ∈ nodes (child after.alloc.mem) 3 made.pctx.ttbr0.toNat

/-- The other process can fork, and its child gets the stale root. -/
theorem Machine.Stale.overlaps (dangles : m.Stale pid stale) (valid : m.Valid)
    (running : m.control = .user frame) (current : m.kernel.getCurrentProcess = some self)
    (other : self.pid ≠ pid) (holding : frame.holding = self.pctx.holding)
    (files : String → Option (List UInt8)) :
    ∃ mid next context slot made,
      m.kernel.entered ⟨false, false, false⟩ (frame.calling 4 frame.x) = .ok mid ∧
      m.kernel.handleExceptionEl1 files ⟨false, false, false⟩ (frame.calling 4 frame.x) =
        .returned next context ∧ mid.Overlaps next slot made pid := by
  have isFork := frame.isSyscall_calling 4 (by decide) frame.x
  obtain ⟨process, mid, traps, handles, -⟩ :=
    valid.calls running isFork rfl rfl files ⟨false, false, false⟩
  have same : m.kernel.getCurrentProcess = some process := traps.runs.current
  rw [current, Option.some.injEq] at same
  subst same
  have runs := traps.entered.runs
  obtain ⟨roots, rest, managed, own⟩ := dangles.resources
  obtain ⟨saved, slot, nextPid⟩ := traps.runs.entered_quiet traps.fromUser rfl traps.entry
  -- The process has not run since its registers were loaded, so it holds what its entry says.
  have holds : m.kernel.resources.holding self.pid =
      some (frame.calling 4 frame.x).holding := by
    rw [traps.runs.holding, ← holding]
    rfl
  obtain ⟨made, after, forks, inside⟩ := traps.forks_stale own other holds (nextPid ▸ dangles.room)
  obtain ⟨empty, isVacant⟩ := dangles.vacant
  rw [← Kernel.vacantSlots_replaced traps.runs.current saved, Kernel.mem_vacantSlots] at isVacant
  have sysFork : mid.handleSyscall files (frame.calling 4 frame.x) =
      mid.sysFork (frame.calling 4 frame.x) := by
    rw [Kernel.handleSyscall, isFork.immediate]
    rfl
  -- So the call returns, with the child in an empty slot.
  rcases runs.sysFork_cases (frame.calling 4 frame.x) with
    ⟨stop, stopped, -⟩ | ⟨child, last, place, again, forked, found, returned⟩
  · exact absurd stopped (runs.sysFork_returns forks isVacant stop)
  rw [forks, Except.ok.injEq, Prod.mk.injEq, Except.ok.injEq] at again
  obtain ⟨rfl, rfl⟩ := again
  obtain ⟨_, _, sameKernel⟩ := forked.same
  have table : after.processTable = mid.processTable := by rw [sameKernel]
  have unused := firstFree_some found
  refine ⟨mid, _, _, place, { made with pctx := made.pctx.setX 0 0 }, traps.entry,
    handles.trans (sysFork.trans returned), ⟨unused, ?_, ?_⟩⟩
  · show put after.processTable place _ = _
    rw [table]
  · -- The process with the stale root is still in the table.
    obtain ⟨held, holdsStale, isStale⟩ := own.dangling
    have holdsMid : mid.resources.holding pid = some held := by
      rw [traps.holding, Function.update_of_ne (Ne.symm other)]
      exact holdsStale
    obtain ⟨where_, victim, there, samePid, alive, isHeld⟩ := Kernel.slot_of_holding holdsMid
    have apart : where_ ≠ place := by
      rintro rfl
      rw [there] at unused
      cases unused
    have root : victim.pctx.ttbr0.toNat = stale := by
      rw [← isStale, ← isHeld]
      rfl
    refine ⟨where_, victim, ?_, samePid, alive, ?_, ?_⟩
    · show put after.processTable place _ where_ = _
      rw [table, put_of_ne _ _ _ apart]
      exact there
    · -- The child has a pid that is in no slot.
      intro same
      have here := runs.distinct.entriesOf_slot there
      have samePid : victim.pid = mid.nextPid := same.trans forked.pid
      rw [samePid, runs.fresh] at here
      cases here
    · rw [root]
      exact inside

/-- A child that overlaps with another process is no independent copy. -/
theorem Kernel.Overlaps.not_forkedFrom {before after found : Kernel} {slot : Fin maxProcesses}
    {made : Process} (overlaps : before.Overlaps after slot made pid) {place : Fin maxProcesses}
    {copy parent : Process} (vacant : before.processTable place = none)
    (table : after.processTable = put before.processTable place (some copy)) :
    ¬ copy.ForkedFrom parent found before after ctx := by
  intro copies
  -- There is only one new entry, so both are about the same child.
  have here := congrFun (overlaps.table.symm.trans table) place
  rw [put_self] at here
  have same : place = slot ∧ made = copy := by
    rcases (put_eq_some _ _ _).mp here with ⟨isSlot, isMade⟩ | ⟨-, there⟩
    · exact ⟨isSlot, Option.some.inj isMade⟩
    · rw [vacant] at there
      cases there
  obtain ⟨rfl, rfl⟩ := same
  -- The root of the other process would have to be apart from the child's frames.
  obtain ⟨elsewhere, other, there, -, alive, distinct, inside⟩ := overlaps.victim
  exact Set.disjoint_left.mp (copies.apart elsewhere other there alive distinct) (root_mem_nodes _)
    inside

/--
After an `exec` that failed for want of a kernel stack, a fork of another process shares a table.

The process whose `exec` failed is interrupted before it has run on, and another one is scheduled.
-/
theorem staleRoot_counterexample : ∃ (m : Machine) (frame context : ExceptionContext)
    (mid next : Kernel) (slot : Fin maxProcesses) (made : Process) (pid : UInt64),
    m.Reachable wordsFiles ∧ m.control = .user frame ∧ (frame.calling 4 frame.x).IsSyscall 4 ∧
      m.kernel.entered ⟨false, false, false⟩ (frame.calling 4 frame.x) = .ok mid ∧
      m.kernel.handleExceptionEl1 wordsFiles ⟨false, false, false⟩ (frame.calling 4 frame.x) =
        .returned next context ∧
      mid.Overlaps next slot made pid ∧
      ¬ ∃ self slot child, m.kernel.getCurrentProcess = some self ∧ mid.processTable slot = none ∧
        next.processTable = put mid.processTable slot (some child) ∧
        context = (frame.calling 4 frame.x).setX 0 child.pid ∧
        child.ForkedFrom { self with pctx := .fromEctx (frame.calling 4 frame.x) } m.kernel mid next
          (frame.calling 4 frame.x) := by
  obtain ⟨jammed, frame, self, reached, jam⟩ := wordsStart_jammed
  -- The next `exec` fails, and the process goes on with tables that are free.
  obtain ⟨failed, context, changed, fails, replaced, running, dangles⟩ :=
    jam.goesStale reached.valid
  have reachedFailed := reached.step fails
  have samePid := replaced.pid
  rw [← samePid] at dangles
  -- Its time slice ends at once.
  obtain ⟨ended, last, ends, danglesEnded, left, loop, looping⟩ :=
    dangles.usesUp reachedFailed.valid running replaced.current wordsFiles
  have reachedEnded := reachedFailed.step ends
  -- Another process is ready since it was made, so it is another one that runs then.
  obtain ⟨pid, other, there, apart⟩ := jam.accompanied
  obtain ⟨ready, -⟩ := jam.others pid other there apart
  have notChanged : pid ≠ changed.pid := samePid ▸ apart
  have still : ended.entries pid = some other := by
    rw [left.entries, Function.update_of_ne notChanged, replaced.entries,
      Function.update_of_ne apart]
    exact there
  rw [← left.pid] at danglesEnded notChanged
  obtain ⟨m, frameOther, runner, schedules, danglesOther, runs, current, distinct, holding⟩ :=
    danglesEnded.schedules reachedEnded.valid looping left.current still ready notChanged wordsFiles
  have reachedOther := reachedEnded.step schedules
  -- It forks, and the child overlaps with the process that it has replaced.
  obtain ⟨mid, next, contextFork, slot, made, entry, handles, overlaps⟩ :=
    danglesOther.overlaps reachedOther.valid runs current distinct holding wordsFiles
  refine ⟨m, frameOther, contextFork, mid, next, slot, made, last.pid, reachedOther, runs,
    frameOther.isSyscall_calling 4 (by decide) frameOther.x, entry, handles, overlaps, ?_⟩
  rintro ⟨self, place, copy, -, vacant, table, -, copies⟩
  exact overlaps.not_forkedFrom vacant table copies

end Overlap

end AtOS
