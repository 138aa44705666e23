import Mathlib.Data.Fintype.Card
import AtOS.Resources.Reclaiming
import AtOS.Resources.Rerunning

/-! How many kernel stacks are in use, and when `alloc_stack` can find none that is free. -/

namespace AtOS

open SlotTable

variable {files : String → Option (List UInt8)} {k next : Kernel} {inKernel : UInt64 → Bool}
  {self : Process} {m after : Machine}

section Count

/-- The slots of kernel stacks in a state. -/
def Kernel.stacksIn (k : Kernel) (isState : StackState → Bool) : Finset (Fin maxProcesses) :=
  Finset.univ.filter fun stack => isState (k.kernelStacks stack) = true

def StackState.isAllocated : StackState → Bool
  | .allocated _ => true
  | _ => false

def StackState.isQueued : StackState → Bool
  | .queuedToFree _ => true
  | _ => false

/-- The kernel stacks that cannot be given out. -/
def Kernel.stacksInUse (k : Kernel) : Finset (Fin maxProcesses) :=
  k.stacksIn fun state => state.isAllocated || state.isQueued

/-- The slots of processes that have not terminated. -/
def Kernel.living (k : Kernel) : Finset (Fin maxProcesses) :=
  Finset.univ.filter fun slot =>
    (k.processTable slot).any (fun process => process.state != .terminated) = true

/-- The slots of the stacks in a state. -/
theorem Kernel.mem_stacksIn {isState : StackState → Bool} {stack : Fin maxProcesses} :
    stack ∈ k.stacksIn isState ↔ isState (k.kernelStacks stack) = true := by
  simp [Kernel.stacksIn]

/-- There are no more allocated stacks than processes that are alive. -/
theorem Resources.SlotsOwned.card_le (owned : k.resources.SlotsOwned) :
    (k.stacksIn StackState.isAllocated).card ≤ k.living.card := by
  -- A stack is sent to the slot of the process that it belongs to.
  let slotOf (stack : Fin maxProcesses) : Fin maxProcesses :=
    match k.kernelStacks stack with
    | .allocated pid => (k.findById pid).getD stack
    | _ => stack
  have belongs : ∀ stack ∈ k.stacksIn StackState.isAllocated, ∃ process,
      k.kernelStacks stack = .allocated process.pid ∧
        k.processTable (slotOf stack) = some process ∧ process.state ≠ .terminated := by
    intro stack member
    rw [Kernel.mem_stacksIn] at member
    -- Only a stack that is allocated counts.
    cases state : k.kernelStacks stack with
    | free => simp [state, StackState.isAllocated] at member
    | queuedToFree pid => simp [state, StackState.isAllocated] at member
    | allocated pid =>
      -- Its owner is alive, so it is in the table.
      have alive := owned.alive state
      obtain ⟨held, holds⟩ := Option.isSome_iff_exists.mp alive
      obtain ⟨process, here, holding⟩ := Option.bind_eq_some_iff.mp holds
      obtain ⟨slot, found, there⟩ := Option.bind_eq_some_iff.mp here
      obtain ⟨second, secondThere, passes⟩ := find_some found
      rw [there, Option.some.injEq] at secondThere
      subst secondThere
      have isSlot : slotOf stack = slot := by
        show (match k.kernelStacks stack with
          | .allocated pid => (k.findById pid).getD stack
          | _ => stack) = slot
        rw [state]
        show (k.findById pid).getD stack = slot
        rw [Kernel.findById, found]
        rfl
      have samePid : process.pid = pid := by simpa using passes
      exact ⟨process, by rw [samePid], isSlot ▸ there, (Process.alive_of_holding holding).1⟩
  refine Finset.card_le_card_of_injOn slotOf ?_ ?_
  · -- The owner is one of the living processes.
    intro stack member
    obtain ⟨process, -, there, alive⟩ := belongs stack member
    simp [Kernel.living, there, alive]
  · -- Nobody has two stacks.
    intro first firstIn second secondIn same
    obtain ⟨process, firstIs, firstThere, -⟩ := belongs first firstIn
    obtain ⟨other, secondIs, secondThere, -⟩ := belongs second secondIn
    rw [same, secondThere, Option.some.injEq] at firstThere
    exact owned.alone firstIs (firstThere ▸ secondIs)

/-- The stacks in use are allocated or queued. -/
theorem Kernel.stacksInUse_card (k : Kernel) : k.stacksInUse.card ≤
    (k.stacksIn StackState.isAllocated).card + (k.stacksIn StackState.isQueued).card := by
  refine (Finset.card_le_card ?_).trans (Finset.card_union_le _ _)
  intro stack member
  rw [Finset.mem_union, Kernel.mem_stacksIn, Kernel.mem_stacksIn]
  rw [Kernel.stacksInUse, Kernel.mem_stacksIn, Bool.or_eq_true] at member
  exact member

/-- When no slot is free, all are in use. -/
theorem Kernel.stacksInUse_full (full : ∀ stack, k.kernelStacks stack ≠ .free) :
    k.stacksInUse.card = maxProcesses := by
  have all : k.stacksInUse = Finset.univ := by
    refine Finset.eq_univ_iff_forall.mpr fun stack => ?_
    rw [Kernel.stacksInUse, Kernel.mem_stacksIn]
    cases state : k.kernelStacks stack with
    | free => exact absurd state (full stack)
    | allocated pid => rfl
    | queuedToFree pid => rfl
  rw [all, Finset.card_univ, Fintype.card_fin]

end Count

section Leaks

/-- The error of `alloc_stack` when no kernel stack is free. -/
def noStacks : String := "[alloc_stack] No available kernel stacks"

/-- The kernels in which a handler calls `alloc_stack` on behalf of a process, with the pid. -/
inductive Kernel.AllocatesStack (files : String → Option (List UInt8)) (k : Kernel)
    (process : Process) (ctx : ExceptionContext) : Kernel → UInt64 → Prop
  | fork {root : Nat} {copy : PageAllocator} (isFork : ctx.IsSyscall 4)
      (space : duplicateVaSpace process.pctx.ttbr0.toNat k.alloc = (.ok root, copy)) :
      AllocatesStack files k process ctx { k with alloc := copy, nextPid := k.nextPid + 1 } k.nextPid
  | exec {args : List String} {bytes : List UInt8} {image : Nat × Nat × Nat}
      {alloc : PageAllocator} {old : Fin maxProcesses} (isExec : ctx.IsSyscall 5)
      (reads : readExecArgs (k.loadByte ctx.ttbr0) (ctx.x.get 0) (ctx.x.get 1) (ctx.x.get 2) =
        .ok args)
      (file : files (args.headD "") = some bytes)
      (loads : loadElf bytes k.alloc = .ok (.ok image, alloc))
      (active : k.getActiveStackIndex process.pid = some old) :
      AllocatesStack files k process ctx (k.givenUp process old alloc) process.pid

/-- With one stack queued at most for the current process, one is queued at most after freeing. -/
theorem Kernel.Runs.freed_queued (runs : k.Runs inKernel self) (once : k.resources.QueuedOnce)
    (freed : k.freeQueuedStacks = .ok next) :
    (next.stacksIn StackState.isQueued).card ≤ 1 := by
  obtain ⟨alloc, result⟩ := Kernel.freeQueuedStacks_eq runs.current
  rw [result, Except.ok.injEq] at freed
  subst freed
  -- What is still queued was queued by the process itself.
  have mine : ∀ stack ∈ Kernel.stacksIn { k with
      alloc
      kernelStacks := fun stack => (k.kernelStacks stack).afterFreeing self.pid }
      StackState.isQueued, k.kernelStacks stack = .queuedToFree self.pid := by
    intro stack member
    rw [Kernel.mem_stacksIn] at member
    dsimp only at member
    cases state : (k.kernelStacks stack).afterFreeing self.pid with
    | free => simp [state, StackState.isQueued] at member
    | allocated pid => simp [state, StackState.isQueued] at member
    | queuedToFree pid =>
      obtain ⟨queued, rfl⟩ := StackState.queued_afterFreeing.mp state
      exact queued
  -- It has queued one stack at most, since it is alive.
  refine Finset.card_le_one.mpr fun first firstIn second secondIn => ?_
  apply once self.pid _ first second (mine first firstIn) (mine second secondIn)
  rw [runs.holding]
  rfl

/-- A process has a stack, or one is free, or `alloc_stack` has no other reason to fail. -/
theorem Kernel.allocStack_finds {pid : UInt64} (few : k.stacksInUse.card < maxProcesses) :
    k.allocStack pid ≠ .ok (.error noStacks, next) := by
  intro failed
  obtain ⟨-, active | ⟨-, -, full⟩⟩ := Kernel.allocStack_error failed
  · -- The other error has another text.
    rw [Kernel.allocStack, if_pos active, Except.ok.injEq, Prod.mk.injEq, Except.error.injEq] at failed
    exact absurd failed.1 (by decide)
  · rw [Kernel.stacksInUse_full full] at few
    exact lt_irrefl _ few

/-- The handlers give up stacks before they allocate one, but they do not free them. -/
theorem Kernel.AllocatesStack.stacksInUse {ctx : ExceptionContext} {called : Kernel} {pid : UInt64}
    (allocates : k.AllocatesStack files self ctx called pid) : called.stacksInUse = k.stacksInUse := by
  cases allocates with
  | fork isFork space => rfl
  | @exec args bytes image alloc old isExec reads file loads active =>
    have mine := Kernel.getActiveStackIndex_some active
    refine Finset.ext fun stack => ?_
    rw [Kernel.stacksInUse, Kernel.stacksInUse, Kernel.mem_stacksIn, Kernel.mem_stacksIn]
    show (StackState.isAllocated (Function.update k.kernelStacks old (.queuedToFree self.pid) stack) ||
      StackState.isQueued (Function.update k.kernelStacks old (.queuedToFree self.pid) stack)) = true ↔ _
    rw [Function.update_apply]
    split
    · rename_i isOld
      rw [isOld, mine]
      exact Iff.rfl
    · rfl

/-- At a trap of the running program, stacks that were given up come back as they should. -/
structure Machine.ReclaimsStacks (files : String → Option (List UInt8)) (m : Machine) : Prop where
  queued : ∀ {freed}, m.kernel.freeQueuedStacks = .ok freed →
    (freed.stacksIn StackState.isQueued).card ≤ 1 ∧
      freed.stacksInUse.card ≤ freed.living.card + 1
  allocates : ∀ {self ctx devices mid called pid next}, m.kernel.getCurrentProcess = some self →
    wasFromUserEl0 ctx = true → m.kernel.entered devices ctx = .ok mid →
    mid.AllocatesStack files { self with pctx := .fromEctx ctx } ctx called pid →
    mid.living.card < maxProcesses - 1 → called.allocStack pid ≠ .ok (.error noStacks, next)

/-- What is in use after freeing, when one stack is queued at most. -/
theorem Kernel.stacksInUse_le (owned : k.resources.SlotsOwned)
    (queued : (k.stacksIn StackState.isQueued).card ≤ 1) :
    k.stacksInUse.card ≤ k.living.card + 1 :=
  k.stacksInUse_card.trans (Nat.add_le_add owned.card_le queued)

/-- Stacks are reclaimed when no process that is alive has two of them queued. -/
theorem Kernel.Runs.reclaims (runs : m.kernel.Runs inKernel self)
    (owned : m.kernel.resources.SlotsOwned) (once : m.kernel.resources.QueuedOnce) :
    m.ReclaimsStacks files := by
  constructor
  -- On entry all stacks but the one of the process itself are freed.
  case queued =>
    intro freed freeing
    have queued := runs.freed_queued once freeing
    refine ⟨queued, Kernel.stacksInUse_le ?_ queued⟩
    obtain ⟨alloc, result⟩ := Kernel.freeQueuedStacks_eq runs.current
    rw [result, Except.ok.injEq] at freeing
    subst freeing
    refine @Resources.SlotsOwned.freed _ _ owned self.pid ?_ fun pid => ?_ <;> rfl
  -- The allocation comes after the entry, so at most one stack is queued in it.
  case allocates =>
    intro process ctx devices mid called pid next current fromUser entry allocates few
    obtain ⟨freed, freeing, resources⟩ := runs.entered_resources fromUser entry
    obtain ⟨slots, alive⟩ := runs.entered_stacks fromUser entry
    have same : mid.stacksIn StackState.isQueued = freed.stacksIn StackState.isQueued := by
      have kernelStacks : mid.kernelStacks = freed.kernelStacks :=
        congrArg Resources.kernelStacks resources
      unfold Kernel.stacksIn
      rw [kernelStacks]
    have inUse := Kernel.stacksInUse_le (owned.freed slots alive)
      (same ▸ runs.freed_queued once freeing)
    apply Kernel.allocStack_finds
    rw [allocates.stacksInUse]
    omega

end Leaks

section Rerun

variable {pid : UInt64} {old stack : Fin maxProcesses}

/-- The kernel stacks that a process has given up and that are still queued. -/
def Kernel.stacksQueuedBy (k : Kernel) (pid : UInt64) : Finset (Fin maxProcesses) :=
  k.stacksIn fun state => state == .queuedToFree pid

/-- The stacks that a process has queued. -/
theorem Kernel.mem_stacksQueuedBy {slot : Fin maxProcesses} :
    slot ∈ k.stacksQueuedBy pid ↔ k.kernelStacks slot = .queuedToFree pid := by
  simp [Kernel.stacksQueuedBy, Kernel.mem_stacksIn]

/-- The stacks that the current process has queued are not freed. -/
theorem Kernel.stacksQueuedBy_freed {freed : Kernel}
    (current : k.getCurrentProcess = some self) (frees : k.freeQueuedStacks = .ok freed) :
    k.stacksQueuedBy self.pid ⊆ freed.stacksIn StackState.isQueued := by
  obtain ⟨alloc, result⟩ := Kernel.freeQueuedStacks_eq current
  rw [result, Except.ok.injEq] at frees
  subst frees
  intro slot queued
  rw [Kernel.mem_stacksQueuedBy] at queued
  rw [Kernel.mem_stacksIn]
  dsimp only
  rw [queued, StackState.afterFreeing, if_pos rfl]
  rfl

/-- A program that runs itself again leaves one stack more to be freed later. -/
theorem Machine.Reran.queued (reran : m.Reran after pid old stack) :
    after.kernel.stacksQueuedBy pid = insert old (m.kernel.stacksQueuedBy pid) := by
  ext slot
  have active := reran.active
  have unused := reran.unused
  -- The new stack is allocated, the old one is queued, and what was queued is still so.
  rw [Finset.mem_insert, Kernel.mem_stacksQueuedBy, Kernel.mem_stacksQueuedBy, reran.kernelStacks,
    Function.update_apply, Function.update_apply]
  by_cases isStack : slot = stack
  · subst isStack
    rw [if_pos rfl]
    constructor
    · intro impossible
      cases impossible
    · rintro (rfl | queued)
      · -- The old stack is allocated, so it is not the one that was free.
        rw [active] at unused
        cases unused
      · rw [queued, StackState.afterFreeing, if_pos rfl] at unused
        cases unused
  · rw [if_neg isStack]
    by_cases isOld : slot = old
    · simp [isOld]
    · rw [if_neg isOld, StackState.queued_afterFreeing]
      simp [isOld]

/-- It has taken one stack more than were in use. -/
theorem Machine.Reran.stacksInUse_card (reran : m.Reran after pid old stack) :
    after.kernel.stacksInUse.card ≤ m.kernel.stacksInUse.card + 1 := by
  -- But for the new stack, all that is in use was so before.
  refine (Finset.card_le_card (t := insert stack m.kernel.stacksInUse) fun slot inUse => ?_).trans
    (Finset.card_insert_le _ _)
  rw [Finset.mem_insert]
  by_cases isStack : slot = stack
  · exact Or.inl isStack
  · refine Or.inr ?_
    rw [Kernel.stacksInUse, Kernel.mem_stacksIn] at inUse ⊢
    rw [reran.kernelStacks, Function.update_of_ne isStack, Function.update_apply] at inUse
    split at inUse
    · -- The old stack was in use when it was allocated.
      rename_i isOld
      rw [isOld, reran.active]
      rfl
    · cases state : m.kernel.kernelStacks slot with
      | allocated owner => rfl
      | queuedToFree owner => rfl
      | free =>
        rw [state] at inUse
        exact inUse

/-- A kernel stack is free unless all of them are in use. -/
theorem Kernel.exists_vacant (few : k.stacksInUse.card < maxProcesses) :
    ∃ slot, k.kernelStacks slot = .free := by
  by_contra none
  have full := Kernel.stacksInUse_full fun slot isFree => none ⟨slot, isFree⟩
  omega

end Rerun

section Run

variable {start : Kernel} {boot : Machine}

/--
In a run in which no process gives up a second kernel stack while a first one is still queued,
kernel stacks do not leak.
-/
theorem Machine.Booted.reclaimsStacks (booted : Machine.Booted files start boot)
    (run : Machine.Runs files (Machine.Unqueued files) boot m) {frame : ExceptionContext}
    (running : m.control = .user frame) : m.ReclaimsStacks files := by
  obtain ⟨valid, owned, once⟩ := run.queuedOnce booted
  obtain ⟨self, runs⟩ := valid.user running
  exact runs.reclaims owned once

/-- The small program can run itself once, with a single kernel stack in use before. -/
theorem wordsStart_reruns : ∃ (boot m second : Machine) (frame context : ExceptionContext)
    (pid : UInt64) (only old new : Fin maxProcesses), Machine.Booted wordsFiles wordsStart boot ∧
      boot.Step wordsFiles (.schedule false) (.ok m) ∧
      m.kernel.kernelStacks = Function.update (fun _ => .free) only (.allocated 1) ∧
      m.kernel.stacksInUse.card ≤ 1 ∧
      m.Step wordsFiles (.trap (frame.rerunning 1) ⟨false, false, false⟩) (.ok second) ∧
      second.RunsWords context 8178 ∧ m.Reran second pid old new := by
  obtain ⟨boot, m, frame, only, booted, scheduled, small, slots⟩ := wordsStart_runsWords
  have reached : m.Reachable wordsFiles := ⟨_, boot, booted, .single ⟨_, trivial, scheduled⟩⟩
  -- The only stack in use is the one of `init`.
  have one : m.kernel.stacksInUse.card ≤ 1 := by
    rw [← Finset.card_singleton only]
    refine Finset.card_le_card fun slot inUse => ?_
    rw [Kernel.stacksInUse, Kernel.mem_stacksIn, slots, Function.update_apply] at inUse
    split at inUse
    · rename_i isOnly
      exact Finset.mem_singleton.mpr isOnly
    · cases inUse
  -- So there is room for a second stack.
  obtain ⟨vacant, room⟩ := Kernel.exists_vacant (one.trans_lt (by decide))
  obtain ⟨second, context, pid, old, new, step, -, smallSecond, reran⟩ :=
    small.reruns reached.valid (by decide) room ⟨false, false, false⟩
  exact ⟨boot, m, second, frame, context, pid, only, old, new, booted, scheduled, slots, one, step,
    smallSecond, reran⟩

/-- Two stacks are queued after a program has run itself twice, with nobody else in between. -/
theorem reruns_counterexample : ∃ (m : Machine) (frame : ExceptionContext) (freed : Kernel),
    m.Reachable wordsFiles ∧ m.control = .user frame ∧ m.kernel.freeQueuedStacks = .ok freed ∧
      2 ≤ (freed.stacksIn StackState.isQueued).card ∧ ¬ m.ReclaimsStacks wordsFiles := by
  obtain ⟨boot, m, second, frame, context, pid, -, old, new, booted, scheduled, -, one, step,
    smallSecond, reran⟩ := wordsStart_reruns
  have reachedSecond : second.Reachable wordsFiles :=
    ⟨_, boot, booted, (Relation.ReflTransGen.single ⟨_, trivial, scheduled⟩).tail ⟨_, trivial, step⟩⟩
  -- After the first call at most two stacks are in use, so there is room for a third.
  have two := reran.stacksInUse_card.trans (Nat.succ_le_succ one)
  obtain ⟨vacant, room⟩ := Kernel.exists_vacant (two.trans_lt (by decide))
  obtain ⟨third, last, again, oldest, newest, stepAgain, -, smallThird, reranAgain⟩ :=
    smallSecond.reruns reachedSecond.valid (by decide) room ⟨false, false, false⟩
  have reachedThird := reachedSecond.step stepAgain
  have samePid : again = pid := by
    have same := reranAgain.current.symm.trans reran.stillCurrent
    exact Option.some.inj same
  subst samePid
  -- Both stacks were given up by the process that is still the current one.
  obtain ⟨process, current, isPid⟩ := Option.map_eq_some_iff.mp reranAgain.stillCurrent
  obtain ⟨_, frees⟩ := Kernel.freeQueuedStacks_eq current
  -- The stack that the second call gives up is not the one that the first gave up.
  have distinct : oldest ≠ old := by
    rintro rfl
    have queued : oldest ∈ second.kernel.stacksQueuedBy again := by
      rw [reran.queued]
      exact Finset.mem_insert_self _ _
    rw [Kernel.mem_stacksQueuedBy, reranAgain.active] at queued
    cases queued
  have pair : 2 ≤ (third.kernel.stacksQueuedBy again).card := by
    rw [← Finset.card_pair distinct]
    refine Finset.card_le_card ?_
    rw [reranAgain.queued, reran.queued]
    exact Finset.insert_subset_insert _ (Finset.singleton_subset_iff.mpr (Finset.mem_insert_self _ _))
  rw [← isPid] at pair
  have queued := pair.trans (Finset.card_le_card (Kernel.stacksQueuedBy_freed current frees))
  exact ⟨third, last, _, reachedThird, smallThird.running, frees, queued,
    fun reclaims => absurd (queued.trans (reclaims.queued frees).1) (by decide)⟩

/-- The small program reclaims its kernel stacks after it has run itself once. -/
theorem reclaimsStacks_words : ∃ (boot m : Machine) (frame : ExceptionContext)
    (old : Fin maxProcesses) (pid : UInt64), Machine.Booted wordsFiles wordsStart boot ∧
      Machine.Runs wordsFiles (Machine.Unqueued wordsFiles) boot m ∧ m.control = .user frame ∧
      m.kernel.kernelStacks old = .queuedToFree pid ∧ m.ReclaimsStacks wordsFiles := by
  obtain ⟨boot, first, m, _, frame, pid, only, old, _, booted, scheduled, slots, -, step, small,
    reran⟩ := wordsStart_reruns
  -- A pass over the table is no exec.
  have unqueued : boot.Unqueued wordsFiles (.schedule false) := by
    rintro self ⟨-, ctx, devices, mid, args, bytes, image, alloc, impossible, -⟩
    cases impossible
  -- Before the program runs itself, its only stack is in use and none is queued.
  have none : ∀ action, first.Unqueued wordsFiles action := by
    intro action self _ stack queued
    rw [slots, Function.update_apply] at queued
    split at queued <;> cases queued
  have queued : m.kernel.kernelStacks old = .queuedToFree pid := by
    rw [← Kernel.mem_stacksQueuedBy, reran.queued]
    exact Finset.mem_insert_self _ _
  have run : Machine.Runs wordsFiles (Machine.Unqueued wordsFiles) boot m :=
    (Relation.ReflTransGen.single ⟨_, unqueued, scheduled⟩).tail ⟨_, none _, step⟩
  exact ⟨boot, m, frame, old, pid, booted, run, small.running, queued,
    booted.reclaimsStacks run small.running⟩

end Run

end AtOS
