import AtOS.Resources.Taking

/-! The frames behind kernel stacks: a slot takes six frames, and gives them back when it is freed. -/

namespace AtOS

open ByteMemory RadixForest SlotTable

/-- The account of the frames: who owns them, and which pages of kernel stacks are mapped. -/
structure Resources.Accounted (r : Resources) (roots : Set Nat) (free : List Nat)
    (managed : Set Nat) : Prop where
  owned : Owned r.alloc (insert r.kernelL1 roots) free managed
  apart : r.kernelL1 ∉ roots
  table : ∃ table, StackTable r.alloc.mem r.kernelL1 table (stackEntries r.kernelStacks)

section Entries

variable {kernelStacks : Fin maxProcesses → StackState} {slot : Fin maxProcesses}

/-- The pages of a free slot are not in use. -/
theorem stackEntry_unused (vacant : kernelStacks slot = .free) {page : Nat} (small : page < 7) :
    stackEntry slot page ∉ stackEntries kernelStacks := by
  rintro ⟨other, inUse, second, listed, same⟩
  obtain ⟨rfl, -⟩ := stackEntry_inj small (stackPage_lt listed).2 same
  exact inUse vacant

/-- Giving a free slot out puts its pages to use. -/
theorem stackEntries_allocated (vacant : kernelStacks slot = .free) {state : StackState}
    (inUse : state ≠ .free) : stackEntries (Function.update kernelStacks slot state) =
      stackEntries kernelStacks ∪ slotEntries slot stackPageIndices := by
  -- An entry belongs to the new stack or to one that was in use.
  ext index
  constructor
  · -- What is in use now is the new stack, or was in use before.
    rintro ⟨other, used, inside⟩
    rw [Function.update_apply] at used
    split at used
    · rename_i same
      exact Or.inr (same ▸ inside)
    · exact Or.inl ⟨other, used, inside⟩
  · rintro (⟨other, used, inside⟩ | inside)
    · refine ⟨other, ?_, inside⟩
      rw [Function.update_of_ne]
      · exact used
      · rintro rfl
        exact used vacant
    · refine ⟨slot, ?_, inside⟩
      rwa [Function.update_self]

/-- Freeing a slot takes its pages out of use. -/
theorem stackEntries_freed (slot : Fin maxProcesses) :
    stackEntries (Function.update kernelStacks slot .free) =
      stackEntries kernelStacks \ slotEntries slot stackPageIndices := by
  ext index
  constructor
  · -- A stack still in use is another one, and no two slots share an entry.
    rintro ⟨other, used, page, listed, same⟩
    rw [Function.update_apply] at used
    split at used
    · exact absurd rfl used
    rename_i distinct
    refine ⟨⟨other, used, page, listed, same⟩, ?_⟩
    rintro ⟨second, listedSecond, sameSecond⟩
    exact distinct (stackEntry_inj (stackPage_lt listed).2 (stackPage_lt listedSecond).2
      (same.symm.trans sameSecond)).1
  · rintro ⟨⟨other, used, inside⟩, outside⟩
    refine ⟨other, ?_, inside⟩
    rw [Function.update_of_ne]
    · exact used
    · rintro rfl
      exact outside inside

/-- A slot that stays in use keeps its pages. -/
theorem stackEntries_used {state : StackState} (inUse : kernelStacks slot ≠ .free)
    (still : state ≠ .free) :
    stackEntries (Function.update kernelStacks slot state) = stackEntries kernelStacks := by
  have same : ∀ other, Function.update kernelStacks slot state other ≠ .free ↔
      kernelStacks other ≠ .free := by
    intro other
    rw [Function.update_apply]
    split
    · rename_i isSlot
      rw [isSlot]
      exact iff_of_true still inUse
    · exact Iff.rfl
  ext index
  exact exists_congr fun other => and_congr_left fun _ => same other

end Entries

section Account

variable {r after : Resources} {roots : Set Nat} {free rest : List Nat} {managed : Set Nat}

/-- The account depends on the frames, the slots and the kernel's own table only. -/
theorem Resources.Accounted.congr (accounted : r.Accounted roots free managed)
    (alloc : after.alloc = r.alloc) (kernelL1 : after.kernelL1 = r.kernelL1)
    (slots : stackEntries after.kernelStacks = stackEntries r.kernelStacks) :
    after.Accounted roots free managed := by
  obtain ⟨owned, apart, table⟩ := accounted
  constructor
  case owned =>
    rw [alloc, kernelL1]
    exact owned
  case apart =>
    rw [kernelL1]
    exact apart
  case table =>
    rw [alloc, kernelL1, slots]
    exact table

/-- The table of the kernel is one of the roots. -/
theorem Resources.Accounted.live (_ : r.Accounted roots free managed) :
    r.kernelL1 ∈ insert r.kernelL1 roots := Set.mem_insert _ _

/-- The address spaces of programs are none of the kernel's. -/
theorem Resources.Accounted.programs (accounted : r.Accounted roots free managed) :
    insert r.kernelL1 roots \ {r.kernelL1} = roots :=
  Set.insert_sdiff_self_of_notMem accounted.apart

/-- A change that keeps the kernel's address space keeps the table of the stacks. -/
theorem Resources.Accounted.ofKept (accounted : r.Accounted roots free managed) {others : Set Nat}
    (owned : Owned after.alloc (insert r.kernelL1 others) rest managed)
    (apart : r.kernelL1 ∉ others) (kept : Kept r.alloc.mem after.alloc.mem {r.kernelL1})
    (kernelL1 : after.kernelL1 = r.kernelL1)
    (slots : stackEntries after.kernelStacks = stackEntries r.kernelStacks) :
    after.Accounted others rest managed := by
  obtain ⟨table, there⟩ := accounted.table
  -- The tables of the kernel are as they were, so its stacks are still mapped.
  have still := there.congr (kept.tables rfl)
  constructor
  case owned =>
    rw [kernelL1]
    exact owned
  case apart =>
    rw [kernelL1]
    exact apart
  case table =>
    refine ⟨table, ?_⟩
    rw [kernelL1, slots]
    exact still

end Account

section Stacks

variable {k next : Kernel} {roots : Set Nat} {free : List Nat} {managed : Set Nat} {pid : UInt64}
  {stack : Fin maxProcesses}

/-- What a stack that was given out has taken, and what it leaves as it was. -/
structure StackTaken (k next : Kernel) (roots : Set Nat) (free : List Nat) (managed : Set Nat)
    (taken rest : List Nat) : Prop where
  free_eq : free = taken ++ rest
  six : taken.length = 6
  total : next.alloc.totalFrameCount = k.alloc.totalFrameCount
  accounted : next.resources.Accounted roots rest managed
  kept : Kept k.alloc.mem next.alloc.mem roots

/-- What `alloc_stack` comes to when its slots are accounted for. -/
theorem Kernel.allocStack_accounted (accounted : k.resources.Accounted roots free managed)
    (vacant : k.kernelStacks stack = .free) :
    Loop.Yields
      (fun alloc => ∃ pa, ttbr0ToPa alloc.mem (kernelStackTop stack - 0x10) k.kernelL1 = some pa ∧
        ∃ taken rest, StackTaken k { k.setStack stack (.allocated pid) with
          alloc := { alloc with mem := writeLE alloc.mem pa 8 stackProbe } } roots free managed taken
          rest)
      (fun panic => free.length < 6 ∧ ∃ message, panic = .outOfFrames message)
      (AtOS.allocStackFrames (kernelStackStart stack) k.kernelL1 stackPageIndices k.alloc) := by
  obtain ⟨table, there⟩ := accounted.table
  -- A stack that is free has no entries, so its pages are mapped one by one.
  have yields := there.allocStackFrames stack accounted.live stackPageIndices (by decide) (by decide)
    accounted.owned fun page listed => stackEntry_unused vacant (stackPage_lt listed).2
  refine yields.imp ?_ fun panic fails => fails
  rintro alloc ⟨taken, rest, free_eq, six, step⟩
  -- With the stack in use, its entries are those of a stack in use.
  have entries : stackEntries (Function.update k.kernelStacks stack (.allocated pid)) =
      stackEntries k.kernelStacks ∪ slotEntries stack stackPageIndices :=
    stackEntries_allocated vacant (by simp)
  -- The last of the pages takes the probe.
  obtain ⟨pa, translated, write⟩ := step.there.probe step.owned accounted.live
    (Or.inr ⟨6, by decide, rfl⟩)
  have final := step.trans (write stackProbe)
  have kept := final.kept
  rw [accounted.programs] at kept
  refine ⟨pa, translated, taken, rest, free_eq, six, final.total, ⟨final.owned, accounted.apart, table, ?_⟩,
    kept⟩
  show StackTable _ k.kernelL1 table (stackEntries (Function.update k.kernelStacks stack
    (.allocated pid)))
  rw [entries]
  exact final.there

/-- A stack that was given out has taken six frames. -/
theorem Kernel.StackAllocated.taken {top : UInt64} (allocated : k.StackAllocated pid top stack next)
    (accounted : k.resources.Accounted roots free managed) :
    ∃ taken rest, StackTaken k next roots free managed taken rest := by
  obtain ⟨alloc, pa, mapped, translated, rfl⟩ := allocated.next_eq
  have yields := @Kernel.allocStack_accounted k roots free managed pid stack accounted allocated.free
  rw [mapped] at yields
  cases yields with
  | done holds =>
    obtain ⟨second, same, taken, rest, took⟩ := holds
    rw [translated, Option.some.injEq] at same
    exact ⟨taken, rest, same ▸ took⟩

/-- A process without a stack gets one, unless there is no slot or there are no frames for it. -/
theorem Kernel.allocStack_total (accounted : k.resources.Accounted roots free managed)
    (inactive : k.getActiveStackIndex pid = none) :
    (∃ top next stack taken rest, k.allocStack pid = .ok (.ok top, next) ∧
        k.StackAllocated pid top stack next ∧ StackTaken k next roots free managed taken rest) ∨
      (∃ error, k.allocStack pid = .ok (.error error, k) ∧ ∀ stack, k.kernelStacks stack ≠ .free) ∨
      (∃ message, k.allocStack pid = .error (.panic (.outOfFrames message)) ∧ free.length < 6) := by
  -- Either the call goes through, or there is no stack left, or the frames run out.
  cases result : k.allocStack pid with
  | ok value =>
    obtain ⟨value, next⟩ := value
    cases value with
    | ok top =>
      obtain ⟨stack, allocated⟩ := Kernel.allocStack_ok result
      obtain ⟨taken, rest, took⟩ := allocated.taken accounted
      exact Or.inl ⟨top, next, stack, taken, rest, rfl, allocated, took⟩
    | error error =>
      obtain ⟨rfl, active | ⟨-, -, full⟩⟩ := Kernel.allocStack_error result
      · rw [inactive] at active
        cases active
      · exact Or.inr (Or.inl ⟨error, rfl, full⟩)
  | error stop =>
    obtain ⟨stack, vacant, stops⟩ := Kernel.allocStack_stop result
    have yields := @Kernel.allocStack_accounted k roots free managed pid stack accounted vacant
    generalize AtOS.allocStackFrames (kernelStackStart stack) k.kernelL1 stackPageIndices k.alloc =
      frames at yields stops
    cases yields with
    | stopped fails =>
      obtain ⟨few, message, rfl⟩ := fails
      exact Or.inr (Or.inr ⟨message, congrArg Except.error stops, few⟩)
    -- With the pages mapped, the probe cannot fail.
    | done holds =>
      obtain ⟨pa, translated, -⟩ := holds
      dsimp only at stops
      rw [translated] at stops
      cases stops

/-- Freeing a slot gives six frames back. -/
theorem Kernel.freeStack_accounted (accounted : k.resources.Accounted roots free managed)
    (queued : k.kernelStacks stack = .queuedToFree pid) :
    ∃ alloc freed, k.freeStack stack = .ok ({ k with alloc }.setStack stack .free) ∧
      freed.length = 6 ∧ alloc.totalFrameCount = k.alloc.totalFrameCount ∧
      ({ k with alloc }.setStack stack .free).resources.Accounted roots (freed ++ free) managed ∧
      Kept k.alloc.mem alloc.mem roots := by
  obtain ⟨table, there⟩ := accounted.table
  -- The pages of a queued stack are mapped.
  have inUse : ∀ page ∈ stackPageIndices, stackEntry stack page ∈ stackEntries k.kernelStacks :=
    fun page listed => ⟨stack, by simp [queued], page, listed, rfl⟩
  obtain ⟨freed, count, step⟩ := there.freeStackFrames stack accounted.live stackPageIndices
    (by decide) (by decide) accounted.owned inUse
  have isFrame : IsFrame k.kernelL1 :=
    accounted.owned.node_frame accounted.live (root_mem_nodes _)
  -- `free_stack` goes from the physical address to the virtual one and back.
  have root : ttbr1ToPa (ttbr1ToVa k.kernelL1) = k.kernelL1 := ttbr1ToPa_ttbr1ToVa isFrame.2
  have kept := step.kept
  rw [accounted.programs] at kept
  refine ⟨_, freed, ?_, count, step.total, ⟨step.owned, accounted.apart, table, ?_⟩, kept⟩
  · unfold Kernel.freeStack
    rw [queued]
    dsimp only
    rw [root]
    rfl
  · show StackTable _ k.kernelL1 table (stackEntries (Function.update k.kernelStacks stack .free))
    rw [stackEntries_freed]
    exact step.there

end Stacks

section Queue

variable {roots : Set Nat} {managed : Set Nat} {self : Process}

/-- Whether a queued slot is freed while a process is the current one. -/
def StackState.isFreeable (current : UInt64) : StackState → Bool
  | .queuedToFree pid => pid != current
  | _ => false

/-- It is freed if another process has queued it. -/
theorem StackState.isFreeable_iff {state : StackState} {current : UInt64} :
    state.isFreeable current = true ↔ ∃ pid, state = .queuedToFree pid ∧ pid ≠ current := by
  cases state <;> simp [StackState.isFreeable]

/-- What freeing some slots leaves behind: six frames for each of them. -/
structure StacksFreed (k next : Kernel) (roots : Set Nat) (free : List Nat) (managed : Set Nat)
    (count : Nat) (freed : List Nat) : Prop where
  length : freed.length = 6 * count
  total : next.alloc.totalFrameCount = k.alloc.totalFrameCount
  accounted : next.resources.Accounted roots (freed ++ free) managed
  kept : Kept k.alloc.mem next.alloc.mem roots

/-- The loop over the slots frees those that other processes have queued. -/
theorem Kernel.freeQueued_accounted (slots : List (Fin maxProcesses)) :
    ∀ {k : Kernel} {free : List Nat}, slots.Nodup →
      k.processTable k.currentProcess = some self → k.resources.Accounted roots free managed →
      ∃ next freed, slots.foldlM Kernel.freeQueuedStack k = .ok next ∧
        StacksFreed k next roots free managed
          (slots.filter fun slot => (k.kernelStacks slot).isFreeable self.pid).length freed := by
  induction slots with
  | nil =>
    intro k free _ _ accounted
    exact ⟨k, [], rfl, rfl, rfl, accounted, Kept.refl _ _⟩
  | cons slot rest ih =>
    intro k free nodup current accounted
    obtain ⟨fresh, nodup⟩ := List.nodup_cons.mp nodup
    rw [List.foldlM_cons]
    by_cases freeable : (k.kernelStacks slot).isFreeable self.pid = true
    · -- The slot is freed, and the slots still to come are as they were.
      obtain ⟨pid, queued, distinct⟩ := StackState.isFreeable_iff.mp freeable
      obtain ⟨alloc, freed, result, six, total, after, kept⟩ := Kernel.freeStack_accounted accounted queued
      have step : k.freeQueuedStack slot = .ok ({ k with alloc }.setStack slot .free) := by
        unfold Kernel.freeQueuedStack Kernel.getCurrentProcess
        rw [queued, current]
        dsimp only
        rw [if_neg distinct, result]
      obtain ⟨next, more, done, others⟩ := @ih ({ k with alloc }.setStack slot .free) _ nodup current after
      have same : (rest.filter fun other =>
          (({ k with alloc }.setStack slot .free).kernelStacks other).isFreeable self.pid) =
          rest.filter fun other => (k.kernelStacks other).isFreeable self.pid := by
        -- Freeing the slot has changed no other.
        refine List.filter_congr fun other listed => ?_
        have apart : other ≠ slot := fun equal => fresh (equal ▸ listed)
        show StackState.isFreeable self.pid (Function.update k.kernelStacks slot .free other) = _
        rw [Function.update_of_ne apart]
      rw [same] at others
      refine ⟨next, more ++ freed, by rw [step]; exact done, ?_, others.total.trans total, ?_,
        kept.trans others.kept⟩
      · rw [List.filter_cons, if_pos freeable, List.length_append, List.length_cons, others.length, six]
        omega
      · rw [List.append_assoc]
        exact others.accounted
    · -- The slot is free, allocated or queued by the process itself, so it stays.
      have step : k.freeQueuedStack slot = .ok k := by
        unfold Kernel.freeQueuedStack Kernel.getCurrentProcess
        rw [current]
        cases state : k.kernelStacks slot with
        | free => rfl
        | allocated pid => rfl
        | queuedToFree pid =>
          rw [state] at freeable
          have mine : pid = self.pid := by simpa [StackState.isFreeable] using freeable
          exact if_pos mine
      obtain ⟨next, freed, done, others⟩ := ih nodup current accounted
      refine ⟨next, freed, by rw [step]; exact done, ?_⟩
      rw [List.filter_cons, if_neg freeable]
      exact others

/-- `free_queued_stacks` gives back the frames of the slots it frees. -/
theorem Kernel.freeQueuedStacks_accounted {k next : Kernel} {free : List Nat}
    (current : k.processTable k.currentProcess = some self)
    (accounted : k.resources.Accounted roots free managed) (done : k.freeQueuedStacks = .ok next) :
    ∃ freed, StacksFreed k next roots free managed
      ((List.finRange maxProcesses).filter fun slot =>
        (k.kernelStacks slot).isFreeable self.pid).length freed := by
  obtain ⟨other, freed, result, others⟩ := Kernel.freeQueued_accounted (List.finRange maxProcesses)
    (List.nodup_finRange _) current accounted
  rw [Kernel.freeQueuedStacks, result, Except.ok.injEq] at done
  exact ⟨freed, done ▸ others⟩

end Queue

end AtOS
