import AtOS.Resources.Spaces

/-! `fork` with all it takes: a copy of the address space, a kernel stack, a pid and an entry. -/

namespace AtOS

open ByteMemory RadixForest SlotTable

variable {k next : Kernel} {self child : Process} {roots : Set Nat} {free : List Nat}
  {managed : Set Nat} {inKernel : UInt64 → Bool}

section Stack

/-- The only stack of a process is the one that is found for it. -/
theorem Resources.SlotsOwned.active (owned : k.resources.SlotsOwned) {stack : Fin maxProcesses}
    {pid : UInt64} (here : k.kernelStacks stack = .allocated pid) :
    k.getActiveStackIndex pid = some stack := by
  cases found : k.getActiveStackIndex pid with
  | none => exact absurd here (Kernel.getActiveStackIndex_none.mp found stack)
  | some other => rw [owned.alone (Kernel.getActiveStackIndex_some found) here]

/-- The address of a stack's top is a word. -/
theorem kernelStackTop_toNat (stack : Fin maxProcesses) :
    (UInt64.ofNat (kernelStackTop stack)).toNat = kernelStackTop stack := by
  have bound := stack.isLt
  rw [UInt64.toNat_ofNat', Nat.mod_eq_of_lt]
  simp only [kernelStackTop, kernelStackStart, kernelStackRegionStart, kernelStackSize, maxProcesses]
    at bound ⊢
  omega

/-- A process that was interrupted in its program uses nothing of its kernel stack. -/
theorem Kernel.getStackUsage_top {pid : UInt64} {stack : Fin maxProcesses}
    (active : k.getActiveStackIndex pid = some stack) :
    k.getStackUsage pid (kernelStackTop stack) = .ok 0 := by
  rw [Kernel.getStackUsage, Kernel.getStackTop_eq, active]
  dsimp only
  rw [if_neg (Nat.lt_irrefl _), Nat.sub_self]

/-- Copying nothing of a stack does nothing. -/
theorem copyStack_zero (src dst kernelL1 : Nat) (alloc : PageAllocator) :
    copyStack src dst 0 kernelL1 alloc = .ok alloc := rfl

end Stack

/-- A process whose kernel stack pointer is the top of its only stack. -/
structure Kernel.OnTop (k : Kernel) (process : Process) (stack : Fin maxProcesses) : Prop where
  allocated : k.kernelStacks stack = .allocated process.pid
  top : process.pctx.spEl1 = UInt64.ofNat (kernelStackTop stack)

/-- `duplicate_stack` for a process on top of its stack gives the child a stack of its own. -/
theorem Kernel.OnTop.duplicateStack {stack : Fin maxProcesses} {destPid : UInt64}
    (owned : k.resources.SlotsOwned) (onTop : k.OnTop self stack)
    (inactive : k.getActiveStackIndex destPid = none) :
    k.duplicateStack self.pid destPid self.pctx.spEl1 = k.allocStack destPid := by
  -- The child has no stack, so a new one is allocated for it.
  rw [Kernel.duplicateStack_eq, Kernel.getStackTop_eq, inactive]
  dsimp only
  cases result : k.allocStack destPid with
  | error stop => rfl
  | ok value =>
    obtain ⟨value, mid⟩ := value
    cases value with
    | error error => rfl
    | ok top =>
      obtain ⟨slot, allocated⟩ := Kernel.allocStack_ok result
      -- The parent's own stack is still the one it had.
      have still : mid.kernelStacks stack = .allocated self.pid := by
        rw [allocated.kernelStacks, Function.update_of_ne]
        · exact onTop.allocated
        · rintro rfl
          have here := onTop.allocated
          rw [allocated.free] at here
          cases here
      have active : mid.getActiveStackIndex self.pid = some stack := by
        cases found : mid.getActiveStackIndex self.pid with
        | none => exact absurd still (Kernel.getActiveStackIndex_none.mp found stack)
        | some other =>
          have there := Kernel.getActiveStackIndex_some found
          rw [allocated.kernelStacks, Function.update_apply] at there
          split at there
          · rw [StackState.allocated.injEq] at there
            exact absurd (there ▸ onTop.allocated) (Kernel.getActiveStackIndex_none.mp inactive stack)
          · rw [owned.alone there onTop.allocated]
      -- The parent is at the top of its stack, so there is nothing to copy.
      dsimp only
      unfold Kernel.copyActiveStack
      rw [onTop.top, kernelStackTop_toNat, Kernel.getStackUsage_top active]
      dsimp only
      rw [copyStack_zero]
      simp

/-- What a `fork` that succeeds has taken from the free list, and what it leaves as it was. -/
structure Kernel.ForkOwns (k : Kernel) (process child : Process) (roots : Set Nat)
    (free : List Nat) (managed : Set Nat) (root : Nat) (copy : PageAllocator) (next : Kernel)
    (used taken rest : List Nat) : Prop where
  six : taken.length = 6
  fresh : root ∉ insert k.kernelL1 roots
  space : SpaceDuplicated k.alloc copy (insert k.kernelL1 roots) free managed
    process.pctx.ttbr0.toNat root used (taken ++ rest)
  accounted : next.resources.Accounted (insert root roots) rest managed
  /-- Giving the child a kernel stack touches no address space of a program. -/
  kept : Kept copy.mem next.alloc.mem (insert root roots)
  context : child.pctx =
    { process.pctx with ttbr0 := UInt64.ofNat root, spEl1 := child.pctx.spEl1 }
  stack : ∃ slot, k.kernelStacks slot = .free ∧
    next.kernelStacks = Function.update k.kernelStacks slot (.allocated child.pid) ∧
    child.pctx.spEl1 = UInt64.ofNat (kernelStackTop slot)

section Copies

variable {root : Nat} {copy : PageAllocator} {used taken rest : List Nat}

/-- A `fork` touches no address space of a program. -/
theorem Kernel.ForkOwns.kept_all
    (owns : k.ForkOwns self child roots free managed root copy next used taken rest)
    (owned : Owned k.alloc (insert k.kernelL1 roots) free managed) :
    Kept k.alloc.mem next.alloc.mem roots :=
  ((owns.space.kept_all owned).mono (Set.subset_insert _ _)).trans
    (owns.kept.mono (Set.subset_insert _ _))

/-- The child has the frames that were free first. -/
theorem Kernel.ForkOwns.nodes_iff
    (owns : k.ForkOwns self child roots free managed root copy next used taken rest)
    (owned : Owned k.alloc (insert k.kernelL1 roots) free managed) {node : Nat} :
    node ∈ nodes (AtOS.child next.alloc.mem) 3 root ↔ node ∈ root :: used := by
  rw [owns.kept.nodes (Set.mem_insert _ _), owns.space.nodes_iff owned]

/-- They are as many as its parent has. -/
theorem Kernel.ForkOwns.ncard
    (owns : k.ForkOwns self child roots free managed root copy next used taken rest)
    (owned : Owned k.alloc (insert k.kernelL1 roots) free managed)
    (live : self.pctx.ttbr0.toNat ∈ roots) :
    (nodes (AtOS.child next.alloc.mem) 3 root).ncard =
      (nodes (AtOS.child k.alloc.mem) 3 self.pctx.ttbr0.toNat).ncard := by
  -- No frame is free twice, so none is counted twice.
  have nodup := owned.nodup
  rw [owns.space.free_eq, ← List.cons_append] at nodup
  rw [← length_of_nodup (List.nodup_append.mp nodup).1 fun node => (owns.nodes_iff owned).symm]
  exact owns.space.length owned (Set.mem_insert_of_mem _ live)

end Copies

/-- The resources of a `fork` whose pid and process table entry are left aside. -/
structure Kernel.HasFrames (k : Kernel) (process : Process) : Prop where
  /-- The child needs as many frames as its parent has, and six for its kernel stack. -/
  frames : (nodes (AtOS.child k.alloc.mem) 3 process.pctx.ttbr0.toNat).ncard + 6 ≤ k.alloc.freeFrameCount
  stack : ∃ slot, k.kernelStacks slot = .free
  pid : k.nextPid.toNat + 1 < 2 ^ 64

section Fork

variable {stack : Fin maxProcesses}

/-- The kernel in which `fork` asks for a stack, after it has copied the address space. -/
theorem Resources.Accounted.copied {copy : PageAllocator} {root : Nat} {used rest : List Nat}
    (accounted : k.resources.Accounted roots free managed)
    (space : SpaceDuplicated k.alloc copy (insert k.kernelL1 roots) free managed
      self.pctx.ttbr0.toNat root used rest) (pid : UInt64) :
    root ∉ insert k.kernelL1 roots ∧
      Kernel.resources { k with alloc := copy, nextPid := pid } =
        { k.resources with alloc := copy } ∧
      ({ k.resources with alloc := copy } : Resources).Accounted (insert root roots) rest managed :=
  ⟨space.fresh accounted.owned, rfl,
    accounted.addSpace (space.fresh accounted.owned) (space.kept_all accounted.owned) space.owned⟩

/-- A `fork` that succeeds owns what it has taken. -/
theorem Kernel.forkProcess_owns (accounted : k.resources.Accounted roots free managed)
    (owned : k.resources.SlotsOwned) (onTop : k.OnTop self stack)
    (live : self.pctx.ttbr0.toNat ∈ roots)
    (inactive : ∀ other, k.kernelStacks other ≠ .allocated k.nextPid)
    (done : k.forkProcess self = .ok (.ok child, next)) :
    ∃ root copy used taken rest,
      k.ForkOwns self child roots free managed root copy next used taken rest := by
  -- The copy comes first, and the stack is taken from what it leaves.
  have pid := (Kernel.forkProcess_ok done).pid
  obtain ⟨root, copy, takes⟩ := Kernel.forkProcess_takes done
  have ownedAll : Owned k.alloc (insert k.kernelL1 roots) free managed := accounted.owned
  have outcome := duplicateVaSpace_spec ownedAll (Set.mem_insert_of_mem _ live)
  rw [takes.space] at outcome
  cases outcome with
  | done copied =>
    obtain ⟨used, left, space⟩ := copied
    obtain ⟨fresh, same, middle⟩ := accounted.copied space (k.nextPid + 1)
    have none : Kernel.getActiveStackIndex { k with alloc := copy, nextPid := k.nextPid + 1 }
        child.pid = none := Kernel.getActiveStackIndex_none.mpr (pid ▸ inactive)
    have duplicated := takes.stack
    rw [@Kernel.OnTop.duplicateStack { k with alloc := copy, nextPid := k.nextPid + 1 } self stack
      child.pid (owned.congr rfl fun _ alive => alive) ⟨onTop.allocated, onTop.top⟩ none] at duplicated
    -- The stack was allocated, so it was free.
    obtain ⟨slot, allocated⟩ := Kernel.allocStack_ok duplicated
    obtain ⟨taken, rest, took⟩ := allocated.taken (same ▸ middle)
    refine ⟨root, copy, used, taken, rest, took.six, fresh, ?_, took.accounted, took.kept,
      takes.context, slot, allocated.free, allocated.kernelStacks, allocated.top_eq⟩
    rw [← took.free_eq]
    exact space

/-- A process on top of its stack can fork exactly if there are frames, a stack and a pid. -/
theorem Kernel.forkProcess_iff (accounted : k.resources.Accounted roots free managed)
    (owned : k.resources.SlotsOwned) (onTop : k.OnTop self stack)
    (live : self.pctx.ttbr0.toNat ∈ roots)
    (inactive : ∀ other, k.kernelStacks other ≠ .allocated k.nextPid) :
    (∃ child next, k.forkProcess self = .ok (.ok child, next)) ↔ k.HasFrames self := by
  have count : k.alloc.freeFrameCount = free.length := accounted.owned.count
  -- A fork that succeeds has used that many frames.
  constructor
  · rintro ⟨child, next, done⟩
    obtain ⟨root, copy, used, taken, rest, owns⟩ :=
      Kernel.forkProcess_owns accounted owned onTop live inactive done
    obtain ⟨slot, vacant, -⟩ := owns.stack
    refine ⟨?_, ⟨slot, vacant⟩, (Kernel.forkProcess_ok done).room⟩
    have size := owns.space.length accounted.owned (Set.mem_insert_of_mem _ live)
    have six := owns.six
    rw [count, owns.space.free_eq, ← size]
    simp only [List.length_cons, List.length_append]
    omega
  · -- With the frames, the slot and the pid at hand, no stage of the fork fails.
    intro room
    have ownedAll : Owned k.alloc (insert k.kernelL1 roots) free managed := accounted.owned
    have outcome := duplicateVaSpace_spec ownedAll (Set.mem_insert_of_mem k.kernelL1 live)
    have frames := room.frames
    rw [count] at frames
    unfold Kernel.forkProcess
    generalize duplicateVaSpace self.pctx.ttbr0.toNat k.alloc = result at outcome
    cases outcome with
    | failed rolledBack =>
      obtain ⟨rest, rolledBack⟩ := rolledBack
      have few : free.length < (nodes (AtOS.child k.alloc.mem) 3 self.pctx.ttbr0.toNat).ncard :=
        rolledBack.few
      omega
    | @done root copy copied =>
      obtain ⟨used, left, space⟩ := copied
      obtain ⟨fresh, same, middle⟩ := accounted.copied space (k.nextPid + 1)
      have none : Kernel.getActiveStackIndex { k with alloc := copy, nextPid := k.nextPid + 1 }
          k.nextPid = none := Kernel.getActiveStackIndex_none.mpr inactive
      have duplicated := @Kernel.OnTop.duplicateStack
        { k with alloc := copy, nextPid := k.nextPid + 1 } self stack k.nextPid
        (owned.congr rfl fun _ alive => alive) ⟨onTop.allocated, onTop.top⟩ none
      have taken : Kernel.takePid { k with alloc := copy } =
          .ok (k.nextPid, { k with alloc := copy, nextPid := k.nextPid + 1 }) := if_pos room.pid
      dsimp only
      rw [taken]
      dsimp only
      rw [duplicated]
      have size := space.length accounted.owned (Set.mem_insert_of_mem _ live)
      have whole := congrArg List.length space.free_eq
      simp only [List.length_cons, List.length_append] at size whole
      -- A slot is free, so the stack is not refused.
      obtain ⟨slot, vacant⟩ := room.stack
      rcases Kernel.allocStack_total (same ▸ middle) none with
        ⟨top, next, other, took, rest, result, -⟩ | ⟨error, -, full⟩ | ⟨message, -, few⟩
      · rw [result]
        exact ⟨_, _, rfl⟩
      · exact absurd vacant (full slot)
      · omega

end Fork

end AtOS
