import AtOS.Resources.StackCount
import AtOS.Resources.WholeForks

/-! How many forks there is enough of everything for, and that each fork takes one of them. -/

namespace AtOS

open RadixForest SlotTable

variable {files : String → Option (List UInt8)} {m : Machine} {k mid next : Kernel}
  {self child : Process} {ctx : ExceptionContext} {devices : Devices} {handled : Handled}
  {inKernel : UInt64 → Bool} {size count : Nat} {roots : Set Nat} {free : List Nat}
  {managed : Set Nat}

def StackState.isFree : StackState → Bool
  | .free => true
  | _ => false

/-- There is enough of everything for a number of forks of address spaces up to a size. -/
structure Kernel.Affords (k : Kernel) (size count : Nat) : Prop where
  spaces : ∀ {pid held}, k.resources.holding pid = some held →
    (nodes (AtOS.child k.alloc.mem) 3 held.ttbr0.toNat).ncard ≤ size
  frames : count * (size + 6) ≤ k.alloc.freeFrameCount
  unused : count ≤ (k.stacksIn StackState.isFree).card
  slots : count ≤ k.vacantSlots.card
  pids : k.nextPid.toNat + count < 2 ^ 64

/-- Replacing an entry by another one vacates no slot, and takes up none. -/
theorem Kernel.vacantSlots_replaced {slot : Fin maxProcesses} {process changed : Process}
    (here : k.processTable slot = some process)
    (table : next.processTable = put k.processTable slot (some changed)) :
    next.vacantSlots = k.vacantSlots := by
  ext other
  rw [Kernel.mem_vacantSlots, Kernel.mem_vacantSlots, table]
  by_cases isSlot : other = slot
  · subst isSlot
    simp [here]
  · rw [put_of_ne _ _ _ isSlot]

/-- What there is enough of depends on the resources, the empty slots and the pids. -/
theorem Kernel.Affords.congr (affords : k.Affords size count)
    (resources : next.resources = k.resources) (slots : next.vacantSlots = k.vacantSlots)
    (nextPid : next.nextPid = k.nextPid) : next.Affords size count := by
  have alloc : next.alloc = k.alloc := congrArg Resources.alloc resources
  have kernelStacks : next.kernelStacks = k.kernelStacks :=
    congrArg Resources.kernelStacks resources
  constructor
  · rw [resources, alloc]
    exact affords.spaces
  · rw [alloc]
    exact affords.frames
  · rw [Kernel.stacksIn, kernelStacks]
    exact affords.unused
  · rw [slots]
    exact affords.slots
  · rw [nextPid]
    exact affords.pids

/-- Entering an exception takes nothing. -/
theorem Machine.Traps.affords (traps : m.Traps files self ctx devices mid handled)
    (owns : m.Owns roots free managed) (quiet : devices.uartReady = false)
    (affords : m.kernel.Affords size count) : mid.Affords size count := by
  -- Entering the kernel frees what others have queued and takes nothing.
  obtain ⟨kept, frees⟩ := traps.kept owns
  obtain ⟨changed, -⟩ := traps.runs.entered_stacks traps.fromUser traps.entry
  obtain ⟨table, -, nextPid⟩ := traps.runs.entered_quiet traps.fromUser quiet traps.entry
  obtain ⟨own, mine, sameTable⟩ := (owns.based traps.base.2).table
  constructor
  · -- The current process has the tables it had, and so has everybody else.
    intro pid held holds
    rw [traps.holding, Function.update_apply] at holds
    split at holds
    · rw [Option.some.injEq] at holds
      subst holds
      rw [← sameTable, kept.nodes (owns.sound.assigned.live mine)]
      exact affords.spaces mine
    · rw [kept.nodes (owns.sound.assigned.live holds)]
      exact affords.spaces holds
  · exact affords.frames.trans frees
  · -- A slot that was free before is not touched by the entry.
    refine affords.unused.trans (Finset.card_le_card fun stack isFree => ?_)
    rw [Kernel.mem_stacksIn] at isFree ⊢
    rw [changed]
    dsimp only
    cases state : m.kernel.kernelStacks stack with
    | free => rfl
    | allocated pid => simp [state, StackState.isFree] at isFree
    | queuedToFree pid => simp [state, StackState.isFree] at isFree
  · -- The process table has the same empty slots.
    rw [Kernel.vacantSlots_replaced traps.runs.current table]
    exact affords.slots
  · rw [nextPid]
    exact affords.pids

section Fork

variable {stack : Fin maxProcesses}

/-- A process for whose fork there is enough can fork. -/
theorem Kernel.Affords.forks (affords : k.Affords size (count + 1)) (runs : k.Runs inKernel self)
    (sound : k.resources.Sound roots free managed) (onTop : k.OnTop self stack) :
    (∃ child next, k.forkProcess self = .ok (.ok child, next)) ∧
      ∃ slot, k.processTable slot = none := by
  have live : self.pctx.ttbr0.toNat ∈ roots := sound.assigned.live runs.holding
  -- The next pid is nobody's, so it has no stack.
  have inactive : ∀ other, k.kernelStacks other ≠ .allocated k.nextPid := by
    intro other here
    have alive := sound.assigned.slots.alive here
    rw [runs.fresh_holding] at alive
    cases alive
  constructor
  · rw [Kernel.forkProcess_iff sound.accounted sound.assigned.slots onTop live inactive]
    -- Six frames for a stack and one address space are set aside for each child.
    have small := affords.spaces runs.holding
    have frames := affords.frames
    have pids := affords.pids
    rw [Nat.succ_mul] at frames
    obtain ⟨slot, isFree⟩ := Finset.card_pos.mp (Nat.zero_lt_of_lt affords.unused)
    rw [Kernel.mem_stacksIn] at isFree
    refine ⟨?_, ⟨slot, ?_⟩, by omega⟩
    · show (nodes (AtOS.child k.alloc.mem) 3 self.pctx.holding.ttbr0.toNat).ncard + 6 ≤ _
      omega
    · cases state : k.kernelStacks slot with
      | free => rfl
      | allocated pid => simp [state, StackState.isFree] at isFree
      | queuedToFree pid => simp [state, StackState.isFree] at isFree
  · -- One slot of the process table is left for the child.
    obtain ⟨slot, vacant⟩ := Finset.card_pos.mp (Nat.zero_lt_of_lt affords.slots)
    exact ⟨slot, Kernel.mem_vacantSlots.mp vacant⟩

/-- After a fork there is still enough for one fork less. -/
theorem Kernel.Affords.forked (affords : k.Affords size (count + 1)) (runs : k.Runs inKernel self)
    (sound : k.resources.Sound roots free managed) (onTop : k.OnTop self stack)
    (forks : k.forkProcess self = .ok (.ok child, mid)) {slot : Fin maxProcesses}
    {entry : Process} (vacant : k.processTable slot = none)
    (table : next.processTable = put k.processTable slot (some entry))
    (nextPid : next.nextPid = k.nextPid + 1)
    (resources : next.resources = { mid.resources with
      holding := Function.update k.resources.holding child.pid (some child.pctx.holding) }) :
    next.Affords size count := by
  have live : self.pctx.ttbr0.toNat ∈ roots := sound.assigned.live runs.holding
  have liveAll : self.pctx.ttbr0.toNat ∈ insert k.kernelL1 roots := Set.mem_insert_of_mem _ live
  -- What the fork has taken is known from its own specification.
  have pid := (Kernel.forkProcess_ok forks).pid
  have inactive : ∀ other, k.kernelStacks other ≠ .allocated child.pid :=
    runs.child_inactive sound.assigned.slots forks
  have owned : Owned k.alloc (insert k.kernelL1 roots) free managed := sound.accounted.owned
  obtain ⟨root, copy, used, taken, rest, owns⟩ :=
    Kernel.forkProcess_owns sound.accounted sound.assigned.slots onTop live (pid ▸ inactive) forks
  have alloc : next.alloc = mid.alloc := congrArg Resources.alloc resources
  have small := affords.spaces runs.holding
  have small : (nodes (AtOS.child k.alloc.mem) 3 self.pctx.ttbr0.toNat).ncard ≤ size := small
  have length := owns.space.length owned liveAll
  have ownedCopy : Owned copy (insert root (insert k.kernelL1 roots)) (taken ++ rest) managed :=
    owns.space.owned
  have isRoot : child.pctx.holding.ttbr0.toNat = root := by
    have ttbr0 : child.pctx.ttbr0 = UInt64.ofNat root := congrArg ProcessContext.ttbr0 owns.context
    show child.pctx.ttbr0.toNat = root
    rw [ttbr0]
    exact ownedCopy.root_fits (Set.mem_insert _ _)
  constructor
  · -- Nobody's address space has grown, and the child's is as large as its parent's.
    intro other held holds
    rw [resources, alloc] at *
    dsimp only at holds
    rw [Function.update_apply] at holds
    split at holds
    · rw [Option.some.injEq] at holds
      subst holds
      -- The copy has as many frames as the original.
      rw [isRoot, owns.ncard owned live]
      exact small
    · have alive := sound.assigned.live holds
      rw [(owns.kept_all owned).nodes alive]
      exact affords.spaces holds
  · -- The frames that were set aside cover the copy and the stack.
    have before : k.alloc.freeFrameCount = free.length := owned.count
    have after : mid.alloc.freeFrameCount = rest.length := owns.accounted.owned.count
    have frames := affords.frames
    have whole := congrArg List.length owns.space.free_eq
    have six := owns.six
    rw [alloc, after]
    rw [before, Nat.succ_mul] at frames
    simp only [List.length_cons, List.length_append] at whole length
    omega
  · -- One free stack is gone, and one empty slot.
    obtain ⟨given, isFree, changed, -⟩ := owns.stack
    have kernelStacks : next.kernelStacks = mid.kernelStacks :=
      congrArg Resources.kernelStacks resources
    have subset : (k.stacksIn StackState.isFree).erase given ⊆
        next.stacksIn StackState.isFree := by
      intro other member
      obtain ⟨distinct, member⟩ := Finset.mem_erase.mp member
      rw [Kernel.mem_stacksIn] at member ⊢
      rwa [kernelStacks, changed, Function.update_of_ne distinct]
    have less := Finset.card_le_card subset
    have enough := affords.unused
    have mine : given ∈ k.stacksIn StackState.isFree := by
      rw [Kernel.mem_stacksIn, isFree]
      rfl
    rw [Finset.card_erase_of_mem mine] at less
    omega
  · have subset : k.vacantSlots.erase slot ⊆ next.vacantSlots := by
      intro other member
      obtain ⟨distinct, member⟩ := Finset.mem_erase.mp member
      rw [Kernel.mem_vacantSlots] at member ⊢
      rwa [table, put_of_ne _ _ _ distinct]
    have less := Finset.card_le_card subset
    have enough := affords.slots
    rw [Finset.card_erase_of_mem (Kernel.mem_vacantSlots.mpr vacant)] at less
    omega
  · -- The counter has gone up by one.
    have pids := affords.pids
    have small : (k.nextPid + 1).toNat = k.nextPid.toNat + 1 := by
      rw [UInt64.toNat_add, UInt64.toNat_one, Nat.mod_eq_of_lt (by omega)]
    rw [nextPid, small]
    omega

end Fork

end AtOS
