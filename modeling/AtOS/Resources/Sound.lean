import AtOS.Resources.Reclaiming
import AtOS.Resources.StackFrames

/-! Every process that is alive owns its page table and its kernel stack, and nothing of another. -/

namespace AtOS

open ByteMemory RadixForest SlotTable

/-- Every process that is alive has a page table and a kernel stack, which are nobody else's. -/
structure Resources.Assigned (r : Resources) (roots : Set Nat) : Prop where
  slots : r.SlotsOwned
  backed : ∀ {pid}, (r.holding pid).isSome → ∃ stack, r.kernelStacks stack = .allocated pid
  live : ∀ {pid held}, r.holding pid = some held → held.ttbr0.toNat ∈ roots
  alone : ∀ {pid other held second}, r.holding pid = some held → r.holding other = some second →
    held.ttbr0 = second.ttbr0 → pid = other
  /-- No address space is left without its process. -/
  held : ∀ root ∈ roots, ∃ pid held, r.holding pid = some held ∧ held.ttbr0.toNat = root

/-- The account of the frames goes with what is assigned to processes. -/
structure Resources.Sound (r : Resources) (roots : Set Nat) (free : List Nat) (managed : Set Nat) :
    Prop where
  accounted : r.Accounted roots free managed
  assigned : r.Assigned roots

section Changes

variable {r after : Resources} {roots : Set Nat} {pid : UInt64} {held : Holding}

/-- The frames play no part in what is assigned. -/
theorem Resources.Assigned.congr (assigned : r.Assigned roots)
    (slots : after.kernelStacks = r.kernelStacks) (holding : after.holding = r.holding) :
    after.Assigned roots := by
  constructor
  case slots => exact assigned.slots.congr slots fun pid alive => holding ▸ alive
  case backed =>
    rw [holding, slots]
    exact assigned.backed
  case live =>
    rw [holding]
    exact assigned.live
  case alone =>
    rw [holding]
    exact assigned.alone
  case held =>
    rw [holding]
    exact assigned.held

/-- Registers may be saved again as long as they name the same page table. -/
theorem Resources.Assigned.resaved (assigned : r.Assigned roots) {saved : Holding}
    (holds : r.holding pid = some held) (same : saved.ttbr0 = held.ttbr0)
    (slots : after.kernelStacks = r.kernelStacks)
    (holding : after.holding = Function.update r.holding pid (some saved)) :
    after.Assigned roots := by
  -- Whoever holds something now held the same page table before.
  have before : ∀ {other now}, after.holding other = some now →
      ∃ was, r.holding other = some was ∧ was.ttbr0 = now.ttbr0 := by
    intro other now here
    rw [holding, Function.update_apply] at here
    split at here
    · rename_i isOther
      exact ⟨held, isOther ▸ holds, Option.some.inj here ▸ same.symm⟩
    · exact ⟨now, here, rfl⟩
  -- The same processes hold something.
  have alive : ∀ other, (after.holding other).isSome = (r.holding other).isSome := by
    intro other
    rw [holding]
    apply isSome_update
    rw [holds]
    rfl
  constructor
  case slots => exact assigned.slots.congr slots fun other here => (alive other).trans here
  case backed =>
    intro other here
    rw [slots]
    exact assigned.backed ((alive other).symm.trans here)
  case live =>
    intro other now here
    obtain ⟨was, there, equal⟩ := before here
    exact equal ▸ assigned.live there
  case alone =>
    intro first second now later here there equal
    obtain ⟨was, hereWas, equalHere⟩ := before here
    obtain ⟨had, thereWas, equalThere⟩ := before there
    exact assigned.alone hereWas thereWas (equalHere.trans (equal.trans equalThere.symm))
  case held =>
    intro root live
    obtain ⟨owner, was, there, isRoot⟩ := assigned.held root live
    by_cases isPid : owner = pid
    · subst isPid
      rw [holds, Option.some.injEq] at there
      refine ⟨owner, saved, ?_, ?_⟩
      · rw [holding, Function.update_self]
      · rw [same, there]
        exact isRoot
    · -- The owners of the other roots are as before.
      refine ⟨owner, was, ?_, isRoot⟩
      rw [holding, Function.update_of_ne isPid]
      exact there

/-- Freeing queued stacks takes nothing from a process that is alive. -/
theorem Resources.Assigned.freed (assigned : r.Assigned roots) {current : UInt64}
    (slots : after.kernelStacks = fun stack => (r.kernelStacks stack).afterFreeing current)
    (holding : after.holding = r.holding) : after.Assigned roots := by
  -- Only the states of stacks have changed, and no allocated one.
  constructor
  case slots => exact assigned.slots.freed slots fun other => by rw [holding]
  case backed =>
    intro other here
    rw [holding] at here
    obtain ⟨stack, there⟩ := assigned.backed here
    refine ⟨stack, ?_⟩
    rw [slots]
    exact StackState.allocated_afterFreeing.mpr there
  case live =>
    rw [holding]
    exact assigned.live
  case alone =>
    rw [holding]
    exact assigned.alone
  case held =>
    rw [holding]
    exact assigned.held

/-- A process that terminates gives up its page table and its kernel stack. -/
theorem Resources.Assigned.released (assigned : r.Assigned roots) {stack : Fin maxProcesses}
    (holds : r.holding pid = some held) (active : r.kernelStacks stack = .allocated pid)
    (slots : after.kernelStacks = Function.update r.kernelStacks stack (.queuedToFree pid))
    (holding : after.holding = Function.update r.holding pid none) :
    after.Assigned (roots \ {held.ttbr0.toNat}) := by
  -- Whoever holds something now is not the process that gives up, and held it before.
  have before : ∀ {other now}, after.holding other = some now →
      other ≠ pid ∧ r.holding other = some now := by
    intro other now here
    rw [holding, Function.update_apply] at here
    split at here
    · cases here
    · rename_i distinct
      exact ⟨distinct, here⟩
  constructor
  case slots =>
    refine assigned.slots.queued active slots fun owner distinct alive => ?_
    rwa [holding, Function.update_of_ne distinct]
  case backed =>
    intro other here
    obtain ⟨now, here⟩ := Option.isSome_iff_exists.mp here
    obtain ⟨distinct, there⟩ := before here
    obtain ⟨own, mine⟩ := assigned.backed (Option.isSome_iff_exists.mpr ⟨now, there⟩)
    refine ⟨own, ?_⟩
    rw [slots, Function.update_of_ne]
    · exact mine
    · -- The stack that is queued is the one of that process.
      rintro rfl
      rw [active, StackState.allocated.injEq] at mine
      exact distinct mine.symm
  case live =>
    intro other now here
    obtain ⟨distinct, there⟩ := before here
    refine ⟨assigned.live there, fun same => distinct ?_⟩
    exact assigned.alone there holds (UInt64.toNat_inj.mp same)
  case alone =>
    intro first second now later here there equal
    exact assigned.alone (before here).2 (before there).2 equal
  case held =>
    rintro root ⟨live, distinct⟩
    -- The other roots keep their owners.
    obtain ⟨owner, was, there, isRoot⟩ := assigned.held root live
    refine ⟨owner, was, ?_, isRoot⟩
    rw [holding, Function.update_of_ne]
    · exact there
    · rintro rfl
      rw [holds, Option.some.injEq] at there
      exact distinct (there ▸ isRoot.symm)

/-- A new process gets an address space and a kernel stack of its own. -/
theorem Resources.Assigned.added (assigned : r.Assigned roots) {stack : Fin maxProcesses}
    (vacant : r.holding pid = none) (inactive : ∀ other, r.kernelStacks other ≠ .allocated pid)
    (fresh : held.ttbr0.toNat ∉ roots) (unused : r.kernelStacks stack = .free)
    (slots : after.kernelStacks = Function.update r.kernelStacks stack (.allocated pid))
    (holding : after.holding = Function.update r.holding pid (some held)) :
    after.Assigned (insert held.ttbr0.toNat roots) := by
  -- Whoever holds something now is the new process, or held it before.
  have before : ∀ {other now}, after.holding other = some now →
      other = pid ∧ now = held ∨ r.holding other = some now := by
    intro other now here
    rw [holding, Function.update_apply] at here
    split at here
    · rename_i isPid
      exact Or.inl ⟨isPid, (Option.some.inj here).symm⟩
    · exact Or.inr here
  have still : ∀ {other now}, r.holding other = some now → after.holding other = some now := by
    intro other now there
    rw [holding, Function.update_of_ne]
    · exact there
    · rintro rfl
      rw [vacant] at there
      cases there
  have mine : after.holding pid = some held := by rw [holding, Function.update_self]
  constructor
  -- The new stack is for the new process, and the others are as they were.
  case slots =>
    refine assigned.slots.allocated inactive slots ?_
    rintro owner (alive | rfl)
    · obtain ⟨now, there⟩ := Option.isSome_iff_exists.mp alive
      rw [still there]
      rfl
    · rw [mine]
      rfl
  case backed =>
    intro other here
    obtain ⟨now, here⟩ := Option.isSome_iff_exists.mp here
    rcases before here with ⟨rfl, -⟩ | there
    · refine ⟨stack, ?_⟩
      rw [slots, Function.update_self]
    · obtain ⟨own, active⟩ := assigned.backed (Option.isSome_iff_exists.mpr ⟨now, there⟩)
      refine ⟨own, ?_⟩
      rw [slots, Function.update_of_ne]
      · exact active
      · -- The stack was free, so it is the own one of nobody.
        rintro rfl
        rw [unused] at active
        cases active
  case live =>
    intro other now here
    rcases before here with ⟨-, rfl⟩ | there
    · exact Set.mem_insert _ _
    · exact Set.mem_insert_of_mem _ (assigned.live there)
  case alone =>
    intro first second now later here there equal
    -- The new root is not one of the old ones, so nobody shares it.
    rcases before here with ⟨rfl, rfl⟩ | hereWas <;> rcases before there with ⟨rfl, rfl⟩ | thereWas
    · rfl
    · exact absurd (equal ▸ assigned.live thereWas) fresh
    · exact absurd (equal ▸ assigned.live hereWas) fresh
    · exact assigned.alone hereWas thereWas equal
  case held =>
    rintro root (rfl | live)
    · exact ⟨pid, held, mine, rfl⟩
    · obtain ⟨owner, was, there, isRoot⟩ := assigned.held root live
      exact ⟨owner, was, still there, isRoot⟩

end Changes

end AtOS
