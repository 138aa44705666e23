import AtOS.Processes.Starting
import AtOS.Resources.Owning

/-! Boot leaves the first process with a page table and a kernel stack of its own. -/

namespace AtOS

open ByteMemory RadixForest SlotTable

section Boot

variable {files : String → Option (List UInt8)} {start k next : Kernel} {m : Machine}
  {roots : Set Nat} {free : List Nat} {managed : Set Nat} {first limit : Nat}

/-- The first stack that is given out takes its frames from the free list. -/
theorem Kernel.StackAllocated.takesFirst {pid top : UInt64} {stack : Fin maxProcesses}
    (allocated : k.StackAllocated pid top stack next)
    (owned : Owned k.alloc (insert k.kernelL1 roots) free managed) (apart : k.kernelL1 ∉ roots)
    (unmapped : child k.alloc.mem k.kernelL1 (l1Index kernelStackRegionStart) = none)
    (vacant : ∀ slot, k.kernelStacks slot = .free) :
    ∃ taken rest, free = taken ++ rest ∧ taken.length = 8 ∧
      next.resources.Accounted roots rest managed := by
  -- The first stack brings the tables for all stacks with it.
  obtain ⟨taken, rest, table, free_eq, few, step⟩ :=
    allocated.first owned (Set.mem_insert _ _) unmapped
  have kernelL1 : next.kernelL1 = k.kernelL1 := by
    obtain ⟨_, _, _, _, rfl⟩ := allocated.next_eq
    rfl
  -- No other stack is in use yet.
  have entries : stackEntries next.kernelStacks = slotEntries stack stackPageIndices := by
    have none : stackEntries k.kernelStacks = ∅ := by
      ext index
      simp [stackEntries, vacant]
    rw [allocated.kernelStacks, stackEntries_allocated (vacant stack) (by simp), none, Set.empty_union]
  refine ⟨taken, rest, free_eq, few, ?_, ?_, table, ?_⟩
  · show Owned next.alloc (insert next.kernelL1 roots) rest managed
    rw [kernelL1]
    exact step.owned
  · show next.kernelL1 ∉ roots
    rw [kernelL1]
    exact apart
  · show StackTable next.alloc.mem next.kernelL1 table (stackEntries next.kernelStacks)
    rw [kernelL1, entries]
    exact step.there

/-- Nothing is assigned before the first process. -/
theorem Resources.Assigned.nothing {r : Resources} (vacant : ∀ slot, r.kernelStacks slot = .free)
    (nobody : ∀ pid, r.holding pid = none) : r.Assigned ∅ := by
  constructor
  case slots => exact ⟨fun here => by simp [vacant] at here, fun here => by simp [vacant] at here⟩
  case backed =>
    intro pid here
    simp [nobody] at here
  case live =>
    intro pid held here
    simp [nobody] at here
  case alone =>
    intro pid other held second here
    simp [nobody] at here
  case held =>
    intro root impossible
    cases impossible

/-- After boot, `init` owns what it holds. -/
theorem Machine.Booted.owns (booted : Machine.Booted files start m)
    (prepared : start.Prepared first limit)
    (loadsFresh : ∀ path bytes, files path = some bytes → LoadsFresh bytes) :
    ∃ roots free, m.Owns roots free (start.knownFrames first limit) := by
  have fresh := booted.fresh
  -- After the prepared kernel the file is loaded, a stack is allocated, and the arguments are
  -- pushed.
  obtain ⟨k, init, frame, bytes, root, loaded, last, stack, mid, file, spawned, takes, rfl⟩ :=
    booted.takes
  obtain ⟨entry, sp, loads, top, allocated, pushes⟩ := takes.loads
  obtain ⟨free, owned, -⟩ := prepared.owned
  -- The file loads fresh, so the image is a new space, and the kernel is as it was.
  obtain ⟨newRoot, kept, rest, ownedLoaded⟩ := loadsFresh _ _ file _ _ _ _ _ _ _ _ owned loads
  rw [Set.pair_comm] at ownedLoaded
  have apart : start.kernelL1 ∉ ({root} : Set Nat) := fun same => newRoot (by simpa using same.symm)
  have unmapped : child loaded.mem start.kernelL1 (l1Index kernelStackRegionStart) = none := by
    rw [child_congr (kept.tables rfl start.kernelL1 ⟨[], by simp, rfl⟩)]
    exact prepared.unmapped
  obtain ⟨taken, left, -, -, accounted⟩ :=
    allocated.takesFirst ownedLoaded apart unmapped fresh.kernelStacks
  -- The stack takes the tables and the pages that it needs.
  have ownedMid : Owned mid.alloc (insert mid.kernelL1 {root}) left _ := accounted.owned
  have fits : (UInt64.ofNat root).toNat = root :=
    ownedMid.root_fits (Set.mem_insert_of_mem _ rfl)
  -- The arguments are pushed to pages that `init` has.
  obtain ⟨pushed, -, holding⟩ := accounted.pushed
    (show (ProcessContext.new (UInt64.ofNat entry) (UInt64.ofNat sp) top
      (UInt64.ofNat root)).ttbr0.toNat ∈ ({root} : Set Nat) from fits) pushes
  have ttbr0 : init.pctx.ttbr0.toNat = root := by
    rw [show init.pctx.ttbr0 = UInt64.ofNat root from congrArg Holding.ttbr0 holding, fits]
  have spEl1 : init.pctx.spEl1 = top := congrArg Holding.spEl1 holding
  have holds := spawned.holding fresh
  have slots : k.kernelStacks = Function.update start.kernelStacks stack (.allocated 1) := by
    rw [takes.kernelStacks, allocated.kernelStacks, fresh.nextPid]
  -- Before that no process had anything.
  have nothing : Resources.Assigned { k.resources with
      kernelStacks := start.kernelStacks
      holding := fun _ => none } ∅ := .nothing fresh.kernelStacks fun _ => rfl
  have mine : k.resources.holding 1 = some init.pctx.holding := by
    rw [holds, Function.update_self]
  have final : k.resources.Accounted (insert init.pctx.holding.ttbr0.toNat ∅) left
      (start.knownFrames first limit) := by
    rw [show init.pctx.holding.ttbr0.toNat = root from ttbr0, insert_empty_eq]
    obtain ⟨_, _, _, _, same⟩ := allocated.next_eq
    refine pushed.congr takes.alloc ?_ ?_
    · show k.kernelL1 = mid.kernelL1
      rw [takes.kernelL1, same]
      rfl
    · show stackEntries k.kernelStacks = stackEntries mid.kernelStacks
      rw [takes.kernelStacks]
  -- So the only process has a space and a stack of its own.
  refine ⟨_, left, ⟨final, nothing.added rfl ?_ ?_ (fresh.kernelStacks stack) slots holds⟩, ?_⟩
  · intro other
    show start.kernelStacks other ≠ .allocated 1
    rw [fresh.kernelStacks]
    exact fun same => nomatch same
  · exact Set.notMem_empty _
  · -- Whoever goes on is `init`, on the stack that it has been given.
    intro pid base goesOn
    have holdsBase : k.resources.holding pid = some base := goesOn
    have isInit := holdsBase
    rw [holds, Function.update_apply] at isInit
    split at isInit
    · rename_i one
      rw [Option.some.injEq] at isInit
      subst one isInit
      refine ⟨⟨_, holdsBase, rfl⟩, stack, ?_, spEl1.trans allocated.top_eq⟩
      show k.kernelStacks stack = _
      rw [slots, Function.update_self]
    · cases isInit

end Boot

end AtOS
