import AtOS.Loader.LoadsFresh
import AtOS.Resources.Sound

/-! What happens to address spaces: they are loaded, copied, written to and freed, one at a time. -/

namespace AtOS

open ByteMemory RadixForest SlotTable

section Args

variable {alloc last : PageAllocator} {roots : Set Nat} {free : List Nat} {managed : Set Nat}
  {args : List String} {pctx after : ProcessContext} {result : Except String Unit}

/-- Pushing arguments writes into the address space of the program only, if anywhere. -/
theorem initializeArgs_kept (owned : Owned alloc roots free managed)
    (live : pctx.ttbr0.toNat ∈ roots) (done : initializeArgs args pctx alloc = (result, after, last)) :
    Owned last roots free managed ∧ last.totalFrameCount = alloc.totalFrameCount ∧
      Kept alloc.mem last.mem (roots \ {pctx.ttbr0.toNat}) ∧ after.holding = pctx.holding := by
  rw [initializeArgs, pushArgsToStack] at done
  -- If there is no room for the arguments, nothing happens.
  cases made : argsImage args with
  | error error =>
    rw [made] at done
    cases done
    exact ⟨owned, rfl, Kept.refl _ _, rfl⟩
  | ok image =>
    obtain ⟨image, sp⟩ := image
    rw [made] at done
    dsimp only at done
    -- Otherwise bytes are copied to the stack of the process, where they change no table.
    obtain ⟨count, copied⟩ := copyToPages_spec owned live
      ((List.range (stackBufSize - sp)).map fun position => image (sp + position))
      (pctx.spEl0 - UInt64.ofNat (stackBufSize - sp)).toNat
    have kept := copied.kept_others owned live
    have owned := copied.owned owned live
    have total := congrArg PageAllocator.totalFrameCount copied.after_eq
    generalize copyToPages _ _ _ alloc = written at done kept owned total
    obtain ⟨written, next⟩ := written
    cases written with
    | error error =>
      cases done
      exact ⟨owned, total, kept, rfl⟩
    | ok value =>
      cases done
      exact ⟨owned, total, kept, rfl⟩

end Args

section Account

variable {r : Resources} {roots : Set Nat} {free : List Nat} {managed : Set Nat} {root : Nat}

/-- The kernel's own address space is not that of a program. -/
theorem Resources.Accounted.ne_kernel (accounted : r.Accounted roots free managed)
    (live : root ∈ roots) : r.kernelL1 ≠ root := fun same => accounted.apart (same ▸ live)

/-- Freeing the address space of a program gives back its frames. -/
theorem Resources.Accounted.freeSpace (accounted : r.Accounted roots free managed)
    (live : root ∈ roots) : ∃ freed,
      freed.length = (nodes (child r.alloc.mem) 3 root).ncard ∧
      (∀ pa, pa ∈ freed ↔ pa ∈ nodes (child r.alloc.mem) 3 root) ∧
      ({ r with alloc := freePageTable root r.alloc } : Resources).Accounted (roots \ {root})
        (freed ++ free) managed ∧
      Kept r.alloc.mem (freePageTable root r.alloc).mem (insert r.kernelL1 roots \ {root}) := by
  -- The root and its tables are freed, and all other spaces are kept.
  obtain ⟨freed, gone⟩ := freePageTable_spec accounted.owned (Set.mem_insert_of_mem _ live)
  have kept := gone.kept_others accounted.owned (Set.mem_insert_of_mem _ live)
  -- The table of the kernel is no space of a process.
  have apart := accounted.ne_kernel live
  have split : insert r.kernelL1 roots \ {root} = insert r.kernelL1 (roots \ {root}) :=
    Set.insert_sdiff_of_notMem _ (by simpa using apart)
  have owned := gone.owned
  rw [split] at owned
  refine ⟨freed, gone.length, gone.exact, ?_, kept⟩
  apply accounted.ofKept owned
  · exact fun inside => accounted.apart inside.1
  · exact kept.mono (Set.singleton_subset_iff.mpr ⟨Set.mem_insert _ _, apart⟩)
  · rfl
  · rfl

/-- A new address space that leaves the others alone joins the account. -/
theorem Resources.Accounted.addSpace (accounted : r.Accounted roots free managed)
    {after : PageAllocator} {rest : List Nat} (fresh : root ∉ insert r.kernelL1 roots)
    (kept : Kept r.alloc.mem after.mem (insert r.kernelL1 roots))
    (owned : Owned after (insert root (insert r.kernelL1 roots)) rest managed) :
    ({ r with alloc := after } : Resources).Accounted (insert root roots) rest managed := by
  rw [Set.insert_comm] at owned
  apply accounted.ofKept owned
  · rintro (same | live)
    · exact fresh (same ▸ Set.mem_insert _ _)
    · exact accounted.apart live
  · exact kept.mono (Set.singleton_subset_iff.mpr (Set.mem_insert _ _))
  · rfl
  · rfl

/-- Loading a program adds its address space to the account. -/
theorem Resources.Accounted.loaded (accounted : r.Accounted roots free managed)
    {bytes : List UInt8} (loadsFresh : LoadsFresh bytes) {entry sp : Nat} {after : PageAllocator}
    (loads : loadElf bytes r.alloc = .ok (.ok (entry, sp, root), after)) :
    root ∉ insert r.kernelL1 roots ∧ Kept r.alloc.mem after.mem (insert r.kernelL1 roots) ∧
      ∃ rest, ({ r with alloc := after } : Resources).Accounted (insert root roots) rest managed := by
  obtain ⟨fresh, kept, rest, owned⟩ := loadsFresh _ _ _ _ _ _ _ _ accounted.owned loads
  exact ⟨fresh, kept, rest, accounted.addSpace fresh kept owned⟩

/-- Pushing arguments for a program leaves the account as it is. -/
theorem Resources.Accounted.pushed (accounted : r.Accounted roots free managed)
    {args : List String} {pctx after : ProcessContext} {result : Except String Unit}
    {last : PageAllocator} (live : pctx.ttbr0.toNat ∈ roots)
    (done : initializeArgs args pctx r.alloc = (result, after, last)) :
    ({ r with alloc := last } : Resources).Accounted roots free managed ∧
      Kept r.alloc.mem last.mem (insert r.kernelL1 roots \ {pctx.ttbr0.toNat}) ∧
      after.holding = pctx.holding := by
  obtain ⟨owned, -, kept, holding⟩ :=
    initializeArgs_kept accounted.owned (Set.mem_insert_of_mem _ live) done
  refine ⟨?_, kept, holding⟩
  apply accounted.ofKept owned accounted.apart
  · exact kept.mono (Set.singleton_subset_iff.mpr ⟨Set.mem_insert _ _, accounted.ne_kernel live⟩)
  · rfl
  · rfl

end Account

end AtOS
