import AtOS.Loader.BuildsImage
import AtOS.Paging.Kept

/-! What `load_elf` leaves alone: every address space that was there before. -/

namespace AtOS

open ByteMemory RadixForest

/-- `load_elf` makes an address space out of free frames, and touches no other. -/
def LoadsFresh (bytes : List UInt8) : Prop :=
  ∀ alloc roots free managed entry sp root after, Owned alloc roots free managed →
    loadElf bytes alloc = .ok (.ok (entry, sp, root), after) →
    root ∉ roots ∧ Kept alloc.mem after.mem roots ∧
      ∃ rest, Owned after (insert root roots) rest managed

section Loading

variable {alloc after : PageAllocator} {roots : Set Nat} {free taken rest : List Nat}
  {managed : Set Nat} {bytes : List UInt8} {header : Elf64Hdr} {root : Nat} {spill : Set Nat}

/-- An image keeps the address spaces that were there. -/
theorem ImageLoaded.kept_all
    (image : ImageLoaded alloc after roots free managed bytes (header.segments bytes) root spill taken
      rest) (owned : Owned alloc roots free managed) : Kept alloc.mem after.mem roots := by
  intro owner live node member
  refine image.loading.kept node (owned.node_managed live member) fun used => ?_
  refine owned.apart owner live node member ?_
  rw [image.free_eq, ← List.cons_append]
  exact List.mem_append_left _ used

/-- A well-formed file whose zeroing stays in its pages is loaded into fresh frames. -/
theorem WellFormedElf.loadsFresh (wellFormed : WellFormedElf bytes header)
    (contained : ∀ ph ∈ header.segments bytes, ph.Contained) : LoadsFresh bytes := by
  intro alloc roots free managed entry sp root after owned done
  obtain ⟨spill, taken, rest, -, image⟩ := loadElf_loaded owned wellFormed (Or.inl contained) done
  exact ⟨image.fresh, image.kept_all owned, rest, image.loading.owned⟩

end Loading

end AtOS
