import AtOS.Paging.CopyToPages
import AtOS.Paging.FreePage

/-! Which entries of a root the operations on one of its pages leave alone, attributes included. -/

namespace AtOS

open ByteMemory RadixForest

/-- All entries of a table but one hold the same words. -/
def EntriesKept (before after : Mem) (table : Nat) (index : EntryIndex) : Prop :=
  ∀ other ≠ index, entry after table other = entry before table other

section Laws

variable {before middle after : Mem} {table : Nat} {index : EntryIndex}

/-- A table that is not written keeps its entries. -/
theorem EntriesKept.ofFrame (same : Set.EqOn after before (frame table)) (index : EntryIndex) :
    EntriesKept before after table index := fun other _ => entry_congr same other

/-- Changing nothing keeps the entries. -/
theorem EntriesKept.refl (mem : Mem) (table : Nat) (index : EntryIndex) :
    EntriesKept mem mem table index := .ofFrame (Set.eqOn_refl _ _) index

/-- Keeping entries composes. -/
theorem EntriesKept.trans (first : EntriesKept before middle table index)
    (second : EntriesKept middle after table index) : EntriesKept before after table index :=
  fun other distinct => (second other distinct).trans (first other distinct)

end Laws

section Operations

variable {alloc after : PageAllocator} {roots : Set Nat} {free : List Nat} {managed : Set Nat}
  {root va : Nat}

/-- What lies below a root is not the root. -/
theorem Owned.below_ne_root (owned : Owned alloc roots free managed) (live : root ∈ roots)
    {path : List EntryIndex} {node : Nat} (short : path.length ≤ 3) (below : path ≠ [])
    (reached : walk (child alloc.mem) root path = some node) : node ≠ root := by
  intro same
  have start : walk (child alloc.mem) root [] = some node := congrArg some same.symm
  exact below (owned.separate live live short (by simp) reached start).2

/-- A root is not on the free list. -/
theorem Owned.root_not_free (owned : Owned alloc roots free managed) (live : root ∈ roots) :
    root ∉ free := owned.apart root live root (root_mem_nodes root)

/-- Hanging in a second-level table writes one entry of the root. -/
theorem ensureTable_rootEntries (owned : Owned alloc roots free managed) (live : root ∈ roots)
    {index : EntryIndex} {message : String}
    (done : ensureTable root index message alloc = .ok after) :
    EntriesKept alloc.mem after.mem root index := by
  unfold ensureTable at done
  split at done
  · cases free with
    | nil => simp [owned.pop_nil] at done
    | cons pa rest =>
      obtain ⟨popped, pop, mem, -, -, isFrame, -⟩ := owned.pop
      rw [pop] at done
      cases done
      -- The frame that was popped is free, and a root is not.
      have apart : root ≠ pa := fun same => owned.root_not_free live (by simp [same])
      have isRoot := owned.node_frame live (root_mem_nodes root)
      intro other distinct
      -- The new table is cleared, and is not the root.
      have cleared : Set.EqOn (fill (setEntry popped.mem root index (pa ||| 0b11)) pa 4096 0)
          (setEntry popped.mem root index (pa ||| 0b11)) (frame root) := fun address inside =>
        fill_outside _ pa 4096 0 (frame_disjoint isRoot isFrame apart inside)
      show entry (fill (setEntry popped.mem root index (pa ||| 0b11)) pa 4096 0) root other = _
      rw [entry_congr cleared, entry_setEntry_of_ne _ _ _ distinct, mem]
  · cases done
    exact .refl _ _ _

/-- Hanging a table in below the root writes no entry of the root. -/
theorem TableEnsured.root_kept {path : List EntryIndex} {index : EntryIndex} {taken rest : List Nat}
    {table next : Nat}
    (ensured : TableEnsured alloc after roots free managed root table path index taken rest next)
    (owned : Owned alloc roots free managed) (live : root ∈ roots) (isTable : IsFrame table)
    (distinct : table ≠ root) : Set.EqOn after.mem alloc.mem (frame root) := by
  have isRoot := owned.node_frame live (root_mem_nodes root)
  intro address inside
  refine ensured.kept address (frame_disjoint isRoot isTable distinct.symm inside) ?_
  intro pa listed
  have member : pa ∈ free := ensured.free_eq ▸ List.mem_append_left _ listed
  refine frame_disjoint isRoot (owned.free_frame member) ?_ inside
  rintro rfl
  exact owned.root_not_free live member

/-- Mapping a page writes at most one entry of the root. -/
theorem allocPage_rootEntries (owned : Owned alloc roots free managed) (live : root ∈ roots)
    {pa : Nat} (done : allocPage va root alloc = .ok (pa, after)) :
    EntriesKept alloc.mem after.mem root (l1Index va) := by
  unfold allocPage at done
  split at done
  · cases done
  -- The page is mapped in three steps, of which the first alone may write the root.
  simp only [Bind.bind, Loop.bind_eq_ok, Pure.pure, Except.pure] at done
  obtain ⟨one, first, two, second, done⟩ := done
  obtain ⟨taken₁, free₁, l2, step₁⟩ := ensureTable_ok [] owned live (by simp) rfl first
  rw [step₁.address] at second done
  have reached₁ : walk (child one.mem) root [l1Index va] = some l2 := by
    rw [step₁.walks root live _ (by simp), if_pos ⟨rfl, rfl⟩]
  obtain ⟨taken₂, free₂, l3, step₂⟩ :=
    ensureTable_ok [l1Index va] step₁.owned live (by simp) reached₁ second
  rw [step₂.address] at done
  have reached₂ : walk (child two.mem) root [l1Index va, l2Index va] = some l3 := by
    rw [step₂.walks root live _ (by simp), if_pos ⟨rfl, rfl⟩]
  have isL2 := step₁.owned.node_frame live (node_of_walk (by simp) reached₁)
  have isL3 := step₂.owned.node_frame live (node_of_walk (by simp) reached₂)
  -- The lower tables are not the root.
  have notL2 := step₁.owned.below_ne_root live (by simp) (by simp) reached₁
  have notL3 := step₂.owned.below_ne_root live (by simp) (by simp) reached₂
  have upper := (ensureTable_rootEntries owned live first).trans
    (.ofFrame (step₂.root_kept step₁.owned live isL2 notL2) _)
  have isRoot := step₂.owned.node_frame live (root_mem_nodes root)
  -- The last step writes the third-level table.
  split at done
  · cases free₂ with
    | nil => simp [step₂.owned.pop_nil, throw, throwThe, MonadExceptOf.throw] at done
    | cons leaf rest =>
      obtain ⟨popped, pop, mem, -⟩ := step₂.owned.pop
      rw [pop] at done
      cases done
      refine upper.trans (.ofFrame (fun address inside => ?_) _)
      rw [← mem]
      exact setEntry_outside _ _ _ (frame_disjoint isRoot isL3 notL3.symm inside)
  · cases done

/-- Unmapping a page writes no entry of the root. -/
theorem freePage_rootEntries (owned : Owned alloc roots free managed) (live : root ∈ roots) :
    Set.EqOn (freePage va root alloc).mem alloc.mem (frame root) := by
  cases mapped : leafOf alloc.mem root va with
  | none =>
    rw [freePage_unmapped mapped]
    exact Set.eqOn_refl _ _
  | some pa =>
    obtain ⟨l3, reached, -, result⟩ := freePage_mapped mapped
    have isRoot := owned.node_frame live (root_mem_nodes root)
    have isL3 := owned.node_frame live (node_of_walk (by simp) reached)
    have isLeaf := owned.node_frame live (node_of_walk (by simp [pagePath]) mapped)
    have notL3 := owned.below_ne_root live (by simp) (by simp) reached
    have notLeaf := owned.below_ne_root live (by simp [pagePath]) (by simp [pagePath]) mapped
    intro address inside
    rw [result, addFreeFrame_outside _ isLeaf (frame_disjoint isRoot isLeaf notLeaf.symm inside)]
    exact setEntry_outside _ _ _ (frame_disjoint isRoot isL3 notL3.symm inside)

/-- Writing into pages writes no entry of the root. -/
theorem copyToPages_rootEntries (owned : Owned alloc roots free managed) (live : root ∈ roots)
    (data : List UInt8) (dst : Nat) :
    Set.EqOn (copyToPages data dst root alloc).2.mem alloc.mem (frame root) := by
  obtain ⟨done, copied⟩ := copyToPages_spec owned live data dst
  refine copied.kept owned live (owned.root_managed live) fun path full reached => ?_
  refine owned.below_ne_root live (Nat.le_of_eq full) ?_ reached rfl
  rintro rfl
  simp at full

end Operations

end AtOS
