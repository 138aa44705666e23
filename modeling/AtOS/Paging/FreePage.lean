import AtOS.Paging.AllocPage

/-! Unmapping a page: `free_page` clears one entry and returns one frame. -/

namespace AtOS

open ByteMemory RadixForest

/-- What `free_page` leaves behind when the page was mapped. -/
structure PageRemoved (alloc after : PageAllocator) (roots : Set Nat) (free : List Nat)
    (managed : Set Nat) (va root pa : Nat) : Prop where
  owned : Owned after roots (pa :: free) managed
  total : after.totalFrameCount = alloc.totalFrameCount
  walks : ∀ owner ∈ roots, ∀ path : List EntryIndex, path.length ≤ 3 →
    walk (child after.mem) owner path = if owner = root ∧ path = pagePath va then none
      else walk (child alloc.mem) owner path
  kept : ∀ other ∈ managed, other ∉ tables (child alloc.mem) 3 root → other ≠ pa →
    Set.EqOn after.mem alloc.mem (frame other)

section FreePage

variable {alloc : PageAllocator} {roots : Set Nat} {free : List Nat} {managed : Set Nat}
  {root va pa : Nat}

/-- A page that is not mapped is not freed. -/
theorem freePage_unmapped (unmapped : leafOf alloc.mem root va = none) :
    freePage va root alloc = alloc := by
  -- The walk stops at the first entry that is invalid, and so does the function.
  simp only [leafOf, pagePath, walk_cons, walk_nil, child] at unmapped
  unfold freePage
  by_cases first : IsValid (entry alloc.mem root (l1Index va))
  · simp only [first, if_true, Option.bind_some] at unmapped
    by_cases second : IsValid
        (entry alloc.mem (entry alloc.mem root (l1Index va) &&& addressMask) (l2Index va))
    · simp only [second, if_true, Option.bind_some] at unmapped
      have third : ¬ IsValid (entry alloc.mem (entry alloc.mem (entry alloc.mem root
          (l1Index va) &&& addressMask) (l2Index va) &&& addressMask) (l3Index va)) := by
        intro valid
        simp [valid] at unmapped
      simp [first, second, third]
    · simp [first, second]
  · simp [first]

/-- A mapped page has a table entry that holds its frame, and freeing it clears that entry. -/
theorem freePage_mapped (mapped : leafOf alloc.mem root va = some pa) :
    ∃ l3, walk (child alloc.mem) root [l1Index va, l2Index va] = some l3 ∧
      child alloc.mem l3 (l3Index va) = some pa ∧
      freePage va root alloc = addFreeFrame (ttbr1ToVa pa)
        { alloc with mem := setEntry alloc.mem l3 (l3Index va) 0 } := by
  rw [leafOf, show pagePath va = [l1Index va, l2Index va] ++ [l3Index va] from rfl,
    walk_snoc] at mapped
  -- A mapped page has tables all the way.
  cases reached : walk (child alloc.mem) root [l1Index va, l2Index va] with
  | none => simp [reached] at mapped
  | some l3 =>
    rw [reached] at mapped
    have found : child alloc.mem l3 (l3Index va) = some pa := mapped
    refine ⟨l3, rfl, found, ?_⟩
    -- The two upper entries are valid and name the tables of the walk.
    simp only [walk_cons, walk_nil] at reached
    obtain ⟨l2, first, reached⟩ := Option.bind_eq_some_iff.mp reached
    obtain ⟨below, second, same⟩ := Option.bind_eq_some_iff.mp reached
    cases same
    obtain ⟨valid₁, address₁⟩ := child_eq_some first
    obtain ⟨valid₂, address₂⟩ := child_eq_some second
    obtain ⟨valid₃, address₃⟩ := child_eq_some found
    simp [freePage, valid₁, valid₂, valid₃, address₁, address₂, address₃]

/-- `free_page` on a mapped page removes exactly that page and frees its frame. -/
theorem freePage_spec (owned : Owned alloc roots free managed) (live : root ∈ roots)
    (mapped : leafOf alloc.mem root va = some pa) :
    PageRemoved alloc (freePage va root alloc) roots free managed va root pa := by
  obtain ⟨l3, reached, found, result⟩ := freePage_mapped mapped
  -- Clearing the entry takes the page out of the tree,
  obtain ⟨detached, walks⟩ := owned.detach live rfl reached found
  have inTree : pa ∈ nodes (child alloc.mem) 3 root := node_of_walk (by simp) mapped
  have isFrame := owned.node_frame live inTree
  have stray : pa ∉ managed \ {pa} := fun inside => inside.2 rfl
  -- and pushing its frame takes it back into the free list.
  have pushed := detached.push isFrame stray
  have whole : insert pa (managed \ {pa}) = managed :=
    Set.insert_sdiff_self_of_mem (owned.node_managed live inTree)
  rw [whole] at pushed
  have isL3 := owned.node_frame live (node_of_walk (by simp) reached)
  rw [result]
  refine ⟨pushed, ?_, ?_, ?_⟩
  · rw [addFreeFrame_eq _ isFrame]
  · -- Of all paths, only the one to the page is gone.
    intro owner liveOwner path short
    rw [detached.push_walk isFrame stray liveOwner short, walks owner liveOwner path short]
    rfl
  · -- Besides the frame, only the last table is written.
    intro other member notTable distinct address inside
    have isOther := owned.frames other member
    have notL3 : other ≠ l3 := by
      rintro rfl
      exact notTable ⟨_, by simp, reached⟩
    exact (addFreeFrame_outside _ isFrame
      (frame_disjoint isOther isFrame distinct inside)).trans
      (setEntry_outside _ _ _ (frame_disjoint isOther isL3 notL3 inside))

end FreePage

end AtOS
