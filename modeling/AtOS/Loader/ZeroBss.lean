import AtOS.Loader.SegmentPages

/-! Zeroing the rest of a segment, with the offset in the page added twice in its first page. -/

namespace AtOS

open ByteMemory RadixForest

section Fill

variable {start alloc : PageAllocator} {roots : Set Nat} {free : List Nat} {managed : Set Nat}
  {root : Nat} {pages spill : Set Nat} {taken rest : List Nat}

/-- The bytes a fill from a leaf on reaches behind the end of the leaf. -/
def overrun (leaf offset count : Nat) : Set Nat :=
  { address | leaf + 4096 ≤ address ∧ leaf + offset ≤ address ∧ address < leaf + offset + count }

/-- A fill that stays in its leaf, or runs over into no managed frame, meets no other frame. -/
theorem fill_apart {leaf node offset count : Nat} (leafManaged : leaf ∈ managed)
    (frames : ∀ pa ∈ managed, IsFrame pa) (short : offset + count ≤ 8192)
    (safe : offset + count ≤ 4096 ∨ Spaced managed) (member : node ∈ managed)
    (distinct : node ≠ leaf) {address : Nat} (inside : address ∈ frame node) :
    address ∉ block (leaf + offset) count := by
  have isLeaf := (frames leaf leafManaged).1
  have isNode := (frames node member).1
  have notNext : offset + count ≤ 4096 ∨ node ≠ leaf + 4096 := safe.imp_right fun spaced same =>
    spaced leaf leafManaged (same ▸ member)
  simp only [frame, block, Set.mem_Ico] at *
  omega

/-- Zeroing bytes from a leaf on keeps the ownership, all other frames, and all paths. -/
theorem Owned.filled (owned : Owned alloc roots free managed) (live : root ∈ roots)
    {va leaf offset count : Nat} (mapped : leafOf alloc.mem root va = some leaf)
    (short : offset + count ≤ 8192) (safe : offset + count ≤ 4096 ∨ Spaced managed) :
    Owned { alloc with mem := fill alloc.mem (leaf + offset) count 0 } roots free managed ∧
      (∀ node ∈ managed, node ≠ leaf →
        Set.EqOn (fill alloc.mem (leaf + offset) count 0) alloc.mem (frame node)) ∧
      ∀ owner ∈ roots, ∀ path : List EntryIndex, path.length ≤ 3 →
        walk (child (fill alloc.mem (leaf + offset) count 0)) owner path =
          walk (child alloc.mem) owner path := by
  obtain ⟨leafManaged, isLeaf⟩ := owned.leaf_managed live mapped
  have leafPlace : leaf ∈ nodes (child alloc.mem) 3 root :=
    node_of_walk (Nat.le_of_eq (pagePath_length va)) mapped
  -- Only the page and the frame behind it are written, and the latter is not managed.
  have same : ∀ node ∈ managed, node ≠ leaf →
      Set.EqOn (fill alloc.mem (leaf + offset) count 0) alloc.mem (frame node) :=
    fun node member distinct address inside => fill_outside _ _ _ _
      (fill_apart leafManaged owned.frames short safe member distinct inside)
  -- A leaf is no table, so the tables are among the frames that are kept.
  have tablesKept : ∀ owner ∈ roots, ∀ table ∈ tables (child alloc.mem) 3 owner,
      Set.EqOn (fill alloc.mem (leaf + offset) count 0) alloc.mem (frame table) := by
    intro owner liveOwner table inTree
    refine same table (owned.node_managed liveOwner (tables_subset_nodes owner inTree)) ?_
    rintro rfl
    exact owned.separate.leaf_not_table live liveOwner (pagePath_length va) mapped inTree
  refine ⟨owned.keep (fun pa listed => same pa (owned.free_managed listed) ?_) tablesKept, same,
    fun owner liveOwner path bound => walk_keep (tablesKept owner liveOwner) bound⟩
  rintro rfl
  exact owned.apart root live pa leafPlace listed

/-- Zeroing bytes from a leaf on changes bytes of that page, and of no other page. -/
theorem Loading.filled (loading : Loading start alloc roots free managed root pages spill taken rest)
    {va leaf offset count : Nat} (low : va < 2 ^ 39)
    (mapped : leafOf alloc.mem root va = some leaf) (short : offset + count ≤ 8192)
    (safe : offset + count ≤ 4096 ∨ Spaced managed) :
    Loading start { alloc with mem := fill alloc.mem (leaf + offset) count 0 } roots free managed
      root pages (spill ∪ overrun leaf offset count) taken rest ∧
    ∀ other < 2 ^ 39, byteAt (fill alloc.mem (leaf + offset) count 0) root other =
      if other / 4096 = va / 4096 ∧ offset ≤ other % 4096 ∧ other % 4096 < offset + count then
        some 0
      else byteAt alloc.mem root other := by
  obtain ⟨leafManaged, isLeaf⟩ := loading.owned.leaf_managed loading.live mapped
  have leafPlace : leaf ∈ nodes (child alloc.mem) 3 root :=
    node_of_walk (Nat.le_of_eq (pagePath_length va)) mapped
  obtain ⟨owned, same, paths⟩ := loading.owned.filled loading.live mapped short safe
  have walks : ∀ path : List EntryIndex, path.length ≤ 3 →
      walk (child (fill alloc.mem (leaf + offset) count 0)) root path =
        walk (child alloc.mem) root path := paths root loading.live
  have leaves : ∀ other, leafOf (fill alloc.mem (leaf + offset) count 0) root other =
      leafOf alloc.mem root other := fun other => walks _ (Nat.le_of_eq (pagePath_length other))
  refine ⟨⟨loading.free_eq, loading.nodup, owned, loading.total, ?_, ?_, ?_, ?_, ?_⟩, ?_⟩
  · -- Every page is where it was.
    intro other lowOther
    rw [leaves other]
    exact loading.mapped other lowOther
  · rintro pa ⟨path, bound, reached⟩
    rw [walks path bound] at reached
    exact loading.tree pa ⟨path, bound, reached⟩
  · -- Pages of others are not written,
    intro pa member outside
    have distinct : pa ≠ leaf := by
      rintro rfl
      exact outside (loading.tree pa leafPlace)
    exact (same pa member distinct).trans (loading.kept pa member outside)
  · -- and what is written beside the page is the end that spills.
    intro address inSpill apart
    by_cases filled : address ∈ block (leaf + offset) count
    · exact fill_inside _ _ _ _ filled
    · rcases inSpill with old | ended
      · exact (fill_outside _ _ _ _ filled).trans (loading.spilt address old apart)
      · exact absurd (by simpa [block] using ⟨ended.2.1, ended.2.2⟩) filled
  · intro address notSpill apart
    have outsideLeaf := apart leaf leafManaged
    have missed : address ∉ block (leaf + offset) count := by
      intro filled
      refine notSpill (Or.inr ?_)
      simp only [frame, block, Set.mem_Ico, overrun, Set.mem_ofPred_eq] at *
      omega
    exact (fill_outside _ _ _ _ missed).trans
      (loading.outside address (fun old => notSpill (Or.inl old)) apart)
  · -- An address of the page has been cleared or kept, and one of another page has been kept.
    intro other lowOther
    rw [byteAt_eq, byteAt_eq, leaves other]
    cases found : leafOf alloc.mem root other with
    | none =>
      -- The page of the leaf is mapped, so this is another page.
      have elsewhere : ¬ (other / 4096 = va / 4096 ∧ offset ≤ other % 4096 ∧
          other % 4096 < offset + count) := by
        rintro ⟨samePage, -⟩
        rw [leafOf, pagePath_of_page samePage] at found
        rw [leafOf, found] at mapped
        cases mapped
      rw [if_neg elsewhere, Option.map_none, Option.map_none]
    | some page =>
      simp only [Option.map_some]
      by_cases samePage : other / 4096 = va / 4096
      · have sameLeaf : page = leaf := by
          rw [leafOf, pagePath_of_page samePage] at found
          exact Option.some.inj (found.symm.trans mapped)
        subst sameLeaf
        by_cases inside : offset ≤ other % 4096 ∧ other % 4096 < offset + count
        · rw [if_pos ⟨samePage, inside⟩,
            fill_inside _ _ _ _ (by simp only [block, Set.mem_Ico]; omega)]
        · rw [if_neg (fun all => inside all.2),
            fill_outside _ _ _ _ (by simp only [block, Set.mem_Ico]; omega)]
      · -- Another page is another frame.
        have distinct : page ≠ leaf := by
          rintro rfl
          exact samePage (loading.owned.leaf_inj loading.live lowOther low found mapped)
        rw [if_neg (fun all => samePage all.1), same page
          (loading.owned.leaf_managed loading.live found).1 distinct
          (by simp only [frame, block, Set.mem_Ico]; omega)]

end Fill

section Zero

variable {start : PageAllocator} {roots : Set Nat} {free : List Nat} {managed : Set Nat}
  {root : Nat} {pages spill : Set Nat} {taken rest : List Nat}

/-- How far a pass of the zeroing loop goes. -/
def zeroCount (zeroVa vaEnd : Nat) : Nat := min (4096 - zeroVa % 4096) (vaEnd - zeroVa)

/-- One pass of the zeroing loop fills from twice the offset in a leaf on. -/
theorem zeroBss_pass {alloc : PageAllocator} {vaEnd zeroVa leaf : Nat} (fits : vaEnd < 2 ^ 64)
    (more : zeroVa < vaEnd) (found : leafOf alloc.mem root zeroVa = some leaf) (isFrame : IsFrame leaf)
    (passes : Nat) :
    zeroBss vaEnd root (passes + 1) zeroVa alloc =
      zeroBss vaEnd root passes (zeroVa + zeroCount zeroVa vaEnd)
        { alloc with
          mem := fill alloc.mem (leaf + 2 * (zeroVa % 4096)) (zeroCount zeroVa vaEnd) 0 } := by
  -- The page is looked up with its offset, which is then added again.
  obtain ⟨aligned, small⟩ := isFrame
  have translated : ttbr0ToPa alloc.mem zeroVa root = some (leaf + zeroVa % 4096) :=
    ttbr0ToPa_eq_some.mpr ⟨leaf, found, rfl⟩
  have back : ttbr1ToPa (ttbr1ToVa (leaf + zeroVa % 4096)) = leaf + zeroVa % 4096 :=
    ttbr1ToPa_ttbr1ToVa (by omega)
  have noWrap : wrapping (zeroVa + zeroCount zeroVa vaEnd) = zeroVa + zeroCount zeroVa vaEnd := by
    refine Nat.mod_eq_of_lt ?_
    simp only [zeroCount]
    omega
  have twice : leaf + zeroVa % 4096 + zeroVa % 4096 = leaf + 2 * (zeroVa % 4096) := by omega
  rw [zeroBss, if_pos more, ttbr0ToTtbr1, translated]
  simp only [Option.map_some, pageOffset_eq, back, twice]
  rw [← noWrap]
  rfl

/-- A pass over a mapped page fills its leaf. -/
theorem Loading.zeroBss_pass {alloc : PageAllocator}
    (loading : Loading start alloc roots free managed root pages spill taken rest)
    {vaEnd zeroVa : Nat} (high : vaEnd ≤ 2 ^ 39) (more : zeroVa < vaEnd)
    (mapped : zeroVa / 4096 ∈ pages) (passes : Nat) :
    ∃ leaf, leafOf alloc.mem root zeroVa = some leaf ∧
      zeroBss vaEnd root (passes + 1) zeroVa alloc =
        zeroBss vaEnd root passes (zeroVa + zeroCount zeroVa vaEnd)
          { alloc with
            mem := fill alloc.mem (leaf + 2 * (zeroVa % 4096)) (zeroCount zeroVa vaEnd) 0 } := by
  obtain ⟨leaf, found⟩ := Option.isSome_iff_exists.mp
    ((loading.mapped zeroVa (by omega)).mpr mapped)
  exact ⟨leaf, found, AtOS.zeroBss_pass (by omega) more found
    (loading.owned.leaf_managed loading.live found).2 passes⟩

/-- From a page boundary on, the loop zeroes exactly the rest of the segment. -/
theorem Loading.zeroBss_aligned {vaEnd : Nat} (high : vaEnd ≤ 2 ^ 39) :
    ∀ (passes zeroVa : Nat) {alloc : PageAllocator},
      zeroVa % 4096 = 0 ∨ vaEnd ≤ zeroVa → (vaEnd - zeroVa + 4095) / 4096 < passes →
      Loading start alloc roots free managed root pages spill taken rest →
      (∀ page, page * 4096 < vaEnd → zeroVa ≤ page * 4096 → page ∈ pages) →
      ∃ after, zeroBss vaEnd root passes zeroVa alloc = .ok after ∧
        Loading start after roots free managed root pages spill taken rest ∧
        ∀ other < 2 ^ 39, byteAt after.mem root other =
          if zeroVa ≤ other ∧ other < vaEnd then some 0 else byteAt alloc.mem root other := by
  intro passes
  -- The induction is on the passes; each one zeroes a page, and the last one maybe less.
  induction passes with
  | zero =>
    intro zeroVa alloc _ enough
    exact absurd enough (Nat.not_lt_zero _)
  | succ passes ih =>
    intro zeroVa alloc aligned enough loading mapped
    by_cases more : zeroVa < vaEnd
    · -- All passes start at a page boundary, so the offset is zero.
      have boundary : zeroVa % 4096 = 0 := aligned.resolve_right (by omega)
      obtain ⟨leaf, found, pass⟩ := loading.zeroBss_pass high more
        (mapped (zeroVa / 4096) (by omega) (by omega)) passes
      have count : zeroCount zeroVa vaEnd = min 4096 (vaEnd - zeroVa) := by
        rw [zeroCount, boundary]
      rw [pass, boundary, count]
      generalize counted : min 4096 (vaEnd - zeroVa) = n
      obtain ⟨step, bytes⟩ := loading.filled (by omega) found (by omega : 2 * 0 + n ≤ 8192)
        (Or.inl (by omega))
      -- Within the page, nothing spills.
      have contained : overrun leaf (2 * 0) n = ∅ := by
        ext address
        simp only [overrun, Set.mem_ofPred_eq, Set.mem_empty_iff_false, iff_false]
        omega
      rw [contained, Set.union_empty] at step
      obtain ⟨after, done, loaded, later⟩ := ih (zeroVa + n) (by omega) (by omega) step
        fun page below above => mapped page below (by omega)
      -- A byte is cleared in this pass, or in a later one, or not at all.
      refine ⟨after, done, loaded, fun other low => ?_⟩
      rw [later other low]
      by_cases behind : zeroVa + n ≤ other ∧ other < vaEnd
      · rw [if_pos behind, if_pos (by omega)]
      · rw [if_neg behind, bytes other low]
        by_cases here : zeroVa ≤ other ∧ other < vaEnd
        · rw [if_pos here, if_pos (by omega)]
        · rw [if_neg here, if_neg (by omega)]
    · -- The end has been reached.
      rw [zeroBss, if_neg more]
      refine ⟨alloc, rfl, loading, fun other _ => ?_⟩
      rw [if_neg (by omega)]

/-- The bytes the loop zeroes: in the first page only those from twice the offset on. -/
def zeroedBytes (zeroVa vaEnd : Nat) : Set Nat :=
  { va | zeroVa ≤ va ∧ va < vaEnd ∧ (va / 4096 = zeroVa / 4096 → 2 * (zeroVa % 4096) ≤ va % 4096) }

/-- What the first pass reaches behind the end of its page. -/
def zeroOverrun (leaf zeroVa vaEnd : Nat) : Set Nat :=
  overrun leaf (2 * (zeroVa % 4096)) (zeroCount zeroVa vaEnd)

/-- From any address on, the loop zeroes the rest of a segment but for a gap in its first page. -/
theorem Loading.zeroBss {alloc : PageAllocator}
    (loading : Loading start alloc roots free managed root pages spill taken rest)
    {vaEnd zeroVa : Nat} (high : vaEnd ≤ 2 ^ 39) (more : zeroVa < vaEnd)
    (mapped : ∀ page, page * 4096 < vaEnd → zeroVa / 4096 ≤ page → page ∈ pages)
    (safe : 2 * (zeroVa % 4096) + zeroCount zeroVa vaEnd ≤ 4096 ∨ Spaced managed) :
    ∃ leaf after, leafOf alloc.mem root zeroVa = some leaf ∧
      AtOS.zeroBss vaEnd root maxPasses zeroVa alloc = .ok after ∧
      Loading start after roots free managed root pages (spill ∪ zeroOverrun leaf zeroVa vaEnd)
        taken rest ∧
      ∀ other < 2 ^ 39,
        (other ∈ zeroedBytes zeroVa vaEnd → byteAt after.mem root other = some 0) ∧
        (¬ (zeroVa ≤ other ∧ other / 4096 * 4096 < vaEnd) ∨
            (zeroVa ≤ other ∧ other < vaEnd ∧ other ∉ zeroedBytes zeroVa vaEnd) →
          byteAt after.mem root other = byteAt alloc.mem root other) := by
  have counted : zeroCount zeroVa vaEnd = min (4096 - zeroVa % 4096) (vaEnd - zeroVa) := rfl
  -- The first pass may begin inside of a page, and only that one leaves bytes out.
  obtain ⟨leaf, found, pass⟩ := loading.zeroBss_pass high more
    (mapped (zeroVa / 4096) (by omega) (Nat.le_refl _)) (2 ^ 52 - 1)
  obtain ⟨step, bytes⟩ := loading.filled (by omega) found
    (by omega : 2 * (zeroVa % 4096) + zeroCount zeroVa vaEnd ≤ 8192) safe
  obtain ⟨after, done, loaded, later⟩ := step.zeroBss_aligned high (2 ^ 52 - 1)
    (zeroVa + zeroCount zeroVa vaEnd) (by omega) (by omega)
    fun page below above => mapped page below (by omega)
  refine ⟨leaf, after, found, ?_, loaded, fun other low => ?_⟩
  · rw [maxPasses, show (2 : Nat) ^ 52 = 2 ^ 52 - 1 + 1 from rfl, pass]
    exact done
  · rw [later other low]
    simp only [zeroedBytes, Set.mem_ofPred_eq]
    -- What is not cleared in the first pass is cleared by those behind it, or left out.
    constructor
    · rintro ⟨above, below, gap⟩
      by_cases behind : zeroVa + zeroCount zeroVa vaEnd ≤ other ∧ other < vaEnd
      · rw [if_pos behind]
      · rw [if_neg behind, bytes other low, if_pos (by omega)]
    · intro untouched
      rw [if_neg (by omega), bytes other low, if_neg (by omega)]

end Zero

end AtOS
