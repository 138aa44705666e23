import AtOS.Loader.LoadSegment
import AtOS.Paging.Kept

/-! An address space that is being built at arbitrary addresses: which of its pages are mapped. -/

namespace AtOS

open ByteMemory RadixForest

/-- The pages that an address space maps. -/
def mappedPages (mem : Mem) (root : Nat) : Set Page := { page | (pageMap mem root page).isSome }

/-- The page of the tables that a page of the 64-bit addresses is mapped by. -/
def pageSlot (page : Nat) : Page := pageOf (page * 4096)

/-- The pages that are mapped for a segment, as the tables see them. -/
def Elf64ProgHdr.slots (ph : Elf64ProgHdr) : Set Page := pageSlot '' ph.pages

/-- A range of pages can be mapped one after the other: no slot is in use, or is used twice. -/
def PagesFree (mapped : Set Page) (range : Set Nat) : Prop :=
  Set.InjOn pageSlot range ∧ ∀ page ∈ range, pageSlot page ∉ mapped

section Slots

variable {mem : Mem} {root va other : Nat} {mapped : Set Page} {range : Set Nat} {page : Nat}

/-- A page is mapped if its addresses lead to a frame. -/
theorem mem_mappedPages : pageOf va ∈ mappedPages mem root ↔ (leafOf mem root va).isSome := by
  rw [leafOf_eq_pageMap]
  rfl

/-- The slot of the page an address is in is the page the tables see. -/
theorem pageSlot_div (va : Nat) : pageSlot (va / 4096) = pageOf va := by
  refine Fin.ext ?_
  simp only [pageSlot, pageOf]
  omega

/-- The tables use the same indices for the addresses of one slot, and for no others. -/
theorem pagePath_iff_pageOf : pagePath other = pagePath va ↔ pageOf other = pageOf va := by
  have bound := (pageOf va).isLt
  rw [← pagePath_pageOf va, ← pagePath_pageOf other, pagePath_eq_iff (pageOf other) (by omega),
    pageOf_start]

/-- Mapping a range starts with its first page. -/
theorem PagesFree.insert_iff (first : page ∉ range) :
    PagesFree mapped (insert page range) ↔
      pageSlot page ∉ mapped ∧ PagesFree (insert (pageSlot page) mapped) range := by
  simp only [PagesFree, Set.injOn_insert first, Set.mem_insert_iff, forall_eq_or_imp, not_or,
    Set.mem_image, not_exists, not_and]
  constructor
  · rintro ⟨⟨once, apart⟩, here, later⟩
    exact ⟨here, once, fun other member => ⟨apart other member, later other member⟩⟩
  · rintro ⟨here, once, later⟩
    exact ⟨⟨once, fun other member => (later other member).1⟩, here, fun other member => (later other member).2⟩

/-- No pages are free to be mapped. -/
theorem PagesFree.empty (mapped : Set Page) : PagesFree mapped ∅ :=
  ⟨Set.injOn_empty _, fun _ nothing => absurd nothing (Set.notMem_empty _)⟩

end Slots

/--
An address space in the middle of being built, since a start.

The other address spaces are as they were, and no frame has got lost.
-/
structure Building (start alloc : PageAllocator) (roots managed : Set Nat) (root : Nat)
    (rest : List Nat) : Prop where
  fresh : root ∉ roots
  owned : Owned alloc (insert root roots) rest managed
  total : alloc.totalFrameCount = start.totalFrameCount
  kept : Kept start.mem alloc.mem roots

section Steps

variable {start alloc after : PageAllocator} {roots managed : Set Nat} {root va pa : Nat}
  {rest : List Nat}

/-- The root of the new address space is live. -/
theorem Building.live (_ : Building start alloc roots managed root rest) : root ∈ insert root roots :=
  Set.mem_insert root roots

/-- All address spaces but the new one are the old ones. -/
theorem Building.others (building : Building start alloc roots managed root rest) :
    insert root roots \ {root} = roots :=
  Set.insert_sdiff_self_of_notMem building.fresh

/-- Mapping a page takes up to three frames, and fails if the page is mapped or frames run out. -/
theorem Building.allocPage (building : Building start alloc roots managed root rest) (va : Nat) :
    Loop.Yields
      (fun result : Nat × PageAllocator => ∃ left,
        Building start result.2 roots managed root left ∧ left.length < rest.length ∧
        rest.length ≤ left.length + 3 ∧ pageOf va ∉ mappedPages alloc.mem root ∧
        mappedPages result.2.mem root = insert (pageOf va) (mappedPages alloc.mem root))
      (fun panic => (pageOf va ∈ mappedPages alloc.mem root ∧ panic = .pageAlreadyAllocated va) ∨
        (rest.length < 3 ∧ ∃ message, panic = .outOfFrames message))
      (AtOS.allocPage va root alloc) := by
  have outcome := allocPage_spec building.owned building.live va
  -- The page is refused as mapped already or for want of frames, or it is mapped.
  rcases result : AtOS.allocPage va root alloc with panic | ⟨pa, after⟩ <;> rw [result] at outcome
  · rcases outcome with ⟨same, mapped⟩ | ⟨-, few, message⟩
    · exact .stopped (Or.inl ⟨mem_mappedPages.mpr mapped, same⟩)
    · exact .stopped (Or.inr ⟨few, message⟩)
  · obtain ⟨taken, left, added⟩ := outcome
    have lengths := congrArg List.length added.free_eq
    have few := added.few
    rw [List.length_append, List.length_cons] at lengths
    refine .done ⟨left, ⟨building.fresh, added.owned, added.total.trans building.total, ?_⟩, by omega,
      by omega, ?_, ?_⟩
    · -- What the process owned before is kept.
      have others := added.kept_others building.owned building.live
      rw [building.others] at others
      exact building.kept.trans others
    · rw [mem_mappedPages, added.vacant]
      simp
    · -- The pages that are mapped are the old ones, and the new one.
      ext page
      rw [← pageOf_start page, Set.mem_insert_iff, mem_mappedPages, mem_mappedPages, leafOf,
        added.leaves root building.live _ (pagePath_length _), ← pagePath_iff_pageOf]
      simp only [true_and]
      split <;> simp_all [leafOf]

/-- Writing into pages changes no mapping, and succeeds exactly if all the pages are mapped. -/
theorem Building.copyToPages (building : Building start alloc roots managed root rest)
    (data : List UInt8) (dst : Nat) :
    Building start (AtOS.copyToPages data dst root alloc).2 roots managed root rest ∧
      mappedPages (AtOS.copyToPages data dst root alloc).2.mem root = mappedPages alloc.mem root ∧
      ((AtOS.copyToPages data dst root alloc).1 = .ok () ↔
        ∀ offset < data.length, pageOf (dst + offset) ∈ mappedPages alloc.mem root) := by
  obtain ⟨done, copied⟩ := copyToPages_spec building.owned building.live data dst
  refine ⟨⟨building.fresh, copied.owned building.owned building.live, ?_, ?_⟩, ?_, ?_⟩
  · rw [copied.after_eq]
    exact building.total
  · have others := copied.kept_others building.owned building.live
    rw [building.others] at others
    exact building.kept.trans others
  · ext page
    rw [← pageOf_start page, mem_mappedPages, mem_mappedPages, leafOf, leafOf,
      copied.walks building.owned building.live building.live (Nat.le_of_eq (pagePath_length _))]
  · simp only [copied.ok_iff, mem_mappedPages]

/-- Zeroing bytes from a leaf on changes no mapping. -/
theorem Building.filled (building : Building start alloc roots managed root rest) {leaf offset count : Nat}
    (mapped : leafOf alloc.mem root va = some leaf) (short : offset + count ≤ 8192)
    (safe : offset + count ≤ 4096 ∨ Spaced managed) :
    Building start { alloc with mem := fill alloc.mem (leaf + offset) count 0 } roots managed root
        rest ∧
      mappedPages (fill alloc.mem (leaf + offset) count 0) root = mappedPages alloc.mem root := by
  obtain ⟨owned, same, walks⟩ := building.owned.filled building.live mapped short safe
  refine ⟨⟨building.fresh, owned, building.total, building.kept.trans ?_⟩, ?_⟩
  · -- A leaf of the new address space belongs to no other one.
    intro owner live node member
    have inside := Set.mem_insert_of_mem root live
    refine same node (building.owned.node_managed inside member) ?_
    rintro rfl
    refine absurd member (building.owned.separate.disjoint building.live inside ?_
      (node_of_walk (Nat.le_of_eq (pagePath_length va)) mapped))
    rintro rfl
    exact building.fresh live
  · -- Clearing bytes of a page leaves the tables alone.
    ext page
    rw [← pageOf_start page, mem_mappedPages, mem_mappedPages, leafOf, leafOf,
      walks root building.live _ (Nat.le_of_eq (pagePath_length _))]

end Steps

section Loops

variable {start : PageAllocator} {roots managed : Set Nat} {root : Nat} {rest : List Nat}

/-- The loop over the pages of a segment maps them all, unless one is in use or frames run out. -/
theorem Building.allocSegmentPages {vaEnd : Nat} :
    ∀ (passes current : Nat) {alloc : PageAllocator} {rest : List Nat},
      current % 4096 = 0 → (vaEnd - current + 4095) / 4096 < passes →
      (∀ page ∈ pageRange (current / 4096) vaEnd, page * 4096 + 4096 < 2 ^ 64) →
      Building start alloc roots managed root rest →
      Loop.Yields
        (fun after => ∃ left, Building start after roots managed root left ∧
          rest.length ≤ left.length + 3 * ((vaEnd - current + 4095) / 4096) ∧
          PagesFree (mappedPages alloc.mem root) (pageRange (current / 4096) vaEnd) ∧
          mappedPages after.mem root =
            mappedPages alloc.mem root ∪ pageSlot '' pageRange (current / 4096) vaEnd)
        (fun _ => ¬ PagesFree (mappedPages alloc.mem root) (pageRange (current / 4096) vaEnd) ∨
          rest.length < 3 * ((vaEnd - current + 4095) / 4096))
        (AtOS.allocSegmentPages vaEnd root passes current alloc) := by
  intro passes
  -- The induction is on the passes; each one maps the first page of what is left.
  induction passes with
  | zero =>
    intro current alloc rest _ enough
    exact absurd enough (Nat.not_lt_zero _)
  | succ passes ih =>
    intro current alloc rest aligned enough noWrap building
    by_cases more : current < vaEnd
    · have first : current / 4096 ∈ pageRange (current / 4096) vaEnd := ⟨Nat.le_refl _, by omega⟩
      have top := noWrap _ first
      -- The address does not wrap around, since the segment ends below the limit.
      have next : wrapping (current + 4096) = current + 4096 := Nat.mod_eq_of_lt (by omega)
      have split : pageRange (current / 4096) vaEnd =
          insert (current / 4096) (pageRange ((current + 4096) / 4096) vaEnd) := by
        ext page
        simp only [pageRange, Set.mem_insert_iff, Set.mem_ofPred_eq]
        omega
      have behind : current / 4096 ∉ pageRange ((current + 4096) / 4096) vaEnd := by
        rintro ⟨above, -⟩
        omega
      have step := building.allocPage current
      rw [AtOS.allocSegmentPages, if_pos more, next, split, PagesFree.insert_iff behind,
        pageSlot_div]
      generalize AtOS.allocPage current root alloc = result at step
      cases step with
      | stopped early =>
        rcases early with ⟨used, -⟩ | ⟨few, -⟩
        · -- The first page is in the way, or frames are missing for it.
          exact .stopped (Or.inl fun free => free.1 used)
        · exact .stopped (Or.inr (by omega))
      | @done result mapped =>
        obtain ⟨pa, middle⟩ := result
        obtain ⟨left, built, -, few, fresh, added⟩ := mapped
        have later := ih (current + 4096) (by omega) (by omega)
          (fun page inside => noWrap page (split ▸ Set.mem_insert_of_mem _ inside)) built
        rw [added] at later
        refine later.imp ?_ ?_
        · rintro after ⟨leftLater, builtLater, fewLater, free, mappedLater⟩
          refine ⟨leftLater, builtLater, by omega, ⟨fresh, free⟩, ?_⟩
          rw [mappedLater, Set.image_insert_eq, pageSlot_div, Set.insert_union, Set.union_insert]
        · -- A later page is in the way, or frames are missing for it.
          rintro panic (used | few)
          · exact Or.inl fun free => used free.2
          · exact Or.inr (by omega)
    · -- Nothing is left to map.
      have nothing : pageRange (current / 4096) vaEnd = ∅ := by
        ext page
        simp only [pageRange, Set.mem_ofPred_eq, Set.mem_empty_iff_false, iff_false]
        omega
      rw [AtOS.allocSegmentPages, if_neg more, nothing]
      exact .done ⟨rest, building, by omega, .empty _, by simp⟩

/-- The zeroing loop changes no mapping, and finds all its pages if they are mapped. -/
theorem Building.zeroBss {vaEnd : Nat} (fits : vaEnd < 2 ^ 64) :
    ∀ (passes zeroVa : Nat) {alloc : PageAllocator},
      0 < passes → (zeroVa < vaEnd → (vaEnd + 4095) / 4096 - zeroVa / 4096 < passes) →
      (zeroVa < vaEnd → 2 * (zeroVa % 4096) + zeroCount zeroVa vaEnd ≤ 4096 ∨ Spaced managed) →
      Building start alloc roots managed root rest →
      (∀ va, zeroVa ≤ va → va < vaEnd → pageOf va ∈ mappedPages alloc.mem root) →
      ∃ after, AtOS.zeroBss vaEnd root passes zeroVa alloc = .ok after ∧
        Building start after roots managed root rest ∧
        mappedPages after.mem root = mappedPages alloc.mem root := by
  intro passes
  -- The induction is on the passes; all but the first one start at a page boundary.
  induction passes with
  | zero =>
    intro zeroVa alloc some
    exact absurd some (Nat.lt_irrefl 0)
  | succ passes ih =>
    intro zeroVa alloc _ enough safe building mapped
    by_cases more : zeroVa < vaEnd
    · -- What is cleared in this pass begins at twice the offset, and may leave the page.
      have needed := enough more
      have counted : zeroCount zeroVa vaEnd = min (4096 - zeroVa % 4096) (vaEnd - zeroVa) := rfl
      obtain ⟨leaf, found⟩ := Option.isSome_iff_exists.mp
        (mem_mappedPages.mp (mapped zeroVa (Nat.le_refl _) more))
      have isFrame := (building.owned.leaf_managed building.live found).2
      obtain ⟨built, same⟩ := building.filled found
        (by omega : 2 * (zeroVa % 4096) + zeroCount zeroVa vaEnd ≤ 8192) (safe more)
      -- The next pass starts at a page boundary, where nothing is added twice.
      obtain ⟨after, done, builtLater, sameLater⟩ := ih (zeroVa + zeroCount zeroVa vaEnd) (by omega)
        (by omega) (fun again => Or.inl (by
          have boundary : (zeroVa + zeroCount zeroVa vaEnd) % 4096 = 0 := by omega
          rw [boundary, zeroCount]
          omega))
        built (fun va above below => by
          rw [same]
          exact mapped va (by omega) below)
      refine ⟨after, ?_, builtLater, sameLater.trans same⟩
      rw [zeroBss_pass fits more found isFrame]
      exact done
    · -- The end of the segment has been reached.
      rw [AtOS.zeroBss, if_neg more]
      exact ⟨alloc, rfl, building, rfl⟩

end Loops

end AtOS
