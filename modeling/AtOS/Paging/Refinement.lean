import AtOS.Paging.Pool

/-! The three-level tables refine a finite map from pages to frames, and address spaces are apart. -/

namespace AtOS

open ByteMemory RadixForest

/-- The pages of 4096 bytes below 2^39. -/
abbrev Page := Fin (2 ^ 27)

/-- The page an address lies in; the tables look at no higher bits. -/
def pageOf (va : Nat) : Page := ⟨va / 4096 % 2 ^ 27, Nat.mod_lt _ (by decide)⟩

/-- The abstract state of an address space: a partial map from pages to frames. -/
def pageMap (mem : Mem) (root : Nat) (page : Page) : Option Nat := leafOf mem root (page.val * 4096)

/-- Another address space is left as it was: its map, and the bytes of its pages. -/
structure SpaceKept (before after : Mem) (root : Nat) : Prop where
  map_eq : pageMap after root = pageMap before root
  bytes : ∀ page pa, pageMap before root page = some pa → Set.EqOn after before (frame pa)

/-- `alloc_page` on the abstract state: one page is added, and nothing else is seen to change. -/
structure PageMapped (before after : PageAllocator) (live : Set Nat) (free : List Nat)
    (root va pa : Nat) : Prop where
  fresh : pa ∈ free
  map_eq : pageMap after.mem root =
    Function.update (pageMap before.mem root) (pageOf va) (some pa)
  bytes : ∀ page frameOf, pageMap before.mem root page = some frameOf →
    Set.EqOn after.mem before.mem (frame frameOf)
  others : ∀ owner ∈ live, owner ≠ root → SpaceKept before.mem after.mem owner

/-- `free_page` on the abstract state: one page is removed, and nothing else is seen to change. -/
structure PageUnmapped (before after : PageAllocator) (live : Set Nat) (root va : Nat) : Prop where
  map_eq : pageMap after.mem root = Function.update (pageMap before.mem root) (pageOf va) none
  bytes : ∀ page frameOf, page ≠ pageOf va → pageMap before.mem root page = some frameOf →
    Set.EqOn after.mem before.mem (frame frameOf)
  others : ∀ owner ∈ live, owner ≠ root → SpaceKept before.mem after.mem owner
  /-- A page that is not mapped is not freed. -/
  idle : pageMap before.mem root (pageOf va) = none → after = before

/-- `copy_to_pages` on the abstract state: the bytes of one range change, and nothing else does. -/
structure BytesCopied (before after : PageAllocator) (live : Set Nat) (src : List UInt8)
    (dst root : Nat) (result : Except String Unit) : Prop where
  ok_iff : result = .ok () ↔
    ∀ offset < src.length, (pageMap before.mem root (pageOf (dst + offset))).isSome
  map_eq : pageMap after.mem root = pageMap before.mem root
  written : result = .ok () → ∀ offset pa, offset < src.length →
    ttbr0ToPa before.mem (dst + offset) root = some pa → src[offset]? = some (after.mem pa)
  unwritten : ∀ address,
    (∀ offset < src.length, ttbr0ToPa before.mem (dst + offset) root ≠ some address) →
    after.mem address = before.mem address
  others : ∀ owner ∈ live, owner ≠ root → SpaceKept before.mem after.mem owner

section Pages

variable {mem : Mem} {root va : Nat}

/-- A page starts at a multiple of the page size. -/
@[simp] theorem pageOf_start (page : Page) : pageOf (page.val * 4096) = page := by
  have bound := page.isLt
  refine Fin.ext ?_
  simp only [pageOf]
  omega

/-- The indices of an address are those of the start of its page. -/
theorem pagePath_pageOf (va : Nat) : pagePath ((pageOf va).val * 4096) = pagePath va := by
  simp only [pagePath, l1Index, l2Index, l3Index, List.cons.injEq, and_true, Fin.ext_iff,
    tableIndex_val, pageOf]
  omega

/-- The leaf of an address is what the map gives for its page. -/
theorem leafOf_eq_pageMap (mem : Mem) (root va : Nat) :
    leafOf mem root va = pageMap mem root (pageOf va) := by
  rw [pageMap, leafOf, leafOf, pagePath_pageOf]

/-- Below 2^39, the indices of two addresses agree exactly when their pages do. -/
theorem pagePath_eq_iff (page : Page) (low : va < 2 ^ 39) :
    pagePath (page.val * 4096) = pagePath va ↔ page = pageOf va := by
  have bound := page.isLt
  rw [pagePath_inj (by omega) low]
  constructor
  · intro same
    refine Fin.ext ?_
    simp only [pageOf]
    omega
  · rintro rfl
    simp only [pageOf]
    omega

/-- Translation looks the page up and adds the offset. -/
theorem ttbr0ToPa_eq_pageMap (mem : Mem) (va root : Nat) :
    ttbr0ToPa mem va root = (pageMap mem root (pageOf va)).map (· + va % 4096) := by
  rw [ttbr0ToPa_eq, ← leafOf_eq_pageMap, leafOf]

end Pages

section Operations

variable {alloc after : PageAllocator} {roots : Set Nat} {free : List Nat} {managed : Set Nat}
  {root va pa : Nat}

/-- Frames that pages are mapped to are leaves. -/
theorem pageMap_leaf {mem : Mem} {page : Page} (mapped : pageMap mem root page = some pa) :
    pa ∈ nodes (child mem) 3 root := node_of_walk (by simp) mapped

/-- A frame that a page of a live root is mapped to is neither free nor a table. -/
theorem Owned.mapped_apart (owned : Owned alloc roots free managed) (live : root ∈ roots)
    {page : Page} (mapped : pageMap alloc.mem root page = some pa) :
    pa ∈ managed ∧ pa ∉ free ∧ ∀ owner ∈ roots, pa ∉ tables (child alloc.mem) 3 owner :=
  ⟨owned.node_managed live (pageMap_leaf mapped), owned.apart root live pa (pageMap_leaf mapped),
    fun _ liveOwner => owned.separate.leaf_not_table live liveOwner rfl mapped⟩

/-- `alloc_page` adds one page to the map. -/
theorem Owned.page_mapped (owned : Owned alloc roots free managed) (live : root ∈ roots)
    (low : va < 2 ^ 39) (unmapped : pageMap alloc.mem root (pageOf va) = none) :
    match allocPage va root alloc with
    | .ok (pa, after) => PageMapped alloc after roots free root va pa
    | .error panic => free.length < 3 ∧ ∃ message, panic = .outOfFrames message := by
  have outcome := allocPage_spec owned live va
  -- An unmapped address is refused only when frames run out.
  rcases result : allocPage va root alloc with panic | ⟨pa, after⟩ <;>
    simp only [result] at outcome ⊢
  · rcases outcome with ⟨-, mapped⟩ | ⟨-, few, message⟩
    · rw [leafOf_eq_pageMap, unmapped] at mapped
      cases mapped
    · exact ⟨few, message⟩
  · obtain ⟨taken, rest, added⟩ := outcome
    -- Leaves are not written: they are neither tables nor frames that became tables.
    have bytes : ∀ owner ∈ roots, ∀ page frameOf, pageMap alloc.mem owner page = some frameOf →
        Set.EqOn after.mem alloc.mem (frame frameOf) := by
      intro owner liveOwner page frameOf mapped
      obtain ⟨member, notFree, notTable⟩ := owned.mapped_apart liveOwner mapped
      refine added.frame_kept owned live member (notTable root live) fun listed => notFree ?_
      rw [added.free_eq]
      exact List.mem_append_left _ listed
    refine ⟨?_, ?_, bytes root live, fun owner liveOwner distinct => ⟨?_, bytes owner liveOwner⟩⟩
    · rw [added.free_eq]
      simp
    · -- The map gains the one page, and the other address spaces are not touched.
      funext page
      rw [pageMap, leafOf, added.leaves root live _ (pagePath_length _), Function.update_apply]
      simp only [true_and, pagePath_eq_iff page low]
      rfl
    · funext page
      exact added.others owner liveOwner distinct _ (Nat.le_of_eq (pagePath_length _))

/-- `free_page` removes one page from the map. -/
theorem Owned.page_unmapped (owned : Owned alloc roots free managed) (live : root ∈ roots)
    (low : va < 2 ^ 39) : PageUnmapped alloc (freePage va root alloc) roots root va := by
  -- An address that is not mapped changes nothing.
  cases mapped : pageMap alloc.mem root (pageOf va) with
  | none =>
    have idle : freePage va root alloc = alloc :=
      freePage_unmapped ((leafOf_eq_pageMap _ _ _).trans mapped)
    rw [idle]
    refine ⟨?_, fun _ _ _ _ => Set.eqOn_refl _ _,
      fun _ _ _ => ⟨rfl, fun _ _ _ => Set.eqOn_refl _ _⟩, fun _ => rfl⟩
    rw [← mapped, Function.update_eq_self]
  | some pa =>
    have removed := freePage_spec owned live ((leafOf_eq_pageMap _ _ _).trans mapped)
    -- Only the tables of the root and the freed frame are written.
    have bytes : ∀ owner ∈ roots, ∀ page frameOf, pageMap alloc.mem owner page = some frameOf →
        ¬ (owner = root ∧ page = pageOf va) →
        Set.EqOn (freePage va root alloc).mem alloc.mem (frame frameOf) := by
      intro owner liveOwner page frameOf mappedOther elsewhere
      obtain ⟨member, -, notTable⟩ := owned.mapped_apart liveOwner mappedOther
      refine removed.kept frameOf member (notTable root live) ?_
      rintro rfl
      obtain ⟨rfl, samePath⟩ := owned.separate liveOwner live (Nat.le_of_eq (pagePath_length _))
        (Nat.le_of_eq (pagePath_length _)) mappedOther mapped
      rw [pagePath_pageOf, pagePath_eq_iff page low] at samePath
      exact elsewhere ⟨rfl, samePath⟩
    refine ⟨?_, fun page frameOf distinct mappedOther => bytes root live page frameOf mappedOther
      fun same => distinct same.2, fun owner liveOwner distinct => ⟨?_, ?_⟩, fun none => ?_⟩
    · -- The map loses the one page, and the other address spaces keep theirs.
      funext page
      rw [pageMap, leafOf, removed.walks root live _ (Nat.le_of_eq (pagePath_length _)),
        Function.update_apply]
      simp only [true_and, pagePath_eq_iff page low]
      rfl
    · funext page
      rw [pageMap, leafOf, removed.walks owner liveOwner _ (Nat.le_of_eq (pagePath_length _)),
        if_neg fun same => distinct same.1]
      rfl
    · exact fun page frameOf mappedOther => bytes owner liveOwner page frameOf mappedOther
        fun same => distinct same.1
    · rw [mapped] at none
      cases none

/-- `copy_to_pages` writes one range of bytes, through the map and nowhere else. -/
theorem Owned.bytes_copied (owned : Owned alloc roots free managed) (live : root ∈ roots)
    (src : List UInt8) {dst : Nat} (low : dst + src.length ≤ 2 ^ 39) :
    BytesCopied alloc (copyToPages src dst root alloc).2 roots src dst root
      (copyToPages src dst root alloc).1 := by
  obtain ⟨done, copied⟩ := copyToPages_spec owned live src dst
  have bound := copied.prefix_le
  -- A copy writes pages, and so leaves every map as it is.
  have sameMap : ∀ owner ∈ roots,
      pageMap (copyToPages src dst root alloc).2.mem owner = pageMap alloc.mem owner := by
    intro owner liveOwner
    funext page
    exact copied.walks owned live liveOwner (Nat.le_of_eq (pagePath_length _))
  refine ⟨?_, sameMap root live, ?_, ?_, fun owner liveOwner distinct =>
    ⟨sameMap owner liveOwner, ?_⟩⟩
  · simp only [copied.ok_iff, leafOf_eq_pageMap]
  · intro succeeded offset pa within found
    -- A copy that reports no error has come to the end of the data.
    have complete : done = src.length := by
      by_contra partly
      have result := copied.result_eq
      rw [succeeded, if_neg partly] at result
      cases result
    exact copied.written owned live (by omega) (by omega) found
  · exact fun address missed => copied.unwritten fun offset within => missed offset (by omega)
  · -- The pages of other address spaces are other frames.
    intro page pa mapped
    refine copied.kept owned live (owned.mapped_apart liveOwner mapped).1 fun path full reached => ?_
    exact distinct (owned.separate liveOwner live (Nat.le_of_eq (pagePath_length _))
      (Nat.le_of_eq full) mapped reached).1

end Operations

/--
The tables of a live root of a reachable pool refine a partial map from pages to frames.

Translation reads the map, `alloc_page` and `free_page` change it at one page, `copy_to_pages`
writes through it, and none of them is noticed in another address space.
-/
theorem Pool.Reachable.refines_pageMap {first limit : Nat} {pool : Pool}
    (reached : pool.Reachable first limit) {root : Nat} (live : root ∈ pool.live) :
    ∃ free : List Nat, FreeChain pool.alloc.mem pool.alloc.freeFrameList free ∧
      (∀ va < 2 ^ 39, ttbr0ToPa pool.alloc.mem va root =
        (pageMap pool.alloc.mem root (pageOf va)).map (· + va % 4096)) ∧
      (∀ page pa, pageMap pool.alloc.mem root page = some pa →
        IsFrame pa ∧ pa ∈ managedFrames first limit) ∧
      (∀ va < 2 ^ 39, pageMap pool.alloc.mem root (pageOf va) = none →
        match allocPage va root pool.alloc with
        | .ok (pa, after) => PageMapped pool.alloc after pool.live free root va pa
        | .error panic => free.length < 3 ∧ ∃ message, panic = .outOfFrames message) ∧
      (∀ va < 2 ^ 39,
        PageUnmapped pool.alloc (freePage va root pool.alloc) pool.live root va) ∧
      (∀ src dst, dst + src.length ≤ 2 ^ 39 →
        BytesCopied pool.alloc (copyToPages src dst root pool.alloc).2 pool.live src dst root
          (copyToPages src dst root pool.alloc).1) := by
  obtain ⟨free, owned, -⟩ := reached.conserved
  -- Each operation refines its effect on the map, for every pool that can be reached.
  refine ⟨free, owned.chain, fun va _ => ttbr0ToPa_eq_pageMap _ va root, ?_, ?_, ?_, ?_⟩
  · intro page pa mapped
    have member := (owned.mapped_apart live mapped).1
    exact ⟨owned.frames pa member, member⟩
  · exact fun va low unmapped => owned.page_mapped live low unmapped
  · exact fun va low => owned.page_unmapped live low
  · exact fun src dst low => owned.bytes_copied live src low

/-- Freeing the page of one of two roots unmaps it, and leaves the other root alone. -/
theorem refines_pageMap_sixFrames : ∃ alloc pa, sixFrames = some alloc ∧
    pageMap alloc.mem 0x5000 (pageOf 0) = some pa ∧
    PageUnmapped alloc (freePage 0 0x5000 alloc) {0x4000, 0x5000} 0x5000 0 ∧
    SpaceKept alloc.mem (freePage 0 0x5000 alloc).mem 0x4000 := by
  obtain ⟨alloc, done, -, mapped⟩ := sixFrames_some
  have live : 0x5000 ∈ ({0x4000, 0x5000} : Set Nat) := by simp
  obtain ⟨free, -, -, -, -, unmaps, -⟩ := (sixFrames_reachable done).refines_pageMap live
  have unmapped := unmaps 0 (by decide)
  exact ⟨alloc, _, done, (leafOf_eq_pageMap _ _ _).symm.trans mapped, unmapped,
    unmapped.others 0x4000 (Set.mem_insert _ _) (by decide)⟩

end AtOS
