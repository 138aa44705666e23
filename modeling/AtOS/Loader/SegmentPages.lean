import AtOS.Loader.Loading

/-! The pages of a segment: mapping all of them, and writing into them. -/

namespace AtOS

open ByteMemory RadixForest

/-- The pages from a first one up to an end address. -/
def pageRange (first vaEnd : Nat) : Set Nat := { page | first ≤ page ∧ page * 4096 < vaEnd }

/-- No managed frame lies directly behind another one. -/
def Spaced (managed : Set Nat) : Prop := ∀ pa ∈ managed, pa + 4096 ∉ managed

section Pages

variable {start alloc : PageAllocator} {roots : Set Nat} {free : List Nat} {managed : Set Nat}
  {root : Nat} {pages spill : Set Nat} {taken rest : List Nat}

/-- A byte that is fresh from some frames is fresh from more. -/
theorem FreshByte.mono {more : List Nat} {offset : Nat} {byte : UInt8}
    (fresh : FreshByte start taken offset byte) (subset : ∀ pa ∈ taken, pa ∈ more) :
    FreshByte start more offset byte := by
  obtain ⟨pa, listed, same⟩ := fresh
  exact ⟨pa, subset pa listed, same⟩

/-- The loop over the pages of a segment maps all of them to fresh frames. -/
theorem Loading.allocSegmentPages {vaEnd : Nat} (high : vaEnd ≤ 2 ^ 39) :
    ∀ (passes current : Nat) {alloc : PageAllocator} {pages : Set Nat} {taken rest : List Nat},
      current % 4096 = 0 → (vaEnd - current + 4095) / 4096 < passes →
      Loading start alloc roots free managed root pages spill taken rest →
      (∀ page ∈ pageRange (current / 4096) vaEnd, page ∉ pages) →
      Loop.Yields
        (fun after => ∃ used left, used.length ≤ 3 * ((vaEnd - current + 4095) / 4096) ∧
          Loading start after roots free managed root (pages ∪ pageRange (current / 4096) vaEnd)
            spill (taken ++ used) left ∧
          ∀ other < 2 ^ 39,
            (other / 4096 ∈ pageRange (current / 4096) vaEnd → ∃ byte,
              byteAt after.mem root other = some byte ∧
                FreshByte start (taken ++ used) (other % 4096) byte) ∧
            (other / 4096 ∉ pageRange (current / 4096) vaEnd →
              byteAt after.mem root other = byteAt alloc.mem root other))
        (fun panic => (∃ message, panic = .outOfFrames message) ∧
          rest.length < 3 * ((vaEnd - current + 4095) / 4096))
        (AtOS.allocSegmentPages vaEnd root passes current alloc) := by
  intro passes
  -- The induction is on the passes; each one maps the first page of what is left.
  induction passes with
  | zero =>
    intro current alloc pages taken rest _ enough
    exact absurd enough (Nat.not_lt_zero _)
  | succ passes ih =>
    intro current alloc pages taken rest aligned enough loading unmapped
    by_cases more : current < vaEnd
    · have first : current / 4096 ∈ pageRange (current / 4096) vaEnd := ⟨Nat.le_refl _, by omega⟩
      have here := unmapped _ first
      rw [AtOS.allocSegmentPages, if_pos more]
      rcases result : AtOS.allocPage current root alloc with panic | ⟨pa, middle⟩
      · -- The page is refused for want of frames,
        obtain ⟨message, few⟩ := loading.allocPage_error (by omega) here result
        exact .stopped ⟨message, by omega⟩
      · -- or it is mapped, and takes at most three of them.
        obtain ⟨used, left, count, step, member, bytes⟩ := loading.allocPage_ok (by omega) result
        have noWrap : wrapping (current + 4096) = current + 4096 := Nat.mod_eq_of_lt (by omega)
        have split : pageRange (current / 4096) vaEnd =
            insert (current / 4096) (pageRange ((current + 4096) / 4096) vaEnd) := by
          ext page
          simp only [pageRange, Set.mem_insert_iff, Set.mem_ofPred_eq]
          omega
        -- The pages behind it are not mapped by this pass.
        have later : ∀ page ∈ pageRange ((current + 4096) / 4096) vaEnd,
            page ∉ insert (current / 4096) pages := by
          rintro page behind (rfl | old)
          · have := behind.1
            omega
          · exact unmapped page (split ▸ Set.mem_insert_of_mem _ behind) old
        have lengths : rest.length = used.length + left.length := by
          have parts := congrArg List.length (loading.free_eq.symm.trans step.free_eq)
          simp only [List.length_append] at parts
          omega
        rw [noWrap]
        refine (ih (current + 4096) (by omega) (by omega) step later).imp ?_ ?_
        · rintro after ⟨usedLater, leftLater, countLater, done, bytesLater⟩
          refine ⟨used ++ usedLater, leftLater, ?_, ?_, fun other lowOther => ⟨?_, ?_⟩⟩
          · simp only [List.length_append]
            omega
          · rw [split, Set.union_insert, ← Set.insert_union, ← List.append_assoc]
            exact done
          · -- An address behind is mapped later, and one of this page is mapped now.
            intro inside
            rw [← List.append_assoc]
            by_cases behind : other / 4096 ∈ pageRange ((current + 4096) / 4096) vaEnd
            · exact (bytesLater other lowOther).1 behind
            · rw [split] at inside
              have same : other / 4096 = current / 4096 := inside.resolve_right behind
              refine ⟨start.mem (pa + other % 4096), ?_, pa, by simp [member], rfl⟩
              rw [(bytesLater other lowOther).2 behind, bytes other lowOther, if_pos same]
          · -- An address outside of the range is not touched.
            intro outside
            rw [split, Set.mem_insert_iff, not_or] at outside
            rw [(bytesLater other lowOther).2 outside.2, bytes other lowOther, if_neg outside.1]
        · rintro panic ⟨message, few⟩
          exact ⟨message, by omega⟩
    · -- Nothing is left to map.
      have nothing : pageRange (current / 4096) vaEnd = ∅ := by
        ext page
        simp only [pageRange, Set.mem_ofPred_eq, Set.mem_empty_iff_false, iff_false]
        omega
      rw [AtOS.allocSegmentPages, if_neg more]
      refine .done ⟨[], rest, by simp, ?_, fun other _ => ⟨fun inside => ?_, fun _ => rfl⟩⟩
      · rw [nothing, Set.union_empty, List.append_nil]
        exact loading
      · rw [nothing] at inside
        exact absurd inside (Set.notMem_empty _)

end Pages

section Copy

variable {start alloc : PageAllocator} {roots : Set Nat} {free : List Nat} {managed : Set Nat}
  {root : Nat} {pages spill : Set Nat} {taken rest : List Nat}

/-- Writing into mapped pages keeps what is known of the address space, and changes their bytes. -/
theorem Loading.copyToPages
    (loading : Loading start alloc roots free managed root pages spill taken rest)
    {data : List UInt8} {dst : Nat} (low : dst + data.length ≤ 2 ^ 39)
    (inside : ∀ offset < data.length, (dst + offset) / 4096 ∈ pages) :
    (AtOS.copyToPages data dst root alloc).1 = .ok () ∧
      Loading start (AtOS.copyToPages data dst root alloc).2 roots free managed root pages spill
        taken rest ∧
      ∀ other < 2 ^ 39, byteAt (AtOS.copyToPages data dst root alloc).2.mem root other =
        if dst ≤ other ∧ other < dst + data.length then data[other - dst]?
        else byteAt alloc.mem root other := by
  obtain ⟨done, copied⟩ := copyToPages_spec loading.owned loading.live data dst
  generalize resultEq : (AtOS.copyToPages data dst root alloc).1 = result at copied
  generalize afterEq : (AtOS.copyToPages data dst root alloc).2 = after at copied
  -- All pages of the target are mapped, so the copy goes through.
  have succeeded : result = .ok () := copied.ok_iff.mpr fun offset within =>
    (loading.mapped (dst + offset) (by omega)).mpr (inside offset within)
  -- Pages are written, and no table.
  have walks : ∀ path : List EntryIndex, path.length ≤ 3 →
      walk (child after.mem) root path = walk (child alloc.mem) root path :=
    fun path short => copied.walks loading.owned loading.live loading.live short
  -- What lies outside the managed frames is no byte of the target.
  have unwritten : ∀ address, (∀ pa ∈ managed, address ∉ frame pa) →
      after.mem address = alloc.mem address := by
    intro address apart
    refine copied.unwritten fun offset _ found => ?_
    obtain ⟨leaf, mapped, within⟩ := mem_frame_of_translated found
    exact apart leaf (loading.owned.leaf_managed loading.live mapped).1 within
  refine ⟨succeeded, ⟨loading.free_eq, loading.nodup, copied.owned loading.owned loading.live, ?_,
    ?_, ?_, ?_, ?_, ?_⟩, ?_⟩
  · rw [copied.after_eq]
    exact loading.total
  · intro va lowVa
    rw [leafOf, walks _ (Nat.le_of_eq (pagePath_length va))]
    exact loading.mapped va lowVa
  · rintro pa ⟨path, short, reached⟩
    rw [walks path short] at reached
    exact loading.tree pa ⟨path, short, reached⟩
  · -- The pages that are written belong to the tree.
    intro pa member outside
    refine (copied.kept loading.owned loading.live member fun path full reached => ?_).trans
      (loading.kept pa member outside)
    exact outside (loading.tree pa (node_of_walk (Nat.le_of_eq full) reached))
  · intro address inSpill apart
    rw [unwritten address apart]
    exact loading.spilt address inSpill apart
  · intro address notSpill apart
    rw [unwritten address apart]
    exact loading.outside address notSpill apart
  · -- The bytes of the target are those of the data, and the others are kept.
    intro other lowOther
    exact copied.byteAt loading.owned loading.live low succeeded lowOther

end Copy

end AtOS
