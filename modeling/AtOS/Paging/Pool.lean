import AtOS.Paging.CopyToPages
import AtOS.Paging.DuplicateVaSpace
import Mathlib.Logic.Relation

/-! The pool of frames over whole runs: from `init_frames` on, no frame is lost or held twice. -/

namespace AtOS

open ByteMemory RadixForest

/-- The allocator together with the roots of the address spaces that are alive. -/
structure Pool where
  alloc : PageAllocator
  live : Set Nat

/-- The allocator right after `init_frames`, which finds an empty list and arbitrary memory. -/
structure Pool.Booted (first limit : Nat) (pool : Pool) : Prop where
  /-- The range is page aligned and lies in the kernel window. -/
  aligned : first % 4096 = 0
  window : 0xffffff8000000000 ≤ first
  limit_le : limit ≤ 2 ^ 64
  live_eq : pool.live = ∅
  /-- `FREE_FRAME_LIST` is `None`, and the counters are zero. -/
  alloc_eq : ∃ mem link, link.tag = 0 ∧ link.ptr % 4096 = 0 ∧ link.ptr < 2 ^ 64 ∧
    pool.alloc = initFrames first limit
      { mem, freeFrameList := link, freeFrameCount := 0, totalFrameCount := 0 }

/-- The operations on the allocator, on any of the live roots. -/
inductive Pool.Step : Pool → Pool → Prop
  /-- `load_elf` pops a frame as a new root, without clearing it. -/
  | newRoot {pool : Pool} {root : Nat} {alloc : PageAllocator}
      (popped : getFreeFramePa pool.alloc = some (root, alloc)) :
      Step pool ⟨alloc, insert root pool.live⟩
  | duplicated {pool : Pool} {src dst : Nat} {alloc : PageAllocator} (live : src ∈ pool.live)
      (done : duplicateVaSpace src pool.alloc = (.ok dst, alloc)) :
      Step pool ⟨alloc, insert dst pool.live⟩
  | notDuplicated {pool : Pool} {src : Nat} {error : String} {alloc : PageAllocator}
      (live : src ∈ pool.live) (failed : duplicateVaSpace src pool.alloc = (.error error, alloc)) :
      Step pool ⟨alloc, pool.live⟩
  | allocPage {pool : Pool} {root va pa : Nat} {alloc : PageAllocator} (live : root ∈ pool.live)
      (low : va < 2 ^ 39) (done : allocPage va root pool.alloc = .ok (pa, alloc)) :
      Step pool ⟨alloc, pool.live⟩
  | freePage {pool : Pool} {root va : Nat} (live : root ∈ pool.live) (low : va < 2 ^ 39) :
      Step pool ⟨freePage va root pool.alloc, pool.live⟩
  /-- The copy may also meet an unmapped page, and stop there. -/
  | copyToPages {pool : Pool} {root dst : Nat} (live : root ∈ pool.live) (src : List UInt8) :
      Step pool ⟨(copyToPages src dst root pool.alloc).2, pool.live⟩
  /-- `free_page_table` retires its root. -/
  | freePageTable {pool : Pool} {root : Nat} (live : root ∈ pool.live) :
      Step pool ⟨freePageTable root pool.alloc, pool.live \ {root}⟩

/-- The states reached from `init_frames` on a range, without the out-of-frames panic. -/
def Pool.Reachable (first limit : Nat) (pool : Pool) : Prop :=
  ∃ start, Pool.Booted first limit start ∧ Relation.ReflTransGen Pool.Step start pool

/-- The frames `init_frames` was given. -/
def managedFrames (first limit : Nat) : Set Nat :=
  { pa | ∃ va ∈ frameVas first limit, pa = ttbr1ToPa va }

/-- Where a frame can be: at a position of the free list, or at a path below a root. -/
inductive Place where
  | free (position : Nat)
  | node (root : Nat) (path : List EntryIndex)

/-- A place of a pool holds a frame; the second argument is the free list. -/
def Pool.Holds (pool : Pool) (free : List Nat) : Place → Nat → Prop
  | .free position, pa => free[position]? = some pa
  | .node root path, pa =>
    root ∈ pool.live ∧ path.length ≤ 3 ∧ walk (child pool.alloc.mem) root path = some pa

section Start

/-- Pushing distinct stray frames one after the other makes all of them free. -/
theorem Owned.pushAll {roots : Set Nat} :
    ∀ (frames : List Nat) {alloc : PageAllocator} {free : List Nat} {managed : Set Nat},
      Owned alloc roots free managed → frames.Nodup → (∀ pa ∈ frames, IsFrame pa) →
      (∀ pa ∈ frames, pa ∉ managed) →
      Owned ((frames.map ttbr1ToVa).foldl (fun alloc va => addFreeFrame va alloc) alloc) roots
        (frames.reverse ++ free) (managed ∪ { pa | pa ∈ frames }) := by
  -- The frames are pushed one after the other, and each is new to those before it.
  intro frames
  induction frames with
  | nil =>
    intro alloc free managed owned _ _ _
    simpa using owned
  | cons pa frames ih =>
    intro alloc free managed owned nodup isFrame stray
    obtain ⟨fresh, nodup⟩ := List.nodup_cons.mp nodup
    have pushed := owned.push (isFrame pa (by simp)) (stray pa (by simp))
    have rest := ih pushed nodup (fun other member => isFrame other (by simp [member])) (by
      rintro other member (rfl | inside)
      · exact fresh member
      · exact stray other (by simp [member]) inside)
    -- What is managed in the end is what was managed, and all that has been pushed.
    have whole : insert pa managed ∪ { other | other ∈ frames } =
        managed ∪ { other | other ∈ pa :: frames } := by
      ext other
      simp only [Set.mem_union, Set.mem_insert_iff, Set.mem_ofPred_eq, List.mem_cons]
      tauto
    rw [whole] at rest
    simpa using rest

/-- The kernel addresses of a range in the window are those of consecutive frames. -/
theorem frameVas_eq {first limit : Nat} (aligned : first % 4096 = 0)
    (window : 0xffffff8000000000 ≤ first) (bound : limit ≤ 2 ^ 64) :
    ∃ frames : List Nat, frames.Nodup ∧ (∀ pa ∈ frames, IsFrame pa) ∧
      frameVas first limit = frames.map ttbr1ToVa ∧
      ∀ pa, pa ∈ frames ↔ pa ∈ managedFrames first limit := by
  -- The frames are counted from the first address on, as the loop of `init_frames` does.
  refine ⟨(List.range ((limit - first + 4095) / 4096)).map
    fun step => first - 0xffffff8000000000 + 4096 * step, ?_, ?_, ?_, ?_⟩
  · refine (List.nodup_range).map fun one two same => ?_
    omega
  · intro pa member
    simp only [List.mem_map, List.mem_range] at member
    obtain ⟨step, below, rfl⟩ := member
    constructor <;> omega
  · -- In the window, an address is the physical one with the high bits set.
    rw [frameVas, List.map_map]
    refine List.map_congr_left fun step below => ?_
    have position := List.mem_range.mp below
    have small : first - 0xffffff8000000000 + 4096 * step < 2 ^ 39 := by omega
    have shifted := ttbr1ToVa_eq small
    rw [Function.comp_apply, shifted]
    omega
  · intro pa
    simp only [managedFrames, frameVas, List.mem_map, List.mem_range, Set.mem_ofPred_eq,
      exists_exists_and_eq_and, ttbr1ToPa_eq]
    constructor
    · rintro ⟨step, below, rfl⟩
      exact ⟨step, below, by omega⟩
    · rintro ⟨step, below, rfl⟩
      exact ⟨step, below, by omega⟩

end Start

/-- The invariant of every run: all frames of the range are owned, and the total counts them. -/
structure Pool.Conserved (pool : Pool) (free : List Nat) (managed : Set Nat) : Prop where
  owned : Owned pool.alloc pool.live free managed
  total : pool.alloc.totalFrameCount = managed.ncard

/-- `init_frames` puts every frame of the range on the free list. -/
theorem Pool.Booted.conserved {first limit : Nat} {pool : Pool} (booted : pool.Booted first limit) :
    ∃ free, pool.Conserved free (managedFrames first limit) := by
  obtain ⟨mem, link, none, linkAligned, fits, allocEq⟩ := booted.alloc_eq
  obtain ⟨frames, nodup, isFrame, vas, members⟩ :=
    frameVas_eq booted.aligned booted.window booted.limit_le
  -- The pool starts empty, and every frame of the region is pushed.
  have pushed := (Owned.empty mem none linkAligned fits 0).pushAll frames nodup isFrame
    fun pa _ => Set.notMem_empty pa
  have whole : (∅ ∪ { pa | pa ∈ frames } : Set Nat) = managedFrames first limit := by
    ext pa
    simp [members pa]
  rw [whole, List.append_nil] at pushed
  -- The total is counted along with the frames.
  have size : (managedFrames first limit).ncard = frames.length := by
    rw [← List.toFinset_card_of_nodup nodup, ← Set.ncard_coe_finset]
    congr 1
    ext pa
    simp [members pa]
  refine ⟨frames.reverse, ?_, ?_⟩
  · rw [allocEq, booted.live_eq, initFrames, vas]
    exact pushed.withTotal _
  · rw [allocEq, initFrames, vas, size]
    simpa using pushed.count

section NewRoot

variable {alloc : PageAllocator} {roots : Set Nat} {free : List Nat} {managed : Set Nat}

/-- The words of a free frame are a tag, a page aligned pointer, and zeros: no valid entry. -/
theorem Owned.popped_childless {pa : Nat} (owned : Owned alloc roots (pa :: free) managed)
    (index : EntryIndex) : child alloc.mem pa index = none := by
  -- A frame that is popped holds the link of a free frame, and zeros behind it.
  obtain ⟨-, zero, tail⟩ := owned.chain
  obtain ⟨tag, aligned, -⟩ := tail.link_words fun other member => owned.free_frame (by simp [member])
  rw [child_eq_none, IsValid]
  have low := BitMasks.and_low (entry alloc.mem pa index) 2
  simp only [Nat.reducePow, Nat.reduceSub] at low
  rw [low]
  rcases Nat.lt_or_ge index.val 2 with link | behind
  · -- The first two entries are the words of the link.
    rcases Nat.lt_or_ge index.val 1 with first | second
    · have position : entry alloc.mem pa index = (readLink alloc.mem pa).tag := by
        rw [entry, show index.val = 0 by omega]
        rfl
      omega
    · have position : entry alloc.mem pa index = (readLink alloc.mem pa).ptr := by
        rw [entry, show index.val = 1 by omega]
        rfl
      omega
  · -- All other entries are zero.
    have nothing : entry alloc.mem pa index = 0 := readLE_zero fun address inside => zero address (by
      have bound := index.isLt
      simp only [block, Set.mem_Ico] at *
      omega)
    omega

/-- A frame popped from the free list becomes a root that maps nothing. -/
theorem Owned.newRoot {pa : Nat} (owned : Owned alloc roots (pa :: free) managed) :
    ∃ after, getFreeFramePa alloc = some (pa, after) ∧ after.mem = alloc.mem ∧
      after.totalFrameCount = alloc.totalFrameCount ∧ pa ∉ roots ∧
      Owned after (insert pa roots) free managed ∧ ∀ index, child after.mem pa index = none := by
  obtain ⟨after, pop, mem, total, ownedRest, isFrame, member⟩ := owned.pop
  have childless : ∀ index, child after.mem pa index = none := fun index =>
    mem ▸ owned.popped_childless index
  have adopted := ownedRest.adopt isFrame (fun inside => inside.2 rfl) childless
  rw [Set.insert_sdiff_self_of_mem member] at adopted
  refine ⟨after, pop, mem, total, fun live => ?_, adopted, childless⟩
  exact owned.apart pa live pa (root_mem_nodes pa) (by simp)

end NewRoot

/-- Every operation keeps the invariant. -/
theorem Pool.Step.conserved {pool next : Pool} (step : Pool.Step pool next) {managed : Set Nat} :
    (∃ free, pool.Conserved free managed) → ∃ free, next.Conserved free managed := by
  rintro ⟨free, owned, total⟩
  -- Each operation accounts for its own frames, and none changes the total.
  cases step with
  | newRoot popped =>
    -- A pop that succeeds has found a frame in the list.
    cases free with
    | nil => simp [owned.pop_nil] at popped
    | cons pa free =>
      obtain ⟨after, pop, -, same, -, adopted, -⟩ := owned.newRoot
      rw [pop] at popped
      cases popped
      exact ⟨free, adopted, same.trans total⟩
  -- A copy that succeeds owns what it has taken, and one that fails is rolled back.
  | duplicated live done =>
    have outcome := duplicateVaSpace_spec owned live
    rw [done] at outcome
    cases outcome with
    | done copied =>
      obtain ⟨used, rest, copied⟩ := copied
      exact ⟨rest, copied.owned, copied.total.trans total⟩
  | notDuplicated live failed =>
    have outcome := duplicateVaSpace_spec owned live
    rw [failed] at outcome
    cases outcome with
    | failed rolledBack =>
      obtain ⟨rest, rolledBack⟩ := rolledBack
      exact ⟨rest, rolledBack.owned, rolledBack.total.trans total⟩
  -- A page takes at most three frames, and an address that is not mapped gives none back.
  | @allocPage root va pa alloc live low done =>
    have outcome := allocPage_spec owned live va
    rw [done] at outcome
    obtain ⟨taken, rest, added⟩ := outcome
    exact ⟨rest, added.owned, added.total.trans total⟩
  | @freePage root va live low =>
    cases mapped : leafOf pool.alloc.mem root va with
    | none => exact ⟨free, by rw [freePage_unmapped mapped]; exact owned,
        by rw [freePage_unmapped mapped]; exact total⟩
    | some pa =>
      have removed := freePage_spec owned live mapped
      exact ⟨pa :: free, removed.owned, removed.total.trans total⟩
  -- Copying bytes changes no table.
  | @copyToPages root dst live src =>
    obtain ⟨stored, copied⟩ := copyToPages_spec owned live src dst
    refine ⟨free, copied.owned owned live, ?_⟩
    rw [copied.after_eq]
    exact total
  -- Freeing an address space gives back all its frames.
  | freePageTable live =>
    obtain ⟨freed, gone⟩ := freePageTable_spec owned live
    exact ⟨freed ++ free, gone.owned, gone.total.trans total⟩

/-- In every reachable state, all frames of the range are owned. -/
theorem Pool.Reachable.conserved {first limit : Nat} {pool : Pool}
    (reached : pool.Reachable first limit) :
    ∃ free, pool.Conserved free (managedFrames first limit) := by
  obtain ⟨start, booted, run⟩ := reached
  induction run with
  | refl => exact booted.conserved
  | tail _ step ih => exact step.conserved ih

section Conservation

variable {first limit : Nat} {pool : Pool} {free : List Nat} {managed : Set Nat}

/-- A frame that is accounted for has a place. -/
theorem Pool.Conserved.place (conserved : pool.Conserved free managed) {pa : Nat}
    (member : pa ∈ managed) : ∃ place, pool.Holds free place pa := by
  rcases (conserved.owned.cover pa).mp member with listed | ⟨root, live, path, short, reached⟩
  · obtain ⟨position, bound, here⟩ := List.getElem_of_mem listed
    exact ⟨.free position, by simp [Pool.Holds, bound, here]⟩
  · exact ⟨.node root path, live, short, reached⟩

/-- A place holds only frames that are accounted for. -/
theorem Pool.Conserved.managed_of_holds (conserved : pool.Conserved free managed) {place : Place}
    {pa : Nat} (holds : pool.Holds free place pa) : pa ∈ managed := by
  cases place with
  | free position => exact conserved.owned.free_managed (List.mem_of_getElem? holds)
  | node root path =>
    obtain ⟨live, short, reached⟩ := holds
    exact conserved.owned.node_managed live (node_of_walk short reached)

/-- No frame has two places. -/
theorem Pool.Conserved.place_unique (conserved : pool.Conserved free managed) {place other : Place}
    {pa : Nat} (holds : pool.Holds free place pa) (holdsOther : pool.Holds free other pa) :
    other = place := by
  -- The free list has no duplicates, the trees are separate, and the two do not meet.
  cases place with
  | free position =>
    cases other with
    | free second =>
      have inside := (List.getElem?_eq_some_iff.mp holdsOther).1
      rw [(List.getElem?_inj inside conserved.owned.nodup).mp (holdsOther.trans holds.symm)]
    | node root path =>
      obtain ⟨live, short, reached⟩ := holdsOther
      exact absurd (List.mem_of_getElem? holds)
        (conserved.owned.apart root live pa (node_of_walk short reached))
  | node root path =>
    obtain ⟨live, short, reached⟩ := holds
    cases other with
    | free second =>
      exact absurd (List.mem_of_getElem? holdsOther)
        (conserved.owned.apart root live pa (node_of_walk short reached))
    | node owner rest =>
      obtain ⟨liveOther, shortOther, reachedOther⟩ := holdsOther
      obtain ⟨rfl, rfl⟩ :=
        conserved.owned.separate liveOther live shortOther short reachedOther reached
      rfl

/-- The frames held by the live address spaces. -/
def Pool.ownedFrames (pool : Pool) : Set Nat :=
  { pa | ∃ root ∈ pool.live, pa ∈ nodes (child pool.alloc.mem) 3 root }

/-- Free frames and owned frames add up to all frames. -/
theorem Pool.Conserved.sum (conserved : pool.Conserved free managed) (finite : managed.Finite) :
    pool.alloc.freeFrameCount + pool.ownedFrames.ncard = pool.alloc.totalFrameCount := by
  -- Every managed frame is free or in a tree,
  have split : managed = { pa | pa ∈ free } ∪ pool.ownedFrames := by
    ext pa
    exact conserved.owned.cover pa
  -- and never both.
  have apart : Disjoint { pa | pa ∈ free } pool.ownedFrames := by
    rw [Set.disjoint_left]
    rintro pa listed ⟨root, live, inside⟩
    exact conserved.owned.apart root live pa inside listed
  have finiteOwned : pool.ownedFrames.Finite :=
    finite.subset (split ▸ Set.subset_union_right)
  -- The list has no duplicates, so its length counts the frames.
  have size : { pa | pa ∈ free }.ncard = free.length := by
    rw [← List.toFinset_card_of_nodup conserved.owned.nodup, ← Set.ncard_coe_finset]
    congr 1
    ext pa
    simp
  rw [conserved.total, split, Set.ncard_union_eq apart free.finite_toSet finiteOwned, size,
    conserved.owned.count]

/-- The range of frames is finite. -/
theorem managedFrames_finite (first limit : Nat) : (managedFrames first limit).Finite := by
  refine ((frameVas first limit).map ttbr1ToPa).finite_toSet.subset ?_
  rintro pa ⟨va, member, rfl⟩
  exact List.mem_map.mpr ⟨va, member, rfl⟩

/--
In every reachable state each frame of the range has exactly one place.

The free list is a chain without repetition, its length is `FREE_FRAME_COUNT`, and free and owned
frames add up to `TOTAL_FRAME_COUNT`.
-/
theorem Pool.Reachable.frame_conservation (reached : pool.Reachable first limit) :
    ∃ free : List Nat,
      FreeChain pool.alloc.mem pool.alloc.freeFrameList free ∧ free.Nodup ∧
      pool.alloc.freeFrameCount = free.length ∧
      (∀ pa ∈ managedFrames first limit, ∃! place, pool.Holds free place pa) ∧
      (∀ place pa, pool.Holds free place pa → pa ∈ managedFrames first limit) ∧
      pool.alloc.freeFrameCount + pool.ownedFrames.ncard = pool.alloc.totalFrameCount := by
  obtain ⟨free, conserved⟩ := reached.conserved
  refine ⟨free, conserved.owned.chain, conserved.owned.nodup, conserved.owned.count, ?_, ?_,
    conserved.sum (managedFrames_finite first limit)⟩
  · intro pa member
    obtain ⟨place, holds⟩ := conserved.place member
    exact ⟨place, holds, fun other holdsOther => conserved.place_unique holds holdsOther⟩
  · intro place pa holds
    exact conserved.managed_of_holds holds

/-- Two frames of zeroed memory, right after `init_frames`. -/
def twoFramePool : Pool where
  alloc := initFrames 0xffffff8000000000 0xffffff8000002000
    { mem := fun _ => 0, freeFrameList := ⟨0, 0⟩, freeFrameCount := 0, totalFrameCount := 0 }
  live := ∅

/-- The pool of two frames is a start of runs. -/
theorem twoFramePool_booted :
    twoFramePool.Booted 0xffffff8000000000 0xffffff8000002000 :=
  ⟨by decide, by decide, by decide, rfl, fun _ => 0, ⟨0, 0⟩, rfl, rfl, by decide, rfl⟩

/-- A run of the pool of two frames that makes one of them a root. -/
theorem frame_conservation_newRoot : ∃ root alloc,
    getFreeFramePa twoFramePool.alloc = some (root, alloc) ∧ ∃ free : List Nat,
      alloc.freeFrameCount = free.length ∧
      alloc.freeFrameCount + (Pool.ownedFrames ⟨alloc, insert root ∅⟩).ncard =
        alloc.totalFrameCount := by
  have popped : getFreeFramePa twoFramePool.alloc = some _ := rfl
  obtain ⟨free, -, -, count, -, -, sum⟩ := Pool.Reachable.frame_conservation
    ⟨twoFramePool, twoFramePool_booted, Relation.ReflTransGen.single (.newRoot popped)⟩
  exact ⟨_, _, popped, free, count, sum⟩

/-- Six frames of zeroed memory, right after `init_frames`. -/
def sixFreeFrames : PageAllocator := initFrames 0xffffff8000000000 0xffffff8000006000
  { mem := fun _ => 0, freeFrameList := ⟨0, 0⟩, freeFrameCount := 0, totalFrameCount := 0 }

/-- Two of the six frames become roots, and three more serve a page of the first root. -/
def sixFrames : Option PageAllocator :=
  (getFreeFramePa sixFreeFrames).bind fun first =>
    (getFreeFramePa first.2).bind fun second =>
      (allocPage 0 0x5000 second.2).toOption.map Prod.snd

/-- That is a run of the pool. -/
theorem sixFrames_reachable {alloc : PageAllocator} (done : sixFrames = some alloc) :
    Pool.Reachable 0xffffff8000000000 0xffffff8000006000 ⟨alloc, {0x4000, 0x5000}⟩ := by
  -- All six frames are free at boot.
  have booted : Pool.Booted 0xffffff8000000000 0xffffff8000006000 ⟨sixFreeFrames, ∅⟩ :=
    ⟨by decide, by decide, by decide, rfl, fun _ => 0, ⟨0, 0⟩, rfl, rfl, by decide, rfl⟩
  have roots : (getFreeFramePa sixFreeFrames).map (fun first =>
      (first.1, (getFreeFramePa first.2).map Prod.fst)) = some (0x5000, some 0x4000) := by
    decide
  obtain ⟨⟨root, first⟩, pop, done⟩ := Option.bind_eq_some_iff.mp done
  obtain ⟨⟨other, second⟩, popOther, done⟩ := Option.bind_eq_some_iff.mp done
  rw [pop, Option.map_some, popOther] at roots
  obtain ⟨rfl, rfl⟩ : root = 0x5000 ∧ other = 0x4000 := by simpa using roots
  -- The two roots are the first frames of the list, and the page takes three more.
  cases mapped : allocPage 0 0x5000 second with
  | error panic =>
    dsimp only at done
    rw [mapped] at done
    cases done
  | ok value =>
    dsimp only at done
    rw [mapped] at done
    obtain rfl : value.2 = alloc := Option.some.inj done
    have newRoot : Pool.Step ⟨sixFreeFrames, ∅⟩ ⟨first, insert 0x5000 ∅⟩ := .newRoot pop
    have newOther : Pool.Step ⟨first, insert 0x5000 ∅⟩ ⟨second, {0x4000, 0x5000}⟩ := by
      rw [← insert_empty_eq]
      exact .newRoot popOther
    have live : 0x5000 ∈ ({0x4000, 0x5000} : Set Nat) := by simp
    have page : Pool.Step ⟨second, {0x4000, 0x5000}⟩ ⟨value.2, {0x4000, 0x5000}⟩ :=
      .allocPage live (by decide) mapped
    have run := ((Relation.ReflTransGen.single newRoot).tail newOther).tail page
    exact ⟨_, booted, run⟩

/-- One frame is left, and the first root has a page. -/
theorem sixFrames_some : ∃ alloc, sixFrames = some alloc ∧ alloc.freeFrameCount = 1 ∧
    leafOf alloc.mem 0x5000 0 = some 0x1000 := by
  have facts : sixFrames.map (fun alloc => (alloc.freeFrameCount, leafOf alloc.mem 0x5000 0)) =
      some (1, some 0x1000) := by decide
  obtain ⟨alloc, done, facts⟩ := Option.map_eq_some_iff.mp facts
  exact ⟨alloc, done, congrArg Prod.fst facts, congrArg Prod.snd facts⟩

end Conservation

end AtOS
