import AtOS.Paging.Pool

/-! What a frame still holds when it is handed out: the link it had on the free list. -/

namespace AtOS

open ByteMemory RadixForest

/-- All bytes of a frame are zero. -/
def IsClean (mem : Mem) (pa : Nat) : Prop := ∀ address ∈ frame pa, mem address = 0

/-- The link behind some frames of a list. -/
def endLink (mem : Mem) : Nat → FreeLink → FreeLink
  | 0, link => link
  | count + 1, link => endLink mem count (readLink mem (ttbr1ToPa link.ptr))

/-- The pointer word of the `None` that ends the free list; nothing ever reads it. -/
def PageAllocator.endPointer (alloc : PageAllocator) : Nat :=
  (endLink alloc.mem alloc.freeFrameCount alloc.freeFrameList).ptr

/--
A step that hands out a frame: `load_elf` takes a root, or `alloc_page` maps a leaf.

The number says how many frames become tables before.
-/
inductive Pool.HandsOut (pool : Pool) : Pool → Nat → Nat → Prop
  | newRoot {root : Nat} {alloc : PageAllocator}
      (popped : getFreeFramePa pool.alloc = some (root, alloc)) :
      HandsOut pool ⟨alloc, insert root pool.live⟩ 0 root
  | leaf {root va pa : Nat} {alloc : PageAllocator} (live : root ∈ pool.live) (low : va < 2 ^ 39)
      (done : allocPage va root pool.alloc = .ok (pa, alloc)) :
      HandsOut pool ⟨alloc, pool.live⟩ (missingTables pool.alloc.mem root va) pa

section Links

variable {mem : Mem} {link : FreeLink} {pa : Nat}

/-- A word is zero when its bytes are, and only then. -/
theorem readLE_eq_zero (mem : Mem) (start : Nat) :
    readLE mem start 8 = 0 ↔ ∀ address ∈ block start 8, mem address = 0 := by
  constructor
  · intro zero address inside
    simp only [block, Set.mem_Ico] at inside
    have digit := @readLE_digit mem start 8 (address - start) (by omega)
    rw [zero, Nat.zero_div, Nat.zero_mod, show start + (address - start) = address by omega] at digit
    exact UInt8.toNat_inj.mp digit.symm
  · exact readLE_zero

/-- A frame that is zero behind its link is clean when the words of the link are zero. -/
theorem isClean_iff (zero : ∀ address ∈ block (pa + 16) 4080, mem address = 0) :
    IsClean mem pa ↔ (readLink mem pa).tag = 0 ∧ (readLink mem pa).ptr = 0 := by
  simp only [readLink, readLE_eq_zero]
  simp only [IsClean, frame, block, Set.mem_Ico] at *
  constructor
  · intro clean
    exact ⟨fun address inside => clean address (by omega), fun address inside => clean address (by omega)⟩
  · rintro ⟨tag, ptr⟩ address inside
    rcases Nat.lt_or_ge address (pa + 8) with inTag | behind
    · exact tag address (by omega)
    · rcases Nat.lt_or_ge address (pa + 16) with inPointer | tail
      · exact ptr address (by omega)
      · exact zero address (by omega)

/-- A free frame starts with the words of a link, and is zero behind them. -/
theorem FreeChain.link_of_mem {free : List Nat} (chain : FreeChain mem link free)
    (frames : ∀ pa ∈ free, IsFrame pa) (listed : pa ∈ free) :
    (∀ address ∈ block (pa + 16) 4080, mem address = 0) ∧ (readLink mem pa).tag ≤ 1 ∧
      (readLink mem pa).ptr % 4096 = 0 := by
  induction free generalizing link with
  | nil => cases listed
  | cons head rest ih =>
    obtain ⟨-, zero, tail⟩ := chain
    rcases List.mem_cons.mp listed with rfl | later
    · obtain ⟨tag, aligned, -⟩ := tail.link_words fun other member => frames other (by simp [member])
      exact ⟨zero, tag, aligned⟩
    · exact ih tail (fun other member => frames other (by simp [member])) later

/-- A frame that is not the last of a chain points to the next one. -/
theorem FreeChain.link_next {next : Nat} {before behind : List Nat}
    (chain : FreeChain mem link (before ++ pa :: next :: behind)) :
    readLink mem pa = { tag := 1, ptr := ttbr1ToVa next } := by
  induction before generalizing link with
  | nil => exact chain.2.2.1
  | cons head rest ih => exact ih chain.2.2

/-- The last frame of a chain holds the link that ends it. -/
theorem FreeChain.link_last {before : List Nat} (chain : FreeChain mem link (before ++ [pa]))
    (frames : ∀ other ∈ before ++ [pa], IsFrame other) :
    (readLink mem pa).tag = 0 ∧ readLink mem pa = endLink mem (before ++ [pa]).length link := by
  induction before generalizing link with
  | nil =>
    obtain ⟨rfl, -, ends⟩ := chain
    have isFrame := frames pa (by simp)
    refine ⟨ends.1, ?_⟩
    simp only [List.nil_append, List.length_singleton, endLink, ttbr1ToPa_ttbr1ToVa isFrame.2]
  | cons head before ih =>
    obtain ⟨rfl, -, tail⟩ := chain
    have isFrame := frames head (by simp)
    obtain ⟨tag, same⟩ := ih tail fun other member => frames other (by
      rw [List.cons_append]
      exact List.mem_cons_of_mem _ member)
    refine ⟨tag, same.trans ?_⟩
    simp only [List.cons_append, List.length_cons, endLink, ttbr1ToPa_ttbr1ToVa isFrame.2]

end Links

section HandedOut

variable {alloc after : PageAllocator} {roots : Set Nat} {free taken rest : List Nat}
  {managed : Set Nat} {root va pa : Nat}

/-- A free frame is clean exactly if it is the last one, and the list ends in a null pointer. -/
theorem Owned.clean_iff (owned : Owned alloc roots (taken ++ pa :: rest) managed) :
    IsClean alloc.mem pa ↔ alloc.freeFrameCount = taken.length + 1 ∧ alloc.endPointer = 0 := by
  have listed : pa ∈ taken ++ pa :: rest := by simp
  obtain ⟨zero, -⟩ := owned.chain.link_of_mem (fun _ => owned.free_frame) listed
  rw [isClean_iff zero, owned.count, List.length_append]
  cases rest with
  | nil =>
    obtain ⟨tag, same⟩ := owned.chain.link_last fun other => owned.free_frame
    rw [PageAllocator.endPointer, owned.count, ← same]
    simp [tag]
  | cons next rest =>
    -- A frame that is not the last one points to the next.
    have linked := owned.chain.link_next
    rw [linked]
    simp

/-- The leaf that `alloc_page` maps has the bytes it had on the free list. -/
theorem PageAdded.leaf_kept (added : PageAdded alloc after roots free managed va root pa taken rest)
    (owned : Owned alloc roots free managed) (live : root ∈ roots) :
    Set.EqOn after.mem alloc.mem (frame pa) := by
  have listed : pa ∈ free := added.free_eq ▸ List.mem_append_right _ List.mem_cons_self
  refine added.frame_kept owned live (owned.free_managed listed) (fun inTree => ?_) fun inTaken => ?_
  · exact owned.apart root live pa (tables_subset_nodes root inTree) listed
  · have nodup := added.free_eq ▸ owned.nodup
    exact (List.nodup_append.mp nodup).2.2 pa inTaken pa List.mem_cons_self rfl

/-- A new root has the bytes it had on the free list. -/
theorem Owned.root_clean_iff (owned : Owned alloc roots free managed)
    (popped : getFreeFramePa alloc = some (root, after)) :
    IsClean after.mem root ↔ alloc.freeFrameCount = 1 ∧ alloc.endPointer = 0 := by
  cases free with
  | nil =>
    rw [owned.pop_nil] at popped
    cases popped
  | cons head rest =>
    obtain ⟨rest, pop, sameMem, -⟩ := owned.pop
    rw [pop] at popped
    cases popped
    rw [sameMem]
    exact @Owned.clean_iff _ _ [] _ _ _ owned

/-- A new leaf is clean exactly if the list is empty behind it. -/
theorem Owned.leaf_clean_iff (owned : Owned alloc roots free managed) (live : root ∈ roots)
    (done : allocPage va root alloc = .ok (pa, after)) :
    IsClean after.mem pa ↔
      alloc.freeFrameCount = missingTables alloc.mem root va + 1 ∧ alloc.endPointer = 0 := by
  have outcome := allocPage_spec owned live va
  rw [done] at outcome
  obtain ⟨taken, rest, added⟩ := outcome
  have kept := added.leaf_kept owned live
  have same : IsClean after.mem pa ↔ IsClean alloc.mem pa :=
    forall₂_congr fun address inside => by rw [kept inside]
  have split := owned
  rw [added.free_eq] at split
  rw [same, split.clean_iff, added.count]

/-- At most two tables are missing on the way to an address. -/
theorem missingTables_le (mem : Mem) (root va : Nat) : missingTables mem root va ≤ 2 := by
  unfold missingTables
  split
  · exact Nat.le_refl 2
  · split <;> omega

end HandedOut

section Runs

variable {first limit : Nat} {pool next : Pool} {before pa : Nat}

/--
In every run, a frame is clean when it is handed out exactly if it is the last one that is free.

The list has to end in a null pointer, besides. Every other frame still has the tag and the kernel
address that linked it to the next one: they are written after the frame is zeroed.
-/
theorem Pool.Reachable.clean_iff_last (reached : pool.Reachable first limit)
    (handsOut : pool.HandsOut next before pa) :
    IsClean next.alloc.mem pa ↔
      pool.alloc.freeFrameCount = before + 1 ∧ pool.alloc.endPointer = 0 := by
  obtain ⟨free, owned, -⟩ := reached.conserved
  cases handsOut with
  | newRoot popped => exact owned.root_clean_iff popped
  | leaf live low done => exact owned.leaf_clean_iff live done

/-- Of two frames, the first one to be handed out is not clean. -/
theorem clean_iff_last_newRoot : ∃ root alloc,
    getFreeFramePa twoFramePool.alloc = some (root, alloc) ∧ ¬ IsClean alloc.mem root := by
  have popped : getFreeFramePa twoFramePool.alloc = some _ := rfl
  have reached : twoFramePool.Reachable 0xffffff8000000000 0xffffff8000002000 :=
    ⟨twoFramePool, twoFramePool_booted, .refl⟩
  refine ⟨_, _, popped, fun clean => ?_⟩
  obtain ⟨last, -⟩ := (reached.clean_iff_last (.newRoot popped)).mp clean
  exact absurd last (by decide)

/-- Five frames of zeroed memory, right after `init_frames`. -/
def fiveFramePool : Pool where
  alloc := initFrames 0xffffff8000000000 0xffffff8000005000
    { mem := fun _ => 0, freeFrameList := ⟨0, 0⟩, freeFrameCount := 0, totalFrameCount := 0 }
  live := ∅

/-- The small pool is one after boot. -/
theorem fiveFramePool_booted : fiveFramePool.Booted 0xffffff8000000000 0xffffff8000005000 :=
  ⟨by decide, by decide, by decide, rfl, fun _ => 0, ⟨0, 0⟩, rfl, rfl, by decide, rfl⟩

/-- Of five frames, neither a first root nor its first leaf is clean when it is handed out. -/
theorem clean_counterexample : ∃ next after root before leaf,
    fiveFramePool.Reachable 0xffffff8000000000 0xffffff8000005000 ∧
      fiveFramePool.HandsOut next 0 root ∧ ¬ IsClean next.alloc.mem root ∧
      next.HandsOut after before leaf ∧ ¬ IsClean after.alloc.mem leaf := by
  obtain ⟨free, owned, -⟩ := fiveFramePool_booted.conserved
  have five : fiveFramePool.alloc.freeFrameCount = 5 := by decide
  have size : free.length = 5 := owned.count.symm.trans five
  obtain ⟨root, rest, rfl⟩ := List.exists_cons_of_length_eq_add_one size
  obtain ⟨alloc, popped, -, -, -, adopted, childless⟩ := owned.newRoot
  -- The root is new, so the address is not mapped yet.
  have live : root ∈ insert root fiveFramePool.live := Set.mem_insert _ _
  have four : rest.length = 4 := Nat.succ.inj size
  have unmapped : leafOf alloc.mem root 0 = none := walk_childless childless (by simp [pagePath])
  rcases mapped : allocPage 0 root alloc with panic | ⟨leaf, after⟩
  · -- Four frames are enough for a page.
    have outcome := allocPage_spec adopted live 0
    rw [mapped] at outcome
    rcases outcome with ⟨-, some⟩ | ⟨-, few, -⟩
    · rw [unmapped] at some
      cases some
    · omega
  · refine ⟨⟨alloc, insert root fiveFramePool.live⟩, ⟨after, _⟩, root, _, leaf,
      ⟨_, fiveFramePool_booted, .refl⟩, .newRoot popped, fun clean => ?_,
      .leaf live (by decide) mapped, fun clean => ?_⟩
    · -- A root is clean only if it is the last free frame, and four are left.
      have last := ((owned.root_clean_iff popped).mp clean).1
      omega
    · -- A page needs two tables besides, so one frame is left behind it.
      have last := ((adopted.leaf_clean_iff live mapped).mp clean).1
      have few := missingTables_le alloc.mem root 0
      have count := adopted.count
      omega

end Runs

end AtOS
