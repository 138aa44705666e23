import AtOS.Paging.Entries

/-! Every managed frame is either on the free list or in exactly one place of one address space. -/

namespace AtOS

open ByteMemory RadixForest

/--
The frames a link leads to, one link after the other.

A free frame is zero behind its link, since it was zeroed when it was pushed.
-/
def FreeChain (mem : Mem) : FreeLink → List Nat → Prop
  | link, [] => link.tag = 0 ∧ link.ptr % 4096 = 0 ∧ link.ptr < 2 ^ 64
  | link, pa :: rest => link = { tag := 1, ptr := ttbr1ToVa pa } ∧
    (∀ address ∈ block (pa + 16) 4080, mem address = 0) ∧
    FreeChain mem (readLink mem pa) rest

/-- A chain depends only on the bytes of its frames. -/
theorem FreeChain.congr {mem next : Mem} {link : FreeLink} {free : List Nat}
    (chain : FreeChain mem link free)
    (same : ∀ pa ∈ free, Set.EqOn next mem (frame pa)) : FreeChain next link free := by
  induction free generalizing link with
  | nil => exact chain
  | cons pa rest ih =>
    obtain ⟨head, zero, tail⟩ := chain
    have kept := same pa (by simp)
    refine ⟨head, fun address inside => ?_, ?_⟩
    · have within : address ∈ frame pa := by
        simp only [frame, block, Set.mem_Ico] at *
        omega
      rw [kept within, zero address inside]
    · rw [readLink_congr kept]
      exact ih tail fun other member => same other (by simp [member])

/-- The words of a link in a chain are a tag of 0 or 1 and a page aligned pointer. -/
theorem FreeChain.link_words {mem : Mem} {link : FreeLink} {free : List Nat}
    (chain : FreeChain mem link free) (frames : ∀ pa ∈ free, IsFrame pa) :
    link.tag ≤ 1 ∧ link.ptr % 4096 = 0 ∧ link.ptr < 2 ^ 64 := by
  cases free with
  | nil =>
    obtain ⟨tag, aligned, fits⟩ := chain
    exact ⟨by omega, aligned, fits⟩
  | cons pa rest =>
    obtain ⟨rfl, -, -⟩ := chain
    exact ⟨Nat.le_refl 1, ttbr1ToVa_aligned (frames pa (by simp))⟩

/--
The allocator owns its frames properly: what is not free belongs to one place of one live root.

`managed` collects the frames that are accounted for; a frame in flight is left out of it.
-/
structure Owned (alloc : PageAllocator) (roots : Set Nat) (free : List Nat) (managed : Set Nat) :
    Prop where
  chain : FreeChain alloc.mem alloc.freeFrameList free
  count : alloc.freeFrameCount = free.length
  nodup : free.Nodup
  frames : ∀ pa ∈ managed, IsFrame pa
  separate : Separate (child alloc.mem) 3 roots
  apart : ∀ root ∈ roots, ∀ pa ∈ nodes (child alloc.mem) 3 root, pa ∉ free
  cover : ∀ pa, pa ∈ managed ↔ pa ∈ free ∨ ∃ root ∈ roots, pa ∈ nodes (child alloc.mem) 3 root

section Owned

variable {alloc : PageAllocator} {roots : Set Nat} {free : List Nat} {managed : Set Nat}

/-- A free frame is managed. -/
theorem Owned.free_managed (owned : Owned alloc roots free managed) {pa : Nat} (member : pa ∈ free) :
    pa ∈ managed := (owned.cover pa).mpr (Or.inl member)

/-- A frame of an address space is managed. -/
theorem Owned.node_managed (owned : Owned alloc roots free managed) {root pa : Nat}
    (live : root ∈ roots) (member : pa ∈ nodes (child alloc.mem) 3 root) : pa ∈ managed :=
  (owned.cover pa).mpr (Or.inr ⟨root, live, member⟩)

/-- A root is managed. -/
theorem Owned.root_managed (owned : Owned alloc roots free managed) {root : Nat}
    (live : root ∈ roots) : root ∈ managed := owned.node_managed live (root_mem_nodes root)

/-- A free frame is aligned, and has an address in the window. -/
theorem Owned.free_frame (owned : Owned alloc roots free managed) {pa : Nat} (member : pa ∈ free) :
    IsFrame pa := owned.frames pa (owned.free_managed member)

/-- So is a frame of an address space. -/
theorem Owned.node_frame (owned : Owned alloc roots free managed) {root pa : Nat}
    (live : root ∈ roots) (member : pa ∈ nodes (child alloc.mem) 3 root) : IsFrame pa :=
  owned.frames pa (owned.node_managed live member)

/-- A node reached by a path is a node of the tree. -/
theorem node_of_walk {mem : Mem} {root pa : Nat} {path : List EntryIndex} (short : path.length ≤ 3)
    (reached : walk (child mem) root path = some pa) : pa ∈ nodes (child mem) 3 root :=
  ⟨path, short, reached⟩

/-- The words of the link at the head of the free list. -/
theorem Owned.link_words (owned : Owned alloc roots free managed) :
    alloc.freeFrameList.tag ≤ 1 ∧ alloc.freeFrameList.ptr % 4096 = 0 ∧
      alloc.freeFrameList.ptr < 2 ^ 64 :=
  owned.chain.link_words fun _ member => owned.free_frame member

/-- Memory that keeps the free frames and all tables keeps the ownership. -/
theorem Owned.keep (owned : Owned alloc roots free managed) {next : Mem}
    (freeKept : ∀ pa ∈ free, Set.EqOn next alloc.mem (frame pa))
    (tablesKept : ∀ root ∈ roots, ∀ table ∈ tables (child alloc.mem) 3 root,
      Set.EqOn next alloc.mem (frame table)) :
    Owned { alloc with mem := next } roots free managed := by
  -- The tables have the same pointers as before, so all trees are the same.
  have sameChild : ∀ root ∈ roots, Set.EqOn (child next) (child alloc.mem)
      (tables (child alloc.mem) 3 root) :=
    fun root live table member => child_congr (tablesKept root live table member)
  have sameNodes : ∀ root ∈ roots, nodes (child next) 3 root = nodes (child alloc.mem) 3 root :=
    fun root live => nodes_congr (sameChild root live)
  refine ⟨owned.chain.congr freeKept, owned.count, owned.nodup, owned.frames,
    owned.separate.congr sameChild, ?_, ?_⟩
  · intro root live pa member
    exact owned.apart root live pa (sameNodes root live ▸ member)
  · -- So the same frames are accounted for.
    intro pa
    rw [owned.cover pa]
    constructor
    · rintro (member | ⟨root, live, member⟩)
      · exact Or.inl member
      · exact Or.inr ⟨root, live, sameNodes root live ▸ member⟩
    · rintro (member | ⟨root, live, member⟩)
      · exact Or.inl member
      · exact Or.inr ⟨root, live, sameNodes root live ▸ member⟩

/-- Memory that keeps every accounted frame keeps the ownership. -/
theorem Owned.keep_managed (owned : Owned alloc roots free managed) {next : Mem}
    (kept : ∀ pa ∈ managed, Set.EqOn next alloc.mem (frame pa)) :
    Owned { alloc with mem := next } roots free managed :=
  owned.keep (fun pa member => kept pa (owned.free_managed member))
    fun _ live table member =>
      kept table (owned.node_managed live (tables_subset_nodes _ member))

/-- Memory that keeps all tables keeps every path. -/
theorem walk_keep {next : Mem} {root : Nat}
    (kept : ∀ table ∈ tables (child alloc.mem) 3 root, Set.EqOn next alloc.mem (frame table))
    {path : List EntryIndex} (short : path.length ≤ 3) :
    walk (child next) root path = walk (child alloc.mem) root path :=
  walk_congr (fun table member => child_congr (kept table member)) path short

/-- Two accounts of the same trees agree on what is free. -/
theorem Owned.free_iff {after : PageAllocator} {rest : List Nat}
    (owned : Owned alloc roots free managed) (ownedAfter : Owned after roots rest managed)
    (same : ∀ root ∈ roots, nodes (child after.mem) 3 root = nodes (child alloc.mem) 3 root)
    (pa : Nat) : pa ∈ rest ↔ pa ∈ free := by
  constructor
  · intro listed
    rcases (owned.cover pa).mp (ownedAfter.free_managed listed) with member | ⟨root, live, inside⟩
    · exact member
    · exact absurd listed (ownedAfter.apart root live pa ((same root live).symm ▸ inside))
  · intro listed
    rcases (ownedAfter.cover pa).mp (owned.free_managed listed) with member | ⟨root, live, inside⟩
    · exact member
    · exact absurd listed (owned.apart root live pa (same root live ▸ inside))

/-- An empty pool owns nothing. -/
theorem Owned.empty (mem : Mem) {link : FreeLink} (none : link.tag = 0)
    (aligned : link.ptr % 4096 = 0) (fits : link.ptr < 2 ^ 64) (total : Nat) :
    Owned ⟨mem, link, 0, total⟩ ∅ [] ∅ := by
  refine ⟨⟨none, aligned, fits⟩, rfl, List.nodup_nil, ?_, ?_, ?_, ?_⟩
  · intro pa member
    exact absurd member (Set.notMem_empty pa)
  · intro root live
    exact absurd live (Set.notMem_empty root)
  · intro root live
    exact absurd live (Set.notMem_empty root)
  · simp

/-- The count of all frames plays no part in ownership. -/
theorem Owned.withTotal (owned : Owned alloc roots free managed) (total : Nat) :
    Owned { alloc with totalFrameCount := total } roots free managed :=
  ⟨owned.chain, owned.count, owned.nodup, owned.frames, owned.separate, owned.apart, owned.cover⟩

end Owned

section Push

variable {alloc : PageAllocator} {roots : Set Nat} {free : List Nat} {managed : Set Nat}

/-- Pushing the frame behind a kernel address zeroes it, links it and counts it. -/
theorem addFreeFrame_eq (alloc : PageAllocator) {pa : Nat} (isFrame : IsFrame pa) :
    addFreeFrame (ttbr1ToVa pa) alloc =
      { alloc with
        mem := writeLink (fill alloc.mem pa 4096 0) pa alloc.freeFrameList
        freeFrameList := { tag := 1, ptr := ttbr1ToVa pa }
        freeFrameCount := alloc.freeFrameCount + 1 } := by
  obtain ⟨aligned, fits⟩ := ttbr1ToVa_aligned isFrame
  simp only [addFreeFrame, zeroFrame, pageMask_aligned aligned fits,
    ttbr1ToPa_ttbr1ToVa isFrame.2]

/-- Pushing a frame leaves every byte outside it alone. -/
theorem addFreeFrame_outside (alloc : PageAllocator) {pa : Nat} (isFrame : IsFrame pa)
    {address : Nat} (outside : address ∉ frame pa) :
    (addFreeFrame (ttbr1ToVa pa) alloc).mem address = alloc.mem address := by
  rw [addFreeFrame_eq alloc isFrame]
  have behind : address ∉ block pa 16 := fun inside => outside (by
    simp only [frame, block, Set.mem_Ico] at *
    omega)
  exact (writeLink_outside _ pa _ behind).trans (fill_outside _ pa 4096 0 outside)

/-- Pushing a frame that is not accounted for puts it at the head of the free list. -/
theorem Owned.push (owned : Owned alloc roots free managed) {pa : Nat} (isFrame : IsFrame pa)
    (stray : pa ∉ managed) :
    Owned (addFreeFrame (ttbr1ToVa pa) alloc) roots (pa :: free) (insert pa managed) := by
  -- Every accounted frame is another one, so its bytes are kept.
  have kept : ∀ other ∈ managed,
      Set.EqOn (addFreeFrame (ttbr1ToVa pa) alloc).mem alloc.mem (frame other) := by
    intro other member address inside
    have distinct : other ≠ pa := fun same => stray (same ▸ member)
    exact addFreeFrame_outside alloc isFrame
      (frame_disjoint (owned.frames other member) isFrame distinct inside)
  have same := owned.keep_managed kept
  obtain ⟨tag, aligned, fits⟩ := owned.link_words
  refine ⟨?_, ?_, ?_, ?_, same.separate, ?_, ?_⟩
  · -- The new head holds the old list as its link, and zeros behind it.
    have linked : readLink (addFreeFrame (ttbr1ToVa pa) alloc).mem pa = alloc.freeFrameList := by
      rw [addFreeFrame_eq alloc isFrame]
      exact readLink_writeLink _ pa (by omega) fits
    refine ⟨by rw [addFreeFrame_eq alloc isFrame], fun address inside => ?_, ?_⟩
    · rw [addFreeFrame_eq alloc isFrame]
      simp only [block, Set.mem_Ico] at inside
      have behind : address ∉ block pa 16 := by simp only [block, Set.mem_Ico]; omega
      have within : address ∈ block pa 4096 := by simp only [block, Set.mem_Ico]; omega
      exact (writeLink_outside _ pa _ behind).trans (fill_inside _ pa 4096 0 within)
    · rw [linked]
      exact same.chain
  · -- The counter is that of a list which is longer by one.
    rw [addFreeFrame_eq alloc isFrame]
    simp [owned.count]
  · exact List.nodup_cons.mpr ⟨fun member => stray (owned.free_managed member), owned.nodup⟩
  · intro other member
    rcases member with rfl | member
    · exact isFrame
    · exact owned.frames other member
  · -- No tree can contain a frame that was not managed.
    intro root live node member
    have inside := same.node_managed live member
    have distinct : node ≠ pa := fun equal => stray (equal ▸ inside)
    simpa [distinct] using same.apart root live node member
  · intro node
    rw [Set.mem_insert_iff, List.mem_cons, same.cover node]
    tauto

/-- Pushing a stray frame keeps every path of the live roots. -/
theorem Owned.push_walk (owned : Owned alloc roots free managed) {pa : Nat} (isFrame : IsFrame pa)
    (stray : pa ∉ managed) {root : Nat} (live : root ∈ roots) {path : List EntryIndex}
    (short : path.length ≤ 3) :
    walk (child (addFreeFrame (ttbr1ToVa pa) alloc).mem) root path =
      walk (child alloc.mem) root path := by
  refine walk_keep (fun table member address inside => ?_) short
  have inTree := owned.node_managed live (tables_subset_nodes root member)
  have distinct : table ≠ pa := fun same => stray (same ▸ inTree)
  exact addFreeFrame_outside alloc isFrame
    (frame_disjoint (owned.frames table inTree) isFrame distinct inside)

/-- Popping takes the head of the free list out of the account. -/
theorem Owned.pop {pa : Nat} (owned : Owned alloc roots (pa :: free) managed) :
    ∃ after, getFreeFramePa alloc = some (pa, after) ∧ after.mem = alloc.mem ∧
      after.totalFrameCount = alloc.totalFrameCount ∧
      Owned after roots free (managed \ {pa}) ∧ IsFrame pa ∧ pa ∈ managed := by
  obtain ⟨head, zero, tail⟩ := owned.chain
  have isFrame : IsFrame pa := owned.free_frame (by simp)
  obtain ⟨fresh, nodup⟩ := List.nodup_cons.mp owned.nodup
  -- The list holds addresses in the window, and the physical address is read off the head.
  have here : ttbr1ToPa (ttbr1ToVa pa) = pa := ttbr1ToPa_ttbr1ToVa isFrame.2
  refine ⟨{ alloc with
      freeFrameList := readLink alloc.mem pa
      freeFrameCount := alloc.freeFrameCount - 1 }, ?_, rfl, rfl, ?_, isFrame,
    owned.free_managed (by simp)⟩
  · simp [getFreeFramePa, FreeLink.toOption, head, here]
  · refine ⟨tail, ?_, nodup, fun other member => owned.frames other member.1, owned.separate,
      ?_, ?_⟩
    · simp [owned.count]
    · intro root live node member listed
      exact owned.apart root live node member (by simp [listed])
    · intro node
      rw [Set.mem_sdiff, owned.cover node, List.mem_cons, Set.mem_singleton_iff]
      -- The popped frame is in no tree and not further down the list.
      constructor
      · rintro ⟨(rfl | member) | member, distinct⟩
        · exact absurd rfl distinct
        · exact Or.inl member
        · exact Or.inr member
      · rintro (member | ⟨root, live, member⟩)
        · exact ⟨Or.inl (Or.inr member), fun same => fresh (same ▸ member)⟩
        · exact ⟨Or.inr ⟨root, live, member⟩, fun same =>
            owned.apart root live node member (by simp [same])⟩

/-- An empty free list yields no frame. -/
theorem Owned.pop_nil (owned : Owned alloc roots [] managed) : getFreeFramePa alloc = none := by
  have tag := owned.chain.1
  simp [getFreeFramePa, FreeLink.toOption, tag]

end Push

section Roots

variable {alloc : PageAllocator} {roots : Set Nat} {free : List Nat} {managed : Set Nat}

/-- A stray frame without children becomes a live root. -/
theorem Owned.adopt (owned : Owned alloc roots free managed) {root : Nat} (isFrame : IsFrame root)
    (stray : root ∉ managed) (childless : ∀ index, child alloc.mem root index = none) :
    Owned alloc (insert root roots) free (insert root managed) := by
  -- The new tree has no other node.
  have alone : ∀ pa, pa ∈ nodes (child alloc.mem) 3 root → pa = root := by
    rintro pa ⟨path, -, reached⟩
    by_cases empty : path = []
    · subst empty
      exact (Option.some.inj reached).symm
    · rw [walk_childless childless empty] at reached
      cases reached
  -- Nothing that was accounted for changes, and the new root adds only itself.
  refine ⟨owned.chain, owned.count, owned.nodup, ?_, ?_, ?_, ?_⟩
  · intro pa member
    rcases member with rfl | member
    · exact isFrame
    · exact owned.frames pa member
  · exact owned.separate.insert_childless childless fun other live member =>
      stray (owned.node_managed live member)
  · intro other live pa member listed
    rcases live with rfl | live
    · exact stray (alone pa member ▸ owned.free_managed listed)
    · exact owned.apart other live pa member listed
  · intro pa
    rw [Set.mem_insert_iff, owned.cover pa]
    constructor
    · rintro (rfl | member | ⟨other, live, member⟩)
      · exact Or.inr ⟨pa, Set.mem_insert _ _, root_mem_nodes pa⟩
      · exact Or.inl member
      · exact Or.inr ⟨other, Set.mem_insert_of_mem _ live, member⟩
    · rintro (member | ⟨other, rfl | live, member⟩)
      · exact Or.inr (Or.inl member)
      · exact Or.inl (alone pa member)
      · exact Or.inr (Or.inr ⟨other, live, member⟩)

/-- Retiring a root puts the frames of its tree in flight. -/
theorem Owned.retire (owned : Owned alloc roots free managed) {root : Nat} (live : root ∈ roots) :
    Owned alloc (roots \ {root}) free (managed \ nodes (child alloc.mem) 3 root) := by
  refine ⟨owned.chain, owned.count, owned.nodup, fun pa member => owned.frames pa member.1,
    owned.separate.mono Set.sdiff_subset, fun other stays => owned.apart other stays.1, ?_⟩
  intro pa
  rw [Set.mem_sdiff, owned.cover pa]
  constructor
  · rintro ⟨member | ⟨other, liveOther, member⟩, outside⟩
    · exact Or.inl member
    · refine Or.inr ⟨other, ⟨liveOther, ?_⟩, member⟩
      rintro rfl
      exact outside member
  · rintro (member | ⟨other, ⟨liveOther, distinct⟩, member⟩)
    · exact ⟨Or.inl member, fun inside => owned.apart root live pa inside member⟩
    · exact ⟨Or.inr ⟨other, liveOther, member⟩,
        owned.separate.disjoint liveOther live distinct member⟩

end Roots

section Pointer

variable {alloc : PageAllocator} {roots : Set Nat} {free : List Nat} {managed : Set Nat}
  {root table : Nat} {path : List EntryIndex} {index : EntryIndex}

/-- Tables of live roots other than the changed one keep their children. -/
theorem Owned.other_table (owned : Owned alloc roots free managed) (live : root ∈ roots)
    (short : path.length < 3) (reached : walk (child alloc.mem) root path = some table)
    {owner node : Nat} (liveOwner : owner ∈ roots) {rest : List EntryIndex}
    (shortRest : rest.length < 3) (reachedRest : walk (child alloc.mem) owner rest = some node)
    (elsewhere : ¬ (owner = root ∧ rest = path)) : node ≠ table := by
  rintro rfl
  exact elsewhere (owned.separate liveOwner live (Nat.le_of_lt shortRest) (Nat.le_of_lt short)
    reachedRest reached)

/--
A stray frame is hung into an empty entry of a table.

The new frame is zeroed, or it becomes a leaf; otherwise only the entry changes.
-/
theorem Owned.attach (owned : Owned alloc roots free managed) (live : root ∈ roots)
    (short : path.length < 3) (reached : walk (child alloc.mem) root path = some table)
    (vacant : child alloc.mem table index = none) {pa flags : Nat} (isFrame : IsFrame pa)
    (stray : pa ∉ managed) (valid : flags &&& 0b11 = 0b11)
    (attributes : flags &&& addressMask = 0) (fits : flags < 2 ^ 64) (next : Mem)
    (elsewhere : ∀ address ∉ frame pa,
      next address = setEntry alloc.mem table index (pa ||| flags) address)
    (content : path.length = 2 ∨ ∀ address ∈ frame pa, next address = 0) :
    Owned { alloc with mem := next } roots free (insert pa managed) ∧
      ∀ owner ∈ roots, ∀ rest : List EntryIndex, rest.length ≤ 3 →
        walk (child next) owner rest = if owner = root ∧ rest = path ++ [index] then some pa
          else walk (child alloc.mem) owner rest := by
  -- The new frame is not managed yet, so it is not the table either.
  have tableNode := node_of_walk (Nat.le_of_lt short) reached
  have tableManaged := owned.node_managed live tableNode
  have tableFrame := owned.frames table tableManaged
  have apartTable : table ≠ pa := fun same => stray (same ▸ tableManaged)
  -- Accounted frames other than the table keep their bytes.
  have kept : ∀ other ∈ managed, other ≠ table →
      Set.EqOn next alloc.mem (frame other) := by
    intro other member distinct address inside
    have apart : other ≠ pa := fun same => stray (same ▸ member)
    have isOther := owned.frames other member
    rw [elsewhere address (frame_disjoint isOther isFrame apart inside)]
    exact setEntry_outside _ _ _ (frame_disjoint isOther tableFrame distinct inside)
  have tableKept : Set.EqOn next (setEntry alloc.mem table index (pa ||| flags)) (frame table) :=
    fun address inside =>
      elsewhere address (frame_disjoint tableFrame isFrame apartTable inside)
  have sameTable : child next table =
      child (setEntry alloc.mem table index (pa ||| flags)) table := child_congr tableKept
  -- For the trees, one pointer of one table is replaced.
  have replaces : Replaces (child alloc.mem) (child next) 3 roots root path index (some pa) := by
    refine ⟨live, short, ⟨table, reached, ?_, ?_, Or.inr vacant⟩, ?_, ?_⟩
    · rw [sameTable]
      exact child_setEntry _ table index isFrame valid attributes fits
    · intro other distinct
      rw [sameTable]
      exact child_setEntry_of_ne _ table _ distinct
    · -- Another path leads to another table, which is not written.
      intro owner liveOwner rest shortRest node reachedRest apart
      have distinct := owned.other_table live short reached liveOwner shortRest reachedRest apart
      have member := node_of_walk (Nat.le_of_lt shortRest) reachedRest
      exact child_congr (kept node (owned.node_managed liveOwner member) distinct)
    · intro node same
      cases same
      refine ⟨fun owner liveOwner member => stray (owned.node_managed liveOwner member), ?_⟩
      rcases content with leaf | zero
      · exact Or.inl (by omega)
      · exact Or.inr fun other => child_zero zero other
  -- So the paths are known, and all parts of the account follow from them.
  have walks := fun owner (liveOwner : owner ∈ roots) rest shortRest =>
    replaces.walk_eq liveOwner rest shortRest
  refine ⟨⟨?_, owned.count, owned.nodup, ?_, replaces.separate owned.separate, ?_, ?_⟩, walks⟩
  · refine owned.chain.congr fun other member => ?_
    refine kept other (owned.free_managed member) fun same => ?_
    exact owned.apart root live table tableNode (same ▸ member)
  · intro other member
    rcases member with rfl | member
    · exact isFrame
    · exact owned.frames other member
  · -- The new frame was not in the list, and the others stay apart from it.
    rintro owner liveOwner node ⟨rest, shortRest, reachedRest⟩ listed
    rw [walks owner liveOwner rest shortRest] at reachedRest
    split at reachedRest
    · cases reachedRest
      exact stray (owned.free_managed listed)
    · exact owned.apart owner liveOwner node ⟨rest, shortRest, reachedRest⟩ listed
  · -- A node is an old one, or the one that has been hung in.
    intro node
    rw [Set.mem_insert_iff, owned.cover node]
    constructor
    · rintro (rfl | member | ⟨owner, liveOwner, rest, shortRest, reachedRest⟩)
      · refine Or.inr ⟨root, live, path ++ [index], by simp; omega, ?_⟩
        rw [walks root live _ (by simp; omega), if_pos ⟨rfl, rfl⟩]
      · exact Or.inl member
      · refine Or.inr ⟨owner, liveOwner, rest, shortRest, ?_⟩
        rw [walks owner liveOwner rest shortRest, if_neg ?_]
        · exact reachedRest
        · rintro ⟨rfl, rfl⟩
          rw [walk_snoc, reached] at reachedRest
          simp [vacant] at reachedRest
    · rintro (member | ⟨owner, liveOwner, rest, shortRest, reachedRest⟩)
      · exact Or.inr (Or.inl member)
      · rw [walks owner liveOwner rest shortRest] at reachedRest
        split at reachedRest
        · cases reachedRest
          exact Or.inl rfl
        · exact Or.inr (Or.inr ⟨owner, liveOwner, rest, shortRest, reachedRest⟩)

/-- A leaf is unhooked from its table by clearing the entry, which puts it in flight. -/
theorem Owned.detach (owned : Owned alloc roots free managed) (live : root ∈ roots)
    (deep : path.length = 2) (reached : walk (child alloc.mem) root path = some table) {pa : Nat}
    (mapped : child alloc.mem table index = some pa) :
    Owned { alloc with mem := setEntry alloc.mem table index 0 } roots free (managed \ {pa}) ∧
      ∀ owner ∈ roots, ∀ rest : List EntryIndex, rest.length ≤ 3 →
        walk (child (setEntry alloc.mem table index 0)) owner rest =
          if owner = root ∧ rest = path ++ [index] then none
          else walk (child alloc.mem) owner rest := by
  have short : path.length < 3 := by omega
  have tableNode := node_of_walk (Nat.le_of_lt short) reached
  have tableFrame := owned.node_frame live tableNode
  have leaf : walk (child alloc.mem) root (path ++ [index]) = some pa := by
    rw [walk_snoc, reached]
    exact mapped
  -- Accounted frames other than the table keep their bytes.
  have kept : ∀ other ∈ managed, other ≠ table →
      Set.EqOn (setEntry alloc.mem table index 0) alloc.mem (frame other) :=
    fun other member distinct address inside => setEntry_outside _ _ _
      (frame_disjoint (owned.frames other member) tableFrame distinct inside)
  -- For the trees, one pointer of one table is gone.
  have replaces : Replaces (child alloc.mem) (child (setEntry alloc.mem table index 0)) 3 roots
      root path index none := by
    refine ⟨live, short, ⟨table, reached, child_setEntry_zero _ table index, ?_, Or.inl ?_⟩,
      ?_, ?_⟩
    · intro other distinct
      exact child_setEntry_of_ne _ table _ distinct
    · omega
    · intro owner liveOwner rest shortRest node reachedRest apart
      have distinct := owned.other_table live short reached liveOwner shortRest reachedRest apart
      have member := node_of_walk (Nat.le_of_lt shortRest) reachedRest
      exact child_congr (kept node (owned.node_managed liveOwner member) distinct)
    · intro node same
      cases same
  -- So the paths are known, and all parts of the account follow from them.
  have walks := fun owner (liveOwner : owner ∈ roots) rest shortRest =>
    replaces.walk_eq liveOwner rest shortRest
  refine ⟨⟨?_, owned.count, owned.nodup, fun other member => owned.frames other member.1,
    replaces.separate owned.separate, ?_, ?_⟩, walks⟩
  · refine owned.chain.congr fun other member => ?_
    refine kept other (owned.free_managed member) fun same => ?_
    exact owned.apart root live table tableNode (same ▸ member)
  · rintro owner liveOwner node ⟨rest, shortRest, reachedRest⟩ listed
    rw [walks owner liveOwner rest shortRest] at reachedRest
    split at reachedRest
    · cases reachedRest
    · exact owned.apart owner liveOwner node ⟨rest, shortRest, reachedRest⟩ listed
  · -- What is left of the trees is all but the page, which no other path reached.
    intro node
    rw [Set.mem_sdiff, Set.mem_singleton_iff, owned.cover node]
    constructor
    · rintro ⟨member | ⟨owner, liveOwner, rest, shortRest, reachedRest⟩, distinct⟩
      · exact Or.inl member
      · refine Or.inr ⟨owner, liveOwner, rest, shortRest, ?_⟩
        rw [walks owner liveOwner rest shortRest, if_neg ?_]
        · exact reachedRest
        · rintro ⟨rfl, rfl⟩
          rw [leaf] at reachedRest
          exact distinct (Option.some.inj reachedRest).symm
    · rintro (member | ⟨owner, liveOwner, rest, shortRest, reachedRest⟩)
      · refine ⟨Or.inl member, ?_⟩
        rintro rfl
        exact owned.apart root live node (node_of_walk (by simp; omega) leaf) member
      · rw [walks owner liveOwner rest shortRest] at reachedRest
        split at reachedRest
        · cases reachedRest
        · -- Another path to the same page would be a page in two places.
          rename_i apart
          refine ⟨Or.inr ⟨owner, liveOwner, rest, shortRest, reachedRest⟩, ?_⟩
          rintro rfl
          exact apart (owned.separate liveOwner live shortRest (by simp; omega) reachedRest leaf)

end Pointer

end AtOS
