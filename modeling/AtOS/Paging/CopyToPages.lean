import AtOS.Library.TranslatedStore
import AtOS.Paging.AllocPage

/-! Writing into another address space: `copy_to_pages` page by page is a store byte by byte. -/

namespace AtOS

open ByteMemory RadixForest TranslatedStore

section Translation

variable {mem : Mem} {root va other : Nat}

/-- Addresses of one page select the same indices. -/
theorem pagePath_of_page (same : va / 4096 = other / 4096) : pagePath va = pagePath other := by
  -- Every index is a digit of the page number.
  simp only [pagePath, l1Index, l2Index, l3Index, List.cons.injEq, and_true, Fin.ext_iff,
    tableIndex_val]
  omega

/-- Inside a page, translation is linear. -/
theorem ttbr0ToPa_add {pa : Nat} (found : ttbr0ToPa mem va root = some pa) (offset : Nat)
    (inside : va % 4096 + offset < 4096) : ttbr0ToPa mem (va + offset) root = some (pa + offset) := by
  have samePage : (va + offset) / 4096 = va / 4096 := by omega
  have position : (va + offset) % 4096 = va % 4096 + offset := by omega
  rw [ttbr0ToPa_eq] at found
  rw [ttbr0ToPa_eq, pagePath_of_page samePage, position]
  obtain ⟨leaf, reached, rfl⟩ := Option.map_eq_some_iff.mp found
  simp [reached, Nat.add_assoc]

/-- A translated address lies in the leaf frame of its page, at the offset of the page. -/
theorem ttbr0ToPa_eq_some {pa : Nat} :
    ttbr0ToPa mem va root = some pa ↔
      ∃ leaf, leafOf mem root va = some leaf ∧ leaf + va % 4096 = pa := by
  rw [ttbr0ToPa_eq, leafOf, Option.map_eq_some_iff]

/-- A translated address lies in the frame of a leaf. -/
theorem mem_frame_of_translated {pa : Nat} (found : ttbr0ToPa mem va root = some pa) :
    ∃ leaf, leafOf mem root va = some leaf ∧ pa ∈ frame leaf := by
  obtain ⟨leaf, mapped, rfl⟩ := ttbr0ToPa_eq_some.mp found
  refine ⟨leaf, mapped, ?_⟩
  simp only [frame, block, Set.mem_Ico]
  omega

/-- Memory that keeps the tables of a root keeps its translation. -/
theorem ttbr0ToPa_congr {next : Mem}
    (kept : ∀ table ∈ tables (child mem) 3 root, Set.EqOn next mem (frame table)) (va : Nat) :
    ttbr0ToPa next va root = ttbr0ToPa mem va root := by
  have same : walk (child next) root (pagePath va) = walk (child mem) root (pagePath va) :=
    walk_congr (fun table member => child_congr (kept table member)) (pagePath va)
      (Nat.le_refl 3)
  rw [ttbr0ToPa_eq, ttbr0ToPa_eq, same]

end Translation

section Owned

variable {alloc : PageAllocator} {roots : Set Nat} {free : List Nat} {managed : Set Nat}
  {root owner va other pa : Nat}

/-- Two addresses of live roots share a byte only if they are the same address. -/
theorem Owned.translate_inj (owned : Owned alloc roots free managed) (live : root ∈ roots)
    (liveOwner : owner ∈ roots) (low : va < 2 ^ 39) (lowOther : other < 2 ^ 39)
    (found : ttbr0ToPa alloc.mem va root = some pa)
    (foundOther : ttbr0ToPa alloc.mem other owner = some pa) : root = owner ∧ va = other := by
  obtain ⟨leaf, mapped, offset⟩ := ttbr0ToPa_eq_some.mp found
  obtain ⟨leafOther, mappedOther, offsetOther⟩ := ttbr0ToPa_eq_some.mp foundOther
  have isLeaf := (owned.node_frame live (node_of_walk (by simp) mapped)).1
  have isLeafOther := (owned.node_frame liveOwner (node_of_walk (by simp) mappedOther)).1
  -- Frames are aligned, so the leaves and the offsets agree separately.
  have sameLeaf : leaf = leafOther := by omega
  subst sameLeaf
  obtain ⟨rfl, samePath⟩ := owned.separate live liveOwner (Nat.le_of_eq (pagePath_length va))
    (Nat.le_of_eq (pagePath_length other)) mapped mappedOther
  have samePage := (pagePath_inj low lowOther).mp samePath
  exact ⟨rfl, by omega⟩

/-- A translated address belongs to a leaf, and to no other frame that is accounted for. -/
theorem Owned.translated_outside (owned : Owned alloc roots free managed) (live : root ∈ roots)
    (found : ttbr0ToPa alloc.mem va root = some pa) {node : Nat} (member : node ∈ managed)
    (distinct : ∀ leaf, leafOf alloc.mem root va = some leaf → node ≠ leaf) : pa ∉ frame node := by
  obtain ⟨leaf, mapped, inside⟩ := mem_frame_of_translated found
  have isLeaf := owned.node_frame live (node_of_walk (by simp) mapped)
  exact frame_disjoint isLeaf (owned.frames node member) (distinct leaf mapped).symm inside

/-- A store through the translation of a live root keeps all tables and the free frames. -/
theorem Owned.storeThrough_kept (owned : Owned alloc roots free managed) (live : root ∈ roots)
    (start : Nat) (data : List UInt8) {node : Nat} (member : node ∈ managed)
    (distinct : ∀ path : List EntryIndex, path.length = 3 →
      walk (child alloc.mem) root path ≠ some node) :
    Set.EqOn (storeThrough (ttbr0ToPa alloc.mem · root) alloc.mem start data) alloc.mem
      (frame node) := by
  intro address inside
  refine TranslatedStore.storeThrough_kept fun offset _ found => ?_
  refine owned.translated_outside live found member (fun leaf mapped same => ?_) inside
  subst same
  exact distinct _ rfl mapped

end Owned

/--
What `copy_to_pages` leaves behind: some prefix of the source is stored.

The prefix is all of the source exactly when the call succeeds.
-/
structure PagesCopied (alloc after : PageAllocator) (src : List UInt8) (dst root : Nat)
    (result : Except String Unit) (done : Nat) : Prop where
  prefix_le : done ≤ src.length
  mapped : ∀ offset < done, (leafOf alloc.mem root (dst + offset)).isSome
  stopped : done < src.length → leafOf alloc.mem root (dst + done) = none
  result_eq : result =
    if done = src.length then .ok () else .error "Destination page not mapped"
  after_eq : after = { alloc with
    mem := storeThrough (ttbr0ToPa alloc.mem · root) alloc.mem dst (src.take done) }

section CopyToPages

variable {alloc : PageAllocator} {roots : Set Nat} {free : List Nat} {managed : Set Nat}
  {root : Nat}

/-- A store through the translation keeps the translation. -/
theorem Owned.translate_storeThrough (owned : Owned alloc roots free managed) (live : root ∈ roots)
    (start : Nat) (data : List UInt8) (va : Nat) :
    ttbr0ToPa (storeThrough (ttbr0ToPa alloc.mem · root) alloc.mem start data) va root =
      ttbr0ToPa alloc.mem va root := by
  refine ttbr0ToPa_congr (fun table member => ?_) va
  refine owned.storeThrough_kept live start data
    (owned.node_managed live (tables_subset_nodes root member)) fun path full reached => ?_
  exact owned.separate.leaf_not_table live live full reached member

/-- One pass of `copy_to_pages` stores the bytes that belong to one page. -/
theorem Owned.store_page (owned : Owned alloc roots free managed) (live : root ∈ roots)
    (mem : Mem) {va pa : Nat} (chunk : List UInt8) (found : ttbr0ToPa alloc.mem va root = some pa)
    (inPage : va % 4096 + chunk.length ≤ 4096) :
    store mem (ttbr1ToPa (ttbr1ToVa pa)) chunk =
      storeThrough (ttbr0ToPa alloc.mem · root) mem va chunk := by
  obtain ⟨leaf, mapped, offset⟩ := ttbr0ToPa_eq_some.mp found
  have isLeaf := owned.node_frame live (node_of_walk (by simp) mapped)
  -- A leaf is aligned and below the window, and so is the rest of its page.
  have small : pa < 2 ^ 39 := by
    obtain ⟨aligned, low⟩ := isLeaf
    omega
  rw [ttbr1ToPa_ttbr1ToVa small]
  refine (storeThrough_block fun offset within => ?_).symm
  exact ttbr0ToPa_add found offset (by omega)

/-- From any offset on, the loop stores the mapped prefix of what is left of the source. -/
theorem copyToPagesFrom_spec (owned : Owned alloc roots free managed) (live : root ∈ roots)
    (src : List UInt8) (dst : Nat) :
    ∀ passes srcOffset, srcOffset ≤ src.length → src.length - srcOffset ≤ passes →
      (∀ offset < srcOffset, (leafOf alloc.mem root (dst + offset)).isSome) →
      ∃ done, PagesCopied alloc
        { alloc with mem := (copyToPagesFrom src root passes srcOffset (dst + srcOffset)
            (storeThrough (ttbr0ToPa alloc.mem · root) alloc.mem dst (src.take srcOffset))).2 }
        src dst root
        (copyToPagesFrom src root passes srcOffset (dst + srcOffset)
            (storeThrough (ttbr0ToPa alloc.mem · root) alloc.mem dst (src.take srcOffset))).1
        done := by
  intro passes
  -- The induction is on the passes left; the memory is always the store of a prefix.
  induction passes with
  | zero =>
    intro srcOffset bound enough before
    have finished : srcOffset = src.length := by omega
    subst finished
    exact ⟨src.length, Nat.le_refl _, before, fun absurdity => by omega, by simp [copyToPagesFrom],
      rfl⟩
  | succ passes ih =>
    intro srcOffset bound enough before
    by_cases more : srcOffset < src.length
    · simp only [copyToPagesFrom, if_pos more, ttbr0ToTtbr1, owned.translate_storeThrough live]
      cases found : ttbr0ToPa alloc.mem (dst + srcOffset) root with
      | none =>
        -- The page is missing, and the loop stops with the prefix stored so far.
        have unmapped : leafOf alloc.mem root (dst + srcOffset) = none := by
          rw [ttbr0ToPa_eq, Option.map_eq_none_iff] at found
          exact found
        refine ⟨srcOffset, bound, before, fun _ => unmapped, ?_, rfl⟩
        rw [if_neg (by omega)]
        rfl
      | some pa =>
        -- The page is there, and the pass extends the prefix by its share of the page.
        have share : bytesThisPage (dst + srcOffset) (src.length - srcOffset) =
            min (4096 - (dst + srcOffset) % 4096) (src.length - srcOffset) := by
          have low : (dst + srcOffset) &&& 4095 = (dst + srcOffset) % 4096 :=
            BitMasks.and_low _ 12
          rw [bytesThisPage, low]
        have pageRest : (dst + srcOffset) % 4096 < 4096 := Nat.mod_lt _ (by decide)
        simp only [Option.map_some, share]
        generalize counted : min (4096 - (dst + srcOffset) % 4096) (src.length - srcOffset) = count
        have chunkLength : ((src.drop srcOffset).take count).length = count := by
          rw [List.length_take, List.length_drop]
          omega
        have stored := owned.store_page live
          (storeThrough (ttbr0ToPa alloc.mem · root) alloc.mem dst (src.take srcOffset))
          ((src.drop srcOffset).take count) found (by omega)
        have prefixLength : (src.take srcOffset).length = srcOffset := by
          rw [List.length_take]
          omega
        have extended := storeThrough_append (ttbr0ToPa alloc.mem · root) alloc.mem
          dst (src.take srcOffset) ((src.drop srcOffset).take count)
        rw [prefixLength, ← List.take_add] at extended
        rw [stored, ← extended, Nat.add_assoc]
        refine ih (srcOffset + count) (by omega) (by omega) fun offset within => ?_
        by_cases old : offset < srcOffset
        · exact before offset old
        · -- A byte of this pass lies in the page that was just found.
          have later := ttbr0ToPa_add found (offset - srcOffset) (by omega)
          rw [show dst + srcOffset + (offset - srcOffset) = dst + offset by omega] at later
          rw [← ttbr0ToPa_isSome, later]
          rfl
    · -- Nothing is left to copy, so the loop has stored all of the data.
      have finished : srcOffset = src.length := by omega
      subst finished
      exact ⟨src.length, Nat.le_refl _, before, fun absurdity => by omega,
        by simp [copyToPagesFrom], by simp [copyToPagesFrom]⟩

/-- `copy_to_pages` stores the source up to the first page that is not mapped. -/
theorem copyToPages_spec (owned : Owned alloc roots free managed) (live : root ∈ roots)
    (src : List UInt8) (dst : Nat) :
    ∃ done, PagesCopied alloc (copyToPages src dst root alloc).2 src dst root
      (copyToPages src dst root alloc).1 done :=
  copyToPagesFrom_spec owned live src dst src.length 0 (Nat.zero_le _) (Nat.le_refl _)
    fun _ absurdity => absurd absurdity (Nat.not_lt_zero _)

end CopyToPages

section Effects

variable {alloc after : PageAllocator} {roots : Set Nat} {free : List Nat} {managed : Set Nat}
  {src : List UInt8} {dst root done : Nat} {result : Except String Unit}

/-- The call succeeds exactly when every byte of the target is mapped. -/
theorem PagesCopied.ok_iff (copied : PagesCopied alloc after src dst root result done) :
    result = .ok () ↔ ∀ offset < src.length, (leafOf alloc.mem root (dst + offset)).isSome := by
  rw [copied.result_eq]
  -- The loop stops early exactly at a page that is not mapped.
  constructor
  · intro succeeded
    split at succeeded
    · rename_i complete
      exact complete ▸ copied.mapped
    · cases succeeded
  · intro mapped
    by_cases complete : done = src.length
    · rw [if_pos complete]
    · have partly : done < src.length := by
        have := copied.prefix_le
        omega
      have missing := copied.stopped partly
      have there := mapped done partly
      simp [missing] at there

/-- A frame that is no leaf of the root keeps its bytes. -/
theorem PagesCopied.kept (copied : PagesCopied alloc after src dst root result done)
    (owned : Owned alloc roots free managed) (live : root ∈ roots) {node : Nat}
    (member : node ∈ managed)
    (distinct : ∀ path : List EntryIndex, path.length = 3 →
      walk (child alloc.mem) root path ≠ some node) :
    Set.EqOn after.mem alloc.mem (frame node) := by
  rw [copied.after_eq]
  exact owned.storeThrough_kept live dst (src.take done) member distinct

/-- Copying keeps the ownership of every frame. -/
theorem PagesCopied.owned (copied : PagesCopied alloc after src dst root result done)
    (owned : Owned alloc roots free managed) (live : root ∈ roots) :
    Owned after roots free managed := by
  rw [copied.after_eq]
  refine owned.keep (fun pa member => ?_) (fun owner liveOwner table member => ?_)
  · refine owned.storeThrough_kept live dst _ (owned.free_managed member) fun path full reached => ?_
    exact owned.apart root live pa (node_of_walk (by omega) reached) member
  · refine owned.storeThrough_kept live dst _
      (owned.node_managed liveOwner (tables_subset_nodes owner member)) fun path full reached => ?_
    exact owned.separate.leaf_not_table live liveOwner full reached member

/-- Copying keeps every path of every live root. -/
theorem PagesCopied.walks (copied : PagesCopied alloc after src dst root result done)
    (owned : Owned alloc roots free managed) (live : root ∈ roots) {owner : Nat}
    (liveOwner : owner ∈ roots) {path : List EntryIndex} (short : path.length ≤ 3) :
    walk (child after.mem) owner path = walk (child alloc.mem) owner path := by
  refine walk_keep (fun table member => ?_) short
  refine copied.kept owned live (owned.node_managed liveOwner (tables_subset_nodes owner member))
    fun rest full reached => ?_
  exact owned.separate.leaf_not_table live liveOwner full reached member

/-- Below 2^39, each byte of the stored prefix is found where its address is translated to. -/
theorem PagesCopied.written (copied : PagesCopied alloc after src dst root result done)
    (owned : Owned alloc roots free managed) (live : root ∈ roots) (low : dst + done ≤ 2 ^ 39)
    {offset pa : Nat} (within : offset < done)
    (found : ttbr0ToPa alloc.mem (dst + offset) root = some pa) :
    src[offset]? = some (after.mem pa) := by
  have bound := copied.prefix_le
  have long : (src.take done).length = done := by
    rw [List.length_take]
    omega
  have short : offset < (src.take done).length := by omega
  rw [copied.after_eq, ← List.getElem?_take_of_lt within, List.getElem?_eq_getElem short,
    Option.some.injEq]
  -- Translation is injective below 2^39, so no later byte lands on the same address.
  refine (storeThrough_written short found fun later stored behind same => ?_).symm
  have inj := owned.translate_inj live live (by omega) (by omega) found same
  omega

/-- Every address outside the stored prefix keeps its byte. -/
theorem PagesCopied.unwritten (copied : PagesCopied alloc after src dst root result done)
    {address : Nat}
    (missed : ∀ offset < done, ttbr0ToPa alloc.mem (dst + offset) root ≠ some address) :
    after.mem address = alloc.mem address := by
  rw [copied.after_eq]
  refine TranslatedStore.storeThrough_kept fun offset within => ?_
  rw [List.length_take] at within
  exact missed offset (by omega)

end Effects

section Bytes

variable {alloc after : PageAllocator} {roots : Set Nat} {free : List Nat} {managed : Set Nat}
  {src : List UInt8} {dst root done : Nat} {result : Except String Unit}

/-- The byte an address space holds at an address. -/
def byteAt (mem : Mem) (root va : Nat) : Option UInt8 := (ttbr0ToPa mem va root).map mem

/-- A byte is read from the page that its address is mapped to. -/
theorem byteAt_eq (mem : Mem) (root va : Nat) :
    byteAt mem root va = (leafOf mem root va).map fun leaf => mem (leaf + va % 4096) := by
  rw [byteAt, ttbr0ToPa_eq, leafOf, Option.map_map]
  rfl

/-- After a copy that succeeded, an address space holds the source, and elsewhere what it held. -/
theorem PagesCopied.byteAt (copied : PagesCopied alloc after src dst root result done)
    (owned : Owned alloc roots free managed) (live : root ∈ roots) (low : dst + src.length ≤ 2 ^ 39)
    (succeeded : result = .ok ()) {other : Nat} (lowOther : other < 2 ^ 39) :
    AtOS.byteAt after.mem root other =
      if dst ≤ other ∧ other < dst + src.length then src[other - dst]?
      else AtOS.byteAt alloc.mem root other := by
  -- A copy that went through has stored every byte.
  have complete : done = src.length := by
    by_contra partly
    have failed := copied.result_eq
    rw [succeeded, if_neg partly] at failed
    cases failed
  -- Copying into pages changes no table, so addresses lead where they led.
  have translate : ttbr0ToPa after.mem other root = ttbr0ToPa alloc.mem other root := by
    rw [ttbr0ToPa_eq, ttbr0ToPa_eq,
      copied.walks owned live live (Nat.le_of_eq (pagePath_length other))]
  rw [AtOS.byteAt, AtOS.byteAt, translate]
  by_cases target : dst ≤ other ∧ other < dst + src.length
  · -- An address of the target is mapped, since the copy went through.
    have mapped := copied.ok_iff.mp succeeded (other - dst) (by omega)
    obtain ⟨leaf, reached⟩ := Option.isSome_iff_exists.mp mapped
    rw [Nat.add_sub_cancel' target.1] at reached
    have found : ttbr0ToPa alloc.mem (dst + (other - dst)) root = some (leaf + other % 4096) := by
      rw [Nat.add_sub_cancel' target.1]
      exact ttbr0ToPa_eq_some.mpr ⟨leaf, reached, rfl⟩
    have written := copied.written owned live (by omega) (by omega) found
    rw [Nat.add_sub_cancel' target.1] at found
    rw [if_pos target, found, Option.map_some]
    exact written.symm
  · -- All other addresses are mapped to other bytes, so nothing is stored there.
    rw [if_neg target]
    cases found : ttbr0ToPa alloc.mem other root with
    | none => rfl
    | some pa =>
      rw [Option.map_some, Option.map_some]
      congr 1
      refine copied.unwritten fun offset within same => ?_
      have inj := owned.translate_inj live live (by omega) lowOther same found
      omega

end Bytes

end AtOS
