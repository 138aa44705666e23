import AtOS.Paging.Descriptors

/-! The steps of the pool with what each of them may change, and the entries that they leave. -/

namespace AtOS

open ByteMemory RadixForest

/--
The operations on the allocator, where the predicate says which entries of a root may change.

These are the steps of the pool, and writing some bytes into one page, as `copy_to_pages` would.
-/
inductive Pool.Move (may : Nat → EntryIndex → Prop) : Pool → Pool → Prop where
  | newRoot {pool : Pool} {root : Nat} {alloc : PageAllocator}
      (popped : getFreeFramePa pool.alloc = some (root, alloc)) :
      Move may pool ⟨alloc, insert root pool.live⟩
  | duplicated {pool : Pool} {src dst : Nat} {alloc : PageAllocator} (live : src ∈ pool.live)
      (maySrc : ∀ index, may src index) (mayDst : ∀ index, may dst index)
      (done : duplicateVaSpace src pool.alloc = (.ok dst, alloc)) :
      Move may pool ⟨alloc, insert dst pool.live⟩
  | notDuplicated {pool : Pool} {src : Nat} {error : String} {alloc : PageAllocator}
      (live : src ∈ pool.live) (failed : duplicateVaSpace src pool.alloc = (.error error, alloc)) :
      Move may pool ⟨alloc, pool.live⟩
  | allocPage {pool : Pool} {root va pa : Nat} {alloc : PageAllocator} (live : root ∈ pool.live)
      (allowed : may root (l1Index va)) (done : allocPage va root pool.alloc = .ok (pa, alloc)) :
      Move may pool ⟨alloc, pool.live⟩
  | freePage {pool : Pool} {root va : Nat} (live : root ∈ pool.live)
      (allowed : may root (l1Index va)) :
      Move may pool ⟨freePage va root pool.alloc, pool.live⟩
  | copyToPages {pool : Pool} {root dst : Nat} (live : root ∈ pool.live) (src : List UInt8) :
      Move may pool ⟨(copyToPages src dst root pool.alloc).2, pool.live⟩
  /-- The bytes are written where the page has its frame. -/
  | write {pool : Pool} {root va leaf pa : Nat} {data : List UInt8} (live : root ∈ pool.live)
      (mapped : leafOf pool.alloc.mem root va = some leaf)
      (target : IsFrame leaf → pa = leaf + va % 4096)
      (inside : va % 4096 + data.length ≤ 4096) :
      Move may pool ⟨{ pool.alloc with mem := store pool.alloc.mem pa data }, pool.live⟩
  | freePageTable {pool : Pool} {root : Nat} (live : root ∈ pool.live)
      (whole : ∀ index, may root index) :
      Move may pool ⟨freePageTable root pool.alloc, pool.live \ {root}⟩

/-- A run of these operations. -/
abbrev Pool.Moves (may : Nat → EntryIndex → Prop) : Pool → Pool → Prop :=
  Relation.ReflTransGen (Pool.Move may)

section Low

variable {alloc after : PageAllocator} {roots : Set Nat} {free : List Nat} {managed : Set Nat}
  {root va pa leaf : Nat} {data : List UInt8}

/-- A table index comes from the low 39 bits of an address. -/
theorem tableIndex_low (va : Nat) {shift : Nat} (inside : shift ≤ 30) :
    tableIndex (va % 2 ^ 39) shift = tableIndex va shift := by
  refine Fin.ext ?_
  rw [tableIndex_val, tableIndex_val]
  -- Nine bits from here up end before bit 39.
  have split : (2 : Nat) ^ 39 = 2 ^ shift * 2 ^ (39 - shift) := by
    rw [← Nat.pow_add]
    congr 1
    omega
  have whole : (512 : Nat) ∣ 2 ^ (39 - shift) :=
    Nat.pow_dvd_pow 2 (show 9 ≤ 39 - shift by omega)
  rw [split, Nat.mod_mul_right_div_self, Nat.mod_mod_of_dvd _ whole]

/-- The path to a page depends on the low bits of its address. -/
theorem pagePath_low (va : Nat) : pagePath (va % 2 ^ 39) = pagePath va := by
  simp only [pagePath, l1Index, l2Index, l3Index]
  rw [tableIndex_low va (by decide), tableIndex_low va (by decide), tableIndex_low va (by decide)]

/-- `alloc_page` looks at no more than the low 39 bits of an address. -/
theorem allocPage_low (done : allocPage va root alloc = .ok (pa, after)) :
    allocPage (va % 2 ^ 39) root alloc = .ok (pa, after) := by
  have mapped : (ttbr0ToPa alloc.mem (va % 2 ^ 39) root).isSome =
      (ttbr0ToPa alloc.mem va root).isSome := by
    rw [ttbr0ToPa_isSome, ttbr0ToPa_isSome, leafOf, leafOf, pagePath_low]
  -- Only the indices are looked at, and they are cut out of the low bits.
  have first : l1Index (va % 2 ^ 39) = l1Index va := tableIndex_low va (by decide)
  have second : l2Index (va % 2 ^ 39) = l2Index va := tableIndex_low va (by decide)
  have third : l3Index (va % 2 ^ 39) = l3Index va := tableIndex_low va (by decide)
  simp only [allocPage, mapped, first, second, third, bind, Except.bind, pure, Except.pure, throw,
    throwThe, MonadExceptOf.throw] at done ⊢
  -- The address itself is only named in the panic for a page that is mapped.
  by_cases there : (ttbr0ToPa alloc.mem va root).isSome = true
  · rw [if_pos there] at done
    cases done
  · rw [if_neg there] at done ⊢
    cases upper : ensureTable root (l1Index va)
        "No free frames available for new L2 page table" alloc with
    | error panic =>
      rw [upper] at done
      cases done
    | ok one =>
      rw [upper] at done
      dsimp only at done ⊢
      cases lower : ensureTable (entry one.mem root (l1Index va) &&& addressMask) (l2Index va)
          "No free frames available for new L3 page table" one with
      | error panic =>
        rw [lower] at done
        cases done
      | ok two =>
        rw [lower] at done
        dsimp only at done ⊢
        split
        · rename_i invalid
          rw [if_pos invalid] at done
          exact done
        · rename_i valid
          rw [if_neg valid] at done
          cases done

/-- Freeing a page depends on the low bits of its address. -/
theorem freePage_low (va root : Nat) (alloc : PageAllocator) :
    freePage (va % 2 ^ 39) root alloc = freePage va root alloc := by
  have first : l1Index (va % 2 ^ 39) = l1Index va := tableIndex_low va (by decide)
  have second : l2Index (va % 2 ^ 39) = l2Index va := tableIndex_low va (by decide)
  have third : l3Index (va % 2 ^ 39) = l3Index va := tableIndex_low va (by decide)
  unfold freePage
  rw [first, second, third]

/-- Bytes that stay in one page are written there by `copy_to_pages`. -/
theorem Owned.copyToPages_page (owned : Owned alloc roots free managed) (live : root ∈ roots)
    (mapped : leafOf alloc.mem root va = some leaf) (inside : va % 4096 + data.length ≤ 4096) :
    IsFrame leaf ∧ (copyToPages data va root alloc).2 =
      { alloc with mem := store alloc.mem (leaf + va % 4096) data } := by
  have isFrame := owned.node_frame live (node_of_walk (by simp) mapped)
  have found : ttbr0ToPa alloc.mem va root = some (leaf + va % 4096) :=
    ttbr0ToPa_eq_some.mpr ⟨leaf, mapped, rfl⟩
  -- The page lies in the window, so its address there is the one that is written through.
  have small : leaf + va % 4096 < 2 ^ 39 := by
    obtain ⟨aligned, low⟩ := isFrame
    omega
  obtain ⟨count, copied⟩ := copyToPages_spec owned live data va
  -- All bytes are in the page, so the copy is not stopped.
  have complete : count = data.length := by
    have bound := copied.prefix_le
    by_contra partly
    have stopped := copied.stopped (by omega)
    have still := ttbr0ToPa_add found count (by omega)
    have reached : (leafOf alloc.mem root (va + count)).isSome = true := by
      rw [← ttbr0ToPa_isSome, still]
      rfl
    rw [stopped] at reached
    cases reached
  have stored := owned.store_page live alloc.mem data found inside
  rw [ttbr1ToPa_ttbr1ToVa small] at stored
  refine ⟨isFrame, ?_⟩
  rw [copied.after_eq, complete, List.take_length, stored]

end Low

section Moves

variable {may : Nat → EntryIndex → Prop} {pool next : Pool} {free : List Nat} {managed : Set Nat}

/-- Every move is a step of the pool. -/
theorem Pool.Move.step (move : Pool.Move may pool next)
    (owned : Owned pool.alloc pool.live free managed) : Pool.Step pool next := by
  have low : ∀ va, va % 2 ^ 39 < 2 ^ 39 := fun va => Nat.mod_lt _ (by decide)
  cases move with
  | newRoot popped => exact .newRoot popped
  | duplicated live _ _ done => exact .duplicated live done
  | notDuplicated live failed => exact .notDuplicated live failed
  | @allocPage root va pa alloc live _ done => exact .allocPage live (low va) (allocPage_low done)
  | @freePage root va live _ =>
    rw [← freePage_low va]
    exact .freePage live (low va)
  | copyToPages live src => exact .copyToPages live src
  | write live mapped target inside =>
    obtain ⟨isFrame, written⟩ := owned.copyToPages_page live mapped inside
    rw [target isFrame, ← written]
    exact .copyToPages live _
  | freePageTable live _ => exact .freePageTable live

/-- A step of the pool keeps the frames owned, however many there are in all. -/
theorem Pool.Step.owned (step : Pool.Step pool next)
    (owned : Owned pool.alloc pool.live free managed) :
    ∃ rest, Owned next.alloc next.live rest managed := by
  -- Each operation keeps the account, as its own lemma says.
  cases step with
  | newRoot popped =>
    cases free with
    | nil => simp [owned.pop_nil] at popped
    | cons pa free =>
      obtain ⟨after, pop, -, -, -, adopted, -⟩ := owned.newRoot
      rw [pop] at popped
      cases popped
      exact ⟨free, adopted⟩
  | duplicated live done =>
    have outcome := duplicateVaSpace_spec owned live
    rw [done] at outcome
    cases outcome with
    | done copied =>
      obtain ⟨used, rest, copied⟩ := copied
      exact ⟨rest, copied.owned⟩
  | notDuplicated live failed =>
    have outcome := duplicateVaSpace_spec owned live
    rw [failed] at outcome
    cases outcome with
    | failed rolledBack =>
      obtain ⟨rest, rolledBack⟩ := rolledBack
      exact ⟨rest, rolledBack.owned⟩
  | @allocPage root va pa alloc live low done =>
    have outcome := allocPage_spec owned live va
    rw [done] at outcome
    obtain ⟨taken, rest, added⟩ := outcome
    exact ⟨rest, added.owned⟩
  | @freePage root va live low =>
    cases mapped : leafOf pool.alloc.mem root va with
    | none =>
      rw [freePage_unmapped mapped]
      exact ⟨free, owned⟩
    | some pa => exact ⟨pa :: free, (freePage_spec owned live mapped).owned⟩
  | @copyToPages root dst live src =>
    obtain ⟨count, copied⟩ := copyToPages_spec owned live src dst
    exact ⟨free, copied.owned owned live⟩
  | freePageTable live =>
    obtain ⟨freed, gone⟩ := freePageTable_spec owned live
    exact ⟨freed ++ free, gone.owned⟩

/-- A new root has the words of a link, which are no stray descriptors. -/
theorem Owned.newRoot_formed {alloc : PageAllocator} {roots : Set Nat} {pa : Nat}
    (owned : Owned alloc roots (pa :: free) managed) (formed : Formed may roots alloc.mem) :
    Formed may (insert pa roots) alloc.mem := by
  -- The new root is the frame that was popped, and is looked at as a table.
  rintro root (rfl | live) path short table reached index allowed
  · cases path with
    -- It leads nowhere, so it is the only table.
    | cons first tail =>
      rw [walk_childless owned.popped_childless (by simp)] at reached
      cases reached
    | nil =>
      cases reached
      obtain ⟨-, zero, tail⟩ := owned.chain
      obtain ⟨tag, aligned, -⟩ :=
        tail.link_words fun other member => owned.free_frame (by simp [member])
      rcases Nat.lt_or_ge index.val 2 with link | behind
      · -- The first two entries are the words of the link.
        rcases Nat.lt_or_ge index.val 1 with first | second
        · have position : entry alloc.mem root index = (readLink alloc.mem root).tag := by
            rw [entry, show index.val = 0 by omega]
            rfl
          rw [position]
          rcases Nat.lt_or_ge (readLink alloc.mem root).tag 1 with none | some
          · exact .vacant (by omega)
          · exact .leftover rfl (by omega)
        · have position : entry alloc.mem root index = (readLink alloc.mem root).ptr := by
            rw [entry, show index.val = 1 by omega]
            rfl
          rw [position]
          exact .vacant (by omega)
      · have nothing : entry alloc.mem root index = 0 :=
          readLE_zero fun address inside => zero address (by
            have bound := index.isLt
            simp only [block, Set.mem_Ico] at *
            omega)
        rw [nothing]
        exact .vacant rfl
  · exact formed root live path short table reached index allowed

/-- A move changes the entries it may change, of the address spaces that stay. -/
theorem Pool.Move.edited (move : Pool.Move may pool next)
    (owned : Owned pool.alloc pool.live free managed) :
    Edited may (pool.live ∩ next.live) pool.alloc.mem next.alloc.mem := by
  -- What stays live is edited properly, or not at all.
  cases move with
  | newRoot popped =>
    cases free with
    | nil => simp [owned.pop_nil] at popped
    | cons pa free =>
      obtain ⟨after, pop, mem, -⟩ := owned.pop
      rw [pop] at popped
      cases popped
      -- Popping a frame writes nothing.
      exact mem ▸ .refl may _ _
  | duplicated live _ _ done =>
    have outcome := duplicateVaSpace_spec owned live
    rw [done] at outcome
    cases outcome with
    | done copied =>
      obtain ⟨used, rest, copied⟩ := copied
      -- A copy writes its own frames, and those are not live before it.
      exact ((copied.kept_all owned).edited).mono Set.inter_subset_left
  | notDuplicated live failed =>
    have outcome := duplicateVaSpace_spec owned live
    rw [failed] at outcome
    cases outcome with
    | failed rolledBack =>
      obtain ⟨rest, rolledBack⟩ := rolledBack
      -- The rollback has restored all that was in use.
      have kept : Kept pool.alloc.mem _ pool.live := fun root liveRoot node member =>
        rolledBack.kept node (owned.node_managed liveRoot member)
          (owned.apart root liveRoot node member)
      exact kept.edited.mono Set.inter_subset_left
  | allocPage live allowed done =>
    exact (allocPage_edited owned live allowed done).mono Set.inter_subset_left
  | freePage live allowed =>
    exact (freePage_edited owned live allowed).mono Set.inter_subset_left
  | @copyToPages root dst live src =>
    obtain ⟨count, copied⟩ := copyToPages_spec owned live src dst
    exact (copied.edited owned live).mono Set.inter_subset_left
  | @write root va leaf pa data live mapped target inside =>
    obtain ⟨isFrame, written⟩ := owned.copyToPages_page live mapped inside
    obtain ⟨count, copied⟩ := copyToPages_spec owned live data va
    have edited : Edited may pool.live _ _ := copied.edited owned live
    -- A write inside of one page is a copy to pages that is not stopped.
    rw [written] at edited
    rw [target isFrame]
    exact edited.mono Set.inter_subset_left
  | @freePageTable root live whole =>
    obtain ⟨freed, gone⟩ := freePageTable_spec owned live
    -- Freeing an address space leaves the others alone.
    exact ((gone.kept_others owned live).edited).mono Set.inter_subset_right

/-- A move leaves every entry as the allocator should. -/
theorem Pool.Move.formed (move : Pool.Move may pool next)
    (owned : Owned pool.alloc pool.live free managed)
    (formed : Formed may pool.live pool.alloc.mem) : Formed may next.live next.alloc.mem := by
  -- Whatever was live before and is live now stays well formed.
  have stay := move.edited owned
  have old := stay.formed (formed.mono Set.inter_subset_left)
  -- A new root and a copy are well formed from the start.
  cases move with
  | newRoot popped =>
    cases free with
    | nil => simp [owned.pop_nil] at popped
    | cons pa free =>
      obtain ⟨after, pop, mem, -⟩ := owned.pop
      rw [pop] at popped
      cases popped
      have grown := owned.newRoot_formed formed
      rw [← mem] at grown
      exact grown
  | duplicated live maySrc mayDst done =>
    exact duplicateVaSpace_formed owned live formed maySrc mayDst done
  | notDuplicated => exact old.mono (Set.subset_inter subset_rfl subset_rfl)
  | allocPage => exact old.mono (Set.subset_inter subset_rfl subset_rfl)
  | freePage => exact old.mono (Set.subset_inter subset_rfl subset_rfl)
  | copyToPages => exact old.mono (Set.subset_inter subset_rfl subset_rfl)
  | write => exact old.mono (Set.subset_inter subset_rfl subset_rfl)
  | freePageTable => exact old.mono (Set.subset_inter Set.sdiff_subset subset_rfl)

end Moves

section Runs

variable {may : Nat → EntryIndex → Prop} {start pool : Pool} {free : List Nat} {managed : Set Nat}

/-- A run of moves is a run of the pool, and keeps the frames owned. -/
theorem Pool.Moves.steps (moves : Pool.Moves may start pool)
    (owned : Owned start.alloc start.live free managed) :
    Relation.ReflTransGen Pool.Step start pool ∧
      ∃ rest, Owned pool.alloc pool.live rest managed := by
  induction moves with
  | refl => exact ⟨.refl, free, owned⟩
  | tail _ move ih =>
    obtain ⟨run, rest, ownedMiddle⟩ := ih
    have step := move.step ownedMiddle
    exact ⟨run.tail step, step.owned ownedMiddle⟩

/-- A run of moves leaves every entry as the allocator should. -/
theorem Pool.Moves.formed (moves : Pool.Moves may start pool)
    (owned : Owned start.alloc start.live free managed)
    (formed : Formed may start.live start.alloc.mem) : Formed may pool.live pool.alloc.mem := by
  induction moves with
  | refl => exact formed
  | tail moves move ih =>
    obtain ⟨-, rest, ownedMiddle⟩ := Pool.Moves.steps moves owned
    exact move.formed ownedMiddle ih

/-- An address space of which something may not change stays alive. -/
theorem Pool.Move.live {next : Pool} (move : Pool.Move may pool next) {root : Nat}
    {fixed : EntryIndex} (never : ¬ may root fixed) (live : root ∈ pool.live) :
    root ∈ next.live := by
  cases move with
  | newRoot => exact Set.mem_insert_of_mem _ live
  | duplicated => exact Set.mem_insert_of_mem _ live
  | freePageTable _ whole => exact ⟨live, fun same => never (same ▸ whole fixed)⟩
  | _ => exact live

/-- What may not change of an address space is, after any run, as it was. -/
theorem Pool.Moves.frozen (moves : Pool.Moves may start pool)
    (owned : Owned start.alloc start.live free managed) {root : Nat} {fixed : EntryIndex}
    (never : ¬ may root fixed) (live : root ∈ start.live) :
    root ∈ pool.live ∧ ∀ path : List EntryIndex, path.length < 3 → ∀ table,
      walk (child pool.alloc.mem) root path = some table → ∀ index,
      ¬ may root (path.headD index) → walk (child start.alloc.mem) root path = some table ∧
        entry pool.alloc.mem table index = entry start.alloc.mem table index := by
  -- No move of the run edits the entries that never may be edited.
  induction moves with
  | refl => exact ⟨live, fun path short table reached index _ => ⟨reached, rfl⟩⟩
  | tail moves move ih =>
    obtain ⟨liveMiddle, same⟩ := ih
    obtain ⟨-, rest, ownedMiddle⟩ := Pool.Moves.steps moves owned
    have liveNext := move.live never liveMiddle
    refine ⟨liveNext, fun path short table reached index never => ?_⟩
    rcases move.edited ownedMiddle root ⟨liveMiddle, liveNext⟩ path short table reached index with
      ⟨reachedMiddle, kept⟩ | ⟨allowed, -⟩
    · obtain ⟨reachedStart, keptStart⟩ := same path short table reachedMiddle index never
      exact ⟨reachedStart, kept.trans keptStart⟩
    · exact absurd allowed never

end Runs

end AtOS
