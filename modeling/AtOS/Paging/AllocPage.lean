import AtOS.Paging.Ownership

/-! Mapping a page: what `alloc_page` takes from the free list and what it leaves alone. -/

namespace AtOS

open ByteMemory RadixForest

/-- The attributes of a table entry. -/
theorem tableFlags : (0b11 : Nat) &&& 0b11 = 0b11 ∧ 0b11 &&& addressMask = 0 ∧ 0b11 < 2 ^ 64 := by
  decide

/-- The attributes of a leaf entry are valid, carry no address bits and fit a word. -/
theorem leafFlags_spec :
    leafFlags &&& 0b11 = 0b11 ∧ leafFlags &&& addressMask = 0 ∧ leafFlags < 2 ^ 64 := by
  decide

section Steps

variable {alloc after : PageAllocator} {roots : Set Nat} {free : List Nat} {managed : Set Nat}
  {root table : Nat} {path : List EntryIndex} {index : EntryIndex} {message : String}

/-- What `ensureTable` leaves behind: the entry has a table, taken from the free list if need be. -/
structure TableEnsured (alloc after : PageAllocator) (roots : Set Nat) (free : List Nat)
    (managed : Set Nat) (root table : Nat) (path : List EntryIndex) (index : EntryIndex)
    (taken rest : List Nat) (next : Nat) : Prop where
  free_eq : free = taken ++ rest
  count : taken.length = if (child alloc.mem table index).isSome then 0 else 1
  few : taken.length ≤ 1
  owned : Owned after roots rest managed
  total : after.totalFrameCount = alloc.totalFrameCount
  found : child after.mem table index = some next
  source : next ∈ taken ∨ child alloc.mem table index = some next
  walks : ∀ owner ∈ roots, ∀ other : List EntryIndex, other.length ≤ 3 →
    walk (child after.mem) owner other = if owner = root ∧ other = path ++ [index] then some next
      else walk (child alloc.mem) owner other
  kept : ∀ address ∉ frame table, (∀ pa ∈ taken, address ∉ frame pa) →
    after.mem address = alloc.mem address

/-- An entry gets a table, or has one already. -/
theorem ensureTable_ok (path : List EntryIndex) (owned : Owned alloc roots free managed) (live : root ∈ roots)
    (short : path.length < 2) (reached : walk (child alloc.mem) root path = some table)
    (done : ensureTable table index message alloc = .ok after) :
    ∃ taken rest next,
      TableEnsured alloc after roots free managed root table path index taken rest next := by
  unfold ensureTable at done
  split at done
  · -- The entry is invalid, so a frame is popped, hooked in and zeroed.
    rename_i invalid
    cases free with
    | nil => simp [owned.pop_nil] at done
    | cons pa rest =>
      obtain ⟨popped, pop, mem, total, ownedRest, isFrame, member⟩ := owned.pop
      rw [pop] at done
      cases done
      have reachedPopped : walk (child popped.mem) root path = some table := mem ▸ reached
      have vacant : child popped.mem table index = none := by
        rw [mem, child_eq_none]
        exact invalid
      have tableManaged := ownedRest.node_managed live
        (node_of_walk (by omega : path.length ≤ 3) reachedPopped)
      -- The new frame is managed but free, so it is not the table it is hung into.
      have apart : table ≠ pa := fun same => tableManaged.2 same
      obtain ⟨attached, walks⟩ := ownedRest.attach live (by omega) reachedPopped vacant isFrame
        (fun inside => inside.2 rfl) tableFlags.1 tableFlags.2.1 tableFlags.2.2
        (fill (setEntry popped.mem table index (pa ||| 0b11)) pa 4096 0)
        (fun address outside => fill_outside _ pa 4096 0 outside)
        (Or.inr fun address inside => fill_inside _ pa 4096 0 inside)
      have whole : insert pa (managed \ {pa}) = managed := Set.insert_sdiff_self_of_mem member
      rw [whole] at attached
      refine ⟨[pa], rest, pa, rfl, by simp [child_eq_none.mpr invalid], Nat.le_refl 1, attached,
        total, ?_, Or.inl (by simp), ?_, ?_⟩
      · -- The new path leads to the frame that was popped, and all others lead where they led.
        have step := walks root live (path ++ [index]) (by simp; omega)
        rw [if_pos ⟨rfl, rfl⟩, walk_snoc] at step
        have still := walks root live path (by omega)
        have shorter : path ≠ path ++ [index] := by simp
        rw [if_neg (fun same => shorter same.2), reachedPopped] at still
        rw [still] at step
        exact step
      · intro owner liveOwner other shortOther
        rw [← mem]
        exact walks owner liveOwner other shortOther
      · intro address outsideTable outside
        rw [← mem]
        exact (fill_outside _ pa 4096 0 (outside pa (by simp))).trans
          (setEntry_outside _ _ _ outsideTable)
  · -- The entry is valid, and nothing changes.
    rename_i valid
    cases done
    have found : child alloc.mem table index =
        some (entry alloc.mem table index &&& addressMask) := child_of_valid (not_not.mp valid)
    refine ⟨[], free, _, rfl, by simp [found], Nat.zero_le 1, owned, rfl, found, Or.inr found, ?_,
      fun _ _ _ => rfl⟩
    -- A table that is there already needs no frame, and no path changes.
    intro owner liveOwner other shortOther
    split
    · rename_i here
      obtain ⟨rfl, rfl⟩ := here
      rw [walk_snoc, reached]
      exact found
    · rfl

/-- Hanging in a table fails only when no frame is free. -/
theorem ensureTable_error (owned : Owned alloc roots free managed) {panic : Panic}
    (failed : ensureTable table index message alloc = .error panic) :
    panic = .outOfFrames message ∧ free = [] := by
  unfold ensureTable at failed
  split at failed
  · cases free with
    | nil =>
      rw [owned.pop_nil] at failed
      cases failed
      exact ⟨rfl, rfl⟩
    | cons pa rest =>
      obtain ⟨popped, pop, -⟩ := owned.pop
      rw [pop] at failed
      cases failed
  · cases failed

/-- A table found below an entry is the address in that entry. -/
theorem TableEnsured.address {taken rest : List Nat} {next : Nat}
    (ensured : TableEnsured alloc after roots free managed root table path index taken rest next) :
    entry after.mem table index &&& addressMask = next := (child_eq_some ensured.found).2

end Steps

/-- The mapping a page table root gives to a virtual address, down to its leaf frame. -/
def leafOf (mem : Mem) (root va : Nat) : Option Nat := walk (child mem) root (pagePath va)

/-- A page is mapped when translation finds a leaf for it. -/
theorem ttbr0ToPa_isSome (mem : Mem) (va root : Nat) :
    (ttbr0ToPa mem va root).isSome = (leafOf mem root va).isSome := by
  rw [ttbr0ToPa_eq, leafOf, Option.isSome_map]

/-- The number of tables `alloc_page` has to hang in on the way to an address. -/
def missingTables (mem : Mem) (root va : Nat) : Nat :=
  match child mem root (l1Index va) with
  | none => 2
  | some l2 => if (child mem l2 (l2Index va)).isSome then 0 else 1

/-- What `alloc_page` leaves behind when it returns. -/
structure PageAdded (alloc after : PageAllocator) (roots : Set Nat) (free : List Nat)
    (managed : Set Nat) (va root pa : Nat) (taken rest : List Nat) : Prop where
  /-- Tables are taken first, and the leaf last. -/
  free_eq : free = taken ++ pa :: rest
  count : taken.length = missingTables alloc.mem root va
  few : taken.length ≤ 2
  owned : Owned after roots rest managed
  total : after.totalFrameCount = alloc.totalFrameCount
  /-- The page was unmapped, and is the only new leaf. -/
  vacant : leafOf alloc.mem root va = none
  leaves : ∀ owner ∈ roots, ∀ path : List EntryIndex, path.length = 3 →
    walk (child after.mem) owner path = if owner = root ∧ path = pagePath va then some pa
      else walk (child alloc.mem) owner path
  /-- Other address spaces keep their tables too. -/
  others : ∀ owner ∈ roots, owner ≠ root → ∀ path : List EntryIndex, path.length ≤ 3 →
    walk (child after.mem) owner path = walk (child alloc.mem) owner path
  /-- Only the tables of the root and the frames that became tables are written. -/
  kept : ∀ address, (∀ table ∈ tables (child alloc.mem) 3 root, address ∉ frame table) →
    (∀ other ∈ taken, address ∉ frame other) → after.mem address = alloc.mem address

section AllocPage

variable {alloc after : PageAllocator} {roots : Set Nat} {free : List Nat} {managed : Set Nat}
  {root va pa : Nat}

/-- What stops `alloc_page`: the page is mapped already, or fewer than three frames are free. -/
def AllocPageFails (alloc : PageAllocator) (free : List Nat) (va root : Nat) (panic : Panic) : Prop :=
  (panic = .pageAlreadyAllocated va ∧ (leafOf alloc.mem root va).isSome) ∨
    (leafOf alloc.mem root va = none ∧ free.length < 3 ∧ ∃ message, panic = .outOfFrames message)

/-- A frame that is no table of the root and became none keeps its bytes. -/
theorem PageAdded.frame_kept {taken rest : List Nat}
    (added : PageAdded alloc after roots free managed va root pa taken rest)
    (owned : Owned alloc roots free managed) (live : root ∈ roots) {other : Nat}
    (member : other ∈ managed) (notTable : other ∉ tables (child alloc.mem) 3 root)
    (notTaken : other ∉ taken) : Set.EqOn after.mem alloc.mem (frame other) := by
  intro address inside
  have isOther := owned.frames other member
  refine added.kept address (fun table inTree => ?_) fun used listed => ?_
  · have isTable := owned.node_frame live (tables_subset_nodes root inTree)
    exact frame_disjoint isOther isTable (fun same => notTable (same ▸ inTree)) inside
  · have isUsed : IsFrame used := owned.free_frame (added.free_eq ▸ List.mem_append_left _ listed)
    exact frame_disjoint isOther isUsed (fun same => notTaken (same ▸ listed)) inside

/-- `alloc_page` on a live root adds one page, mapped to a frame that was free, or panics. -/
theorem allocPage_spec (owned : Owned alloc roots free managed) (live : root ∈ roots) (va : Nat) :
    match allocPage va root alloc with
    | .ok (pa, after) =>
      ∃ taken rest, PageAdded alloc after roots free managed va root pa taken rest
    | .error panic => AllocPageFails alloc free va root panic := by
  unfold allocPage
  rw [ttbr0ToPa_isSome]
  -- A mapped page is refused before anything is allocated.
  cases mapped : leafOf alloc.mem root va with
  | some leaf =>
    simp [mapped, AllocPageFails, throw, throwThe, MonadExceptOf.throw, Bind.bind, Except.bind]
  | none =>
    simp only [Option.isSome_none, Bool.false_eq_true, if_false, Bind.bind, Except.bind,
      Pure.pure, Except.pure]
    -- The second-level table is there or is hung in.
    cases first : ensureTable root (l1Index va)
        "No free frames available for new L2 page table" alloc with
    | error panic =>
      obtain ⟨rfl, rfl⟩ := ensureTable_error owned first
      exact Or.inr ⟨mapped, by simp, _, rfl⟩
    | ok one =>
      obtain ⟨taken₁, free₁, l2, step₁⟩ := ensureTable_ok [] owned live (by simp) rfl first
      simp only [step₁.address]
      -- The third-level table is there or is hung in.
      cases second : ensureTable l2 (l2Index va)
          "No free frames available for new L3 page table" one with
      | error panic =>
        obtain ⟨rfl, rfl⟩ := ensureTable_error step₁.owned second
        have := step₁.few
        refine Or.inr ⟨mapped, ?_, _, rfl⟩
        rw [step₁.free_eq, List.append_nil]
        omega
      | ok two =>
        have reached₁ : walk (child one.mem) root [l1Index va] = some l2 := by
          rw [step₁.walks root live _ (by simp), if_pos ⟨rfl, rfl⟩]
        obtain ⟨taken₂, free₂, l3, step₂⟩ :=
          ensureTable_ok [l1Index va] step₁.owned live (by simp) reached₁ second
        simp only [step₂.address]
        have reached₂ : walk (child two.mem) root [l1Index va, l2Index va] = some l3 := by
          rw [step₂.walks root live _ (by simp), if_pos ⟨rfl, rfl⟩]
        -- Neither step touches a path of three indices.
        have leaves₂ : ∀ owner ∈ roots, ∀ path : List EntryIndex, path.length = 3 →
            walk (child two.mem) owner path = walk (child alloc.mem) owner path := by
          -- Both hang in at paths that are shorter.
          intro owner liveOwner path full
          have not₂ : ¬ (owner = root ∧ path = [l1Index va] ++ [l2Index va]) := by
            rintro ⟨-, rfl⟩
            simp at full
          have not₁ : ¬ (owner = root ∧ path = [] ++ [l1Index va]) := by
            rintro ⟨-, rfl⟩
            simp at full
          rw [step₂.walks owner liveOwner path (by omega), if_neg not₂,
            step₁.walks owner liveOwner path (by omega), if_neg not₁]
        have vacant : child two.mem l3 (l3Index va) = none := by
          have unmapped := leaves₂ root live (pagePath va) rfl
          rw [show pagePath va = [l1Index va, l2Index va] ++ [l3Index va] from rfl, walk_snoc,
            reached₂] at unmapped
          exact unmapped.trans mapped
        rw [if_pos (child_eq_none.mp vacant)]
        -- The leaf itself comes from the head of the remaining free list.
        cases free₂ with
        | nil =>
          have := step₁.few
          have := step₂.few
          simp only [step₂.owned.pop_nil]
          refine Or.inr ⟨mapped, ?_, _, rfl⟩
          rw [step₁.free_eq, step₂.free_eq, List.append_nil, List.length_append]
          omega
        | cons leaf rest =>
          obtain ⟨popped, pop, mem, total, ownedRest, isFrame, member⟩ := step₂.owned.pop
          have reachedPopped : walk (child popped.mem) root [l1Index va, l2Index va] = some l3 :=
            mem ▸ reached₂
          obtain ⟨attached, walks⟩ := ownedRest.attach live (by simp) reachedPopped (mem ▸ vacant)
            isFrame (fun inside => inside.2 rfl) leafFlags_spec.1 leafFlags_spec.2.1
            leafFlags_spec.2.2
            (setEntry popped.mem l3 (l3Index va) (leaf ||| leafFlags))
            (fun _ _ => rfl) (Or.inl rfl)
          rw [Set.insert_sdiff_self_of_mem member] at attached
          -- What `alloc_page` returns is read back from the entry, and is the frame that was
          -- popped.
          have hooked : entry (setEntry popped.mem l3 (l3Index va) (leaf ||| leafFlags)) l3
              (l3Index va) &&& addressMask = leaf := by
            rw [entry_setEntry _ _ _ (pointer_lt isFrame leafFlags_spec.2.2),
              pointer_address isFrame leafFlags_spec.2.1]
          simp only [pop, hooked]
          refine ⟨taken₁ ++ taken₂, rest, ?_, ?_, ?_, attached, ?_, mapped, ?_, ?_, ?_⟩
          · rw [step₁.free_eq, step₂.free_eq, List.append_assoc]
          · -- What is missing below the first table is the same before and after the first step.
            have below : child one.mem l2 (l2Index va) =
                (child alloc.mem root (l1Index va)).bind (child alloc.mem · (l2Index va)) := by
              have still := step₁.walks root live [l1Index va, l2Index va] (by simp)
              rw [if_neg (by simp)] at still
              simpa [step₁.found] using still
            rw [List.length_append, step₁.count, step₂.count, below, missingTables]
            cases child alloc.mem root (l1Index va) with
            | none => simp
            | some first => simp
          · -- At most two tables and one page have been taken.
            have := step₁.few
            have := step₂.few
            simp only [List.length_append]
            omega
          · exact total.trans (step₂.total.trans step₁.total)
          · -- A path of three indices is new only if it is that of the page.
            intro owner liveOwner path full
            rw [walks owner liveOwner path (by omega), mem, leaves₂ owner liveOwner path full]
            rfl
          · -- Other roots keep all their paths.
            intro owner liveOwner distinct path short
            rw [walks owner liveOwner path short, if_neg (fun same => distinct same.1), mem,
              step₂.walks owner liveOwner path short, if_neg (fun same => distinct same.1),
              step₁.walks owner liveOwner path short, if_neg (fun same => distinct same.1)]
          · -- The three tables are tables of the root, old or taken.
            intro address notTable notTaken
            have notTaken₁ : ∀ pa ∈ taken₁, address ∉ frame pa :=
              fun pa listed => notTaken pa (by simp [listed])
            have notTaken₂ : ∀ pa ∈ taken₂, address ∉ frame pa :=
              fun pa listed => notTaken pa (by simp [listed])
            have notRoot : address ∉ frame root := notTable root ⟨[], by simp, rfl⟩
            have notL2 : address ∉ frame l2 := by
              rcases step₁.source with listed | found
              · exact notTaken₁ l2 listed
              · exact notTable l2 ⟨[l1Index va], by simp, by simp [found]⟩
            have notL3 : address ∉ frame l3 := by
              rcases step₂.source with listed | found
              · exact notTaken₂ l3 listed
              · refine notTable l3 ⟨[l1Index va, l2Index va], by simp, ?_⟩
                have before := step₁.walks root live [l1Index va, l2Index va] (by simp)
                rw [if_neg (by simp)] at before
                rw [← before]
                simp [step₁.found, found]
            have leafStep : setEntry popped.mem l3 (l3Index va) (leaf ||| leafFlags) address =
                two.mem address := by
              rw [← mem]
              exact setEntry_outside _ _ _ notL3
            exact leafStep.trans ((step₂.kept address notL2 notTaken₂).trans
              (step₁.kept address notRoot notTaken₁))

end AllocPage

section InTable

variable {alloc : PageAllocator} {roots : Set Nat} {free rest : List Nat} {managed : Set Nat}
  {root table va pa : Nat}

/-- A table that is there already is left alone. -/
theorem ensureTable_present {index : EntryIndex} {next : Nat} (message : String)
    (found : child alloc.mem table index = some next) :
    ensureTable table index message alloc = .ok alloc := by
  unfold ensureTable
  rw [if_neg (not_not_intro (child_eq_some found).1)]

/-- What `alloc_page` leaves behind when the last table is there already. -/
structure PageHung (alloc after : PageAllocator) (roots : Set Nat) (rest : List Nat)
    (managed : Set Nat) (table : Nat) (index : EntryIndex) (pa : Nat) : Prop where
  owned : Owned after roots rest managed
  total : after.totalFrameCount = alloc.totalFrameCount
  found : child after.mem table index = some pa
  others : ∀ other ≠ index, child after.mem table other = child alloc.mem table other
  upper : ∀ owner ∈ roots, ∀ path : List EntryIndex, path.length ≤ 2 →
    walk (child after.mem) owner path = walk (child alloc.mem) owner path
  /-- Only the entry is written. -/
  kept : ∀ other ∈ managed, other ≠ table → Set.EqOn after.mem alloc.mem (frame other)

/-- Up to its last step, `alloc_page` only looks at tables that are there. -/
theorem allocPage_reaches (reached : walk (child alloc.mem) root [l1Index va, l2Index va] = some table)
    (vacant : child alloc.mem table (l3Index va) = none) :
    allocPage va root alloc =
      match getFreeFramePa alloc with
      | some (frame, alloc) =>
        let alloc := { alloc with
          mem := setEntry alloc.mem table (l3Index va) (frame ||| leafFlags) }
        .ok (entry alloc.mem table (l3Index va) &&& addressMask, alloc)
      | none => .error (.outOfFrames "No free frames available for new page table entry") := by
  -- The page is unmapped, as its entry is not valid.
  have unmapped : leafOf alloc.mem root va = none := by
    rw [leafOf, show pagePath va = [l1Index va, l2Index va] ++ [l3Index va] from rfl, walk_snoc,
      reached]
    exact vacant
  -- The tables on the way are there, so neither is allocated.
  simp only [walk_cons, walk_nil] at reached
  obtain ⟨l2, first, reached⟩ := Option.bind_eq_some_iff.mp reached
  obtain ⟨l3, second, same⟩ := Option.bind_eq_some_iff.mp reached
  cases same
  unfold allocPage
  rw [ttbr0ToPa_isSome, unmapped]
  simp only [Option.isSome_none, Bool.false_eq_true, if_false, Bind.bind, Except.bind, Pure.pure,
    Except.pure, ensureTable_present _ first, (child_eq_some first).2, ensureTable_present _ second,
    (child_eq_some second).2, if_pos (child_eq_none.mp vacant)]
  cases getFreeFramePa alloc with
  | none => rfl
  | some popped => rfl

/-- Where the last table is there, `alloc_page` takes the next free frame, and only that. -/
theorem allocPage_inTable (owned : Owned alloc roots (pa :: rest) managed) (live : root ∈ roots)
    (reached : walk (child alloc.mem) root [l1Index va, l2Index va] = some table)
    (vacant : child alloc.mem table (l3Index va) = none) :
    ∃ after, allocPage va root alloc = .ok (pa, after) ∧
      PageHung alloc after roots rest managed table (l3Index va) pa := by
  obtain ⟨popped, pop, mem, total, ownedRest, isFrame, member⟩ := owned.pop
  rw [allocPage_reaches reached vacant, pop]
  -- Popping changes no memory, so the table is still reached.
  have reachedPopped : walk (child popped.mem) root [l1Index va, l2Index va] = some table :=
    mem ▸ reached
  have tableNode : table ∈ nodes (child alloc.mem) 3 root := node_of_walk (by simp) reached
  have isTable := owned.node_frame live tableNode
  obtain ⟨attached, walks⟩ := ownedRest.attach live (by simp) reachedPopped (mem ▸ vacant) isFrame
    (fun inside => inside.2 rfl) leafFlags_spec.1 leafFlags_spec.2.1 leafFlags_spec.2.2
    (setEntry popped.mem table (l3Index va) (pa ||| leafFlags)) (fun _ _ => rfl) (Or.inl rfl)
  rw [Set.insert_sdiff_self_of_mem member] at attached
  have hooked : entry (setEntry popped.mem table (l3Index va) (pa ||| leafFlags)) table
      (l3Index va) &&& addressMask = pa := by
    rw [entry_setEntry _ _ _ (pointer_lt isFrame leafFlags_spec.2.2),
      pointer_address isFrame leafFlags_spec.2.1]
  -- The entry is the only one that changes, and the page is the only new frame.
  refine ⟨_, by simp only [hooked], attached, total, ?_, ?_, ?_, ?_⟩
  · exact child_setEntry _ table _ isFrame leafFlags_spec.1 leafFlags_spec.2.1 leafFlags_spec.2.2
  · intro other distinct
    rw [← mem]
    exact child_setEntry_of_ne _ table _ distinct
  · intro owner liveOwner path short
    rw [← mem, walks owner liveOwner path (by omega), if_neg]
    rintro ⟨-, rfl⟩
    simp at short
  · intro other inside distinct address within
    rw [← mem]
    exact setEntry_outside _ _ _ (frame_disjoint (owned.frames other inside) isTable distinct within)

/-- Where the last table is there, `alloc_page` fails only without a free frame. -/
theorem allocPage_exhausted (owned : Owned alloc roots [] managed)
    (reached : walk (child alloc.mem) root [l1Index va, l2Index va] = some table)
    (vacant : child alloc.mem table (l3Index va) = none) :
    ∃ message, allocPage va root alloc = .error (.outOfFrames message) := by
  rw [allocPage_reaches reached vacant, owned.pop_nil]
  exact ⟨_, rfl⟩

end InTable

end AtOS
