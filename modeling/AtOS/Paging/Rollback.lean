import AtOS.Paging.Kept

/-! A copy of an address space that runs out of frames leaves nothing behind. -/

namespace AtOS

open ByteMemory RadixForest

variable {first limit src : Nat} {pool : Pool}

/-- The same frames are free as before, and every address space that is alive is as it was. -/
structure Pool.RolledBack (pool : Pool) (after : PageAllocator) : Prop where
  free : ∃ free rest, FreeChain pool.alloc.mem pool.alloc.freeFrameList free ∧ free.Nodup ∧
    FreeChain after.mem after.freeFrameList rest ∧ rest.Nodup ∧ ∀ pa, pa ∈ rest ↔ pa ∈ free
  count : after.freeFrameCount = pool.alloc.freeFrameCount
  total : after.totalFrameCount = pool.alloc.totalFrameCount
  translations : ∀ root ∈ pool.live, ∀ va, ttbr0ToPa after.mem va root =
    ttbr0ToPa pool.alloc.mem va root
  attributes : ∀ root ∈ pool.live, ∀ path : List EntryIndex, path.length ≤ 3 →
    AtOS.attributes after.mem root path = AtOS.attributes pool.alloc.mem root path
  /-- No byte of a table or of a page has changed. -/
  frames : Kept pool.alloc.mem after.mem pool.live

section Rollback

variable {alloc after : PageAllocator} {roots : Set Nat} {free rest : List Nat} {managed : Set Nat}

/-- Lists of the same frames, without repetition, are equally long. -/
theorem SpaceRolledBack.length
    (rolledBack : SpaceRolledBack alloc after roots free managed src rest)
    (owned : Owned alloc roots free managed) : rest.length = free.length :=
  ((List.perm_ext_iff_of_nodup rolledBack.owned.nodup owned.nodup).mpr
    rolledBack.same_free).length_eq

/-- The frames of the address spaces that are alive were not free, and so are kept. -/
theorem SpaceRolledBack.kept_all
    (rolledBack : SpaceRolledBack alloc after roots free managed src rest)
    (owned : Owned alloc roots free managed) : Kept alloc.mem after.mem roots :=
  fun root live node member => rolledBack.kept node (owned.node_managed live member)
    (owned.apart root live node member)

/-- Nothing is left behind in the pool. -/
theorem Pool.Conserved.rolledBack (conserved : pool.Conserved free managed)
    (rolledBack : SpaceRolledBack pool.alloc after pool.live free managed src rest) :
    pool.RolledBack after := by
  have owned := conserved.owned
  have kept := rolledBack.kept_all owned
  constructor
  case free =>
    exact ⟨free, rest, owned.chain, owned.nodup, rolledBack.owned.chain, rolledBack.owned.nodup,
      rolledBack.same_free⟩
  case count => rw [rolledBack.owned.count, owned.count, rolledBack.length owned]
  case total => exact rolledBack.total
  case translations => exact fun root live va => ttbr0ToPa_congr (kept.tables live) va
  case attributes => exact fun root live path short => kept.attributes live short
  case frames => exact kept

end Rollback

/--
`duplicate_va_space` fails exactly when fewer frames are free than the source owns.

Then it gives all frames back, and changes no address space.
-/
theorem Pool.Reachable.duplicate_rollsBack (reached : pool.Reachable first limit)
    (live : src ∈ pool.live) :
    (∀ error after, duplicateVaSpace src pool.alloc = (.error error, after) →
      pool.RolledBack after) ∧
    ((∃ error after, duplicateVaSpace src pool.alloc = (.error error, after)) ↔
      pool.alloc.freeFrameCount < (nodes (child pool.alloc.mem) 3 src).ncard) := by
  obtain ⟨free, conserved⟩ := reached.conserved
  -- Whether the copy fails is decided by the number of free frames.
  have owned := conserved.owned
  have outcome := duplicateVaSpace_spec owned live
  rw [owned.count]
  generalize duplicateVaSpace src pool.alloc = result at outcome
  cases outcome with
  | done holds =>
    obtain ⟨used, rest, copied⟩ := holds
    refine ⟨fun error after failed => (by cases failed), fun ⟨error, after, failed⟩ => ?_,
      fun few => ?_⟩
    · cases failed
    · -- A copy takes as many frames as its source has, so they were there.
      have whole := congrArg List.length copied.free_eq
      have size := copied.length owned live
      rw [List.length_cons, List.length_append] at whole
      rw [List.length_cons] at size
      omega
  -- A failed copy was rolled back, and the frames it would have needed were not there.
  | failed holds =>
    obtain ⟨rest, rolledBack⟩ := holds
    refine ⟨fun error after failed => ?_, fun _ => rolledBack.few, fun _ => ⟨_, _, rfl⟩⟩
    cases failed
    exact conserved.rolledBack rolledBack

/-- With one of six frames left, a root with a page cannot be copied, and nothing is lost. -/
theorem duplicate_rollsBack_sixFrames : ∃ alloc error after, sixFrames = some alloc ∧
    duplicateVaSpace 0x5000 alloc = (.error error, after) ∧ alloc.freeFrameCount = 1 ∧
    1 < (nodes (child alloc.mem) 3 0x5000).ncard ∧
    Pool.RolledBack ⟨alloc, {0x4000, 0x5000}⟩ after := by
  obtain ⟨alloc, done, few, -⟩ := sixFrames_some
  have live : 0x5000 ∈ ({0x4000, 0x5000} : Set Nat) := by simp
  -- The address space at hand has more nodes than there are free frames.
  have fails : (sixFrames.map fun alloc => (duplicateVaSpace 0x5000 alloc).1.isOk) =
      some false := by decide +kernel
  rw [done, Option.map_some, Option.some.injEq] at fails
  obtain ⟨rollsBack, fewer⟩ := (sixFrames_reachable done).duplicate_rollsBack live
  cases result : duplicateVaSpace 0x5000 alloc with
  | mk copied after =>
    cases copied with
    | ok root =>
      rw [result] at fails
      cases fails
    | error error =>
      have less := fewer.mp ⟨error, after, result⟩
      dsimp only at less
      rw [few] at less
      exact ⟨alloc, error, after, done, result, few, less, rollsBack error after result⟩

end AtOS
