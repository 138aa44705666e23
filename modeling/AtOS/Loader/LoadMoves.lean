import AtOS.Loader.Returning
import AtOS.Paging.PoolMoves

/-! `load_elf` as a run of operations on the allocator, all of them on its new root. -/

namespace AtOS

open ByteMemory RadixForest

section Loading

variable {may : Nat → EntryIndex → Prop} {live : Set Nat} {alloc after : PageAllocator}
  {root : Nat} {bytes : List UInt8} {ph : Elf64ProgHdr}

/-- Setting the bytes of a block to one value stores that value so often. -/
theorem fill_eq_store (mem : Mem) (start length : Nat) (byte : UInt8) :
    fill mem start length byte = store mem start (List.replicate length byte) := by
  funext address
  unfold fill store
  by_cases above : start ≤ address
  · rw [if_pos above]
    by_cases inside : address < start + length
    · rw [if_pos ⟨above, inside⟩, List.getD_eq_getElem _ _ (by rw [List.length_replicate]; omega),
        List.getElem_replicate]
    · rw [if_neg fun both => inside both.2, List.getD_eq_default _ _ (by
        rw [List.length_replicate]
        omega)]
  · rw [if_neg fun both => above both.1, if_neg above]

/-- The loop over the pages of a segment maps one page after the other. -/
theorem allocSegmentPages_moves {vaEnd : Nat} (isLive : root ∈ live)
    (whole : ∀ index, may root index) (passes current : Nat)
    (done : allocSegmentPages vaEnd root passes current alloc = .ok after) :
    Pool.Moves may ⟨alloc, live⟩ ⟨after, live⟩ := by
  induction passes generalizing current alloc with
  | zero => cases done
  | succ passes ih =>
    rw [allocSegmentPages] at done
    split at done
    · split at done
      · rename_i mapped
        exact .head (.allocPage isLive (whole _) mapped) (ih _ done)
      · cases done
    · cases done
      exact .refl

/-- So does the loop over the pages of the stack. -/
theorem allocStackPages_moves {stackTop : Nat} (isLive : root ∈ live)
    (whole : ∀ index, may root index) (positions : List Nat)
    (done : allocStackPages stackTop root positions alloc = .ok after) :
    Pool.Moves may ⟨alloc, live⟩ ⟨after, live⟩ := by
  induction positions generalizing alloc with
  | nil =>
    cases done
    exact .refl
  | cons i positions ih =>
    rw [allocStackPages] at done
    split at done
    · rename_i mapped
      exact .head (.allocPage isLive (whole _) mapped) (ih done)
    · cases done

/-- The file part of a segment is one copy. -/
theorem copySegment_moves (isLive : root ∈ live)
    (done : copySegment bytes ph root alloc = .ok after) :
    Pool.Moves may ⟨alloc, live⟩ ⟨after, live⟩ := by
  unfold copySegment at done
  -- Copying is one move, and there is none if nothing is to be copied.
  split at done
  · split at done
    · rename_i data _
      split at done
      · rename_i result copied
        cases done
        have move : Pool.Move may ⟨alloc, live⟩ ⟨(copyToPages data ph.virtaddr root alloc).2, live⟩ :=
          .copyToPages isLive data
        rw [copied] at move
        exact .single move
      · cases done
    · cases done
  · cases done
    exact .refl

/-- The zeroing writes into one page after the other, if it stays inside the first one. -/
theorem zeroBss_moves {vaEnd : Nat} (isLive : root ∈ live) (fits : vaEnd < 2 ^ 64)
    (passes zeroVa : Nat) (inside : ZeroesInside zeroVa vaEnd)
    (done : zeroBss vaEnd root passes zeroVa alloc = .ok after) :
    Pool.Moves may ⟨alloc, live⟩ ⟨after, live⟩ := by
  -- The induction is on the passes; all but the first one start at a page boundary.
  induction passes generalizing zeroVa alloc with
  | zero => cases done
  | succ passes ih =>
    rw [zeroBss] at done
    split at done
    · rename_i more
      split at done
      · rename_i frameVa translated
        rw [ttbr0ToTtbr1, Option.map_eq_some_iff] at translated
        obtain ⟨raw, found, rfl⟩ := translated
        obtain ⟨leaf, mapped, rfl⟩ := ttbr0ToPa_eq_some.mp found
        have spread := inside more
        have counted : min (4096 - zeroVa % 4096) (vaEnd - zeroVa) = zeroCount zeroVa vaEnd := rfl
        -- One pass writes zeros to the page at hand.
        simp only [pageOffset_eq, counted] at done
        have atLeast : zeroCount zeroVa vaEnd = min (4096 - zeroVa % 4096) (vaEnd - zeroVa) := rfl
        have noWrap : wrapping (zeroVa + zeroCount zeroVa vaEnd) =
            zeroVa + zeroCount zeroVa vaEnd := Nat.mod_eq_of_lt (by omega)
        rw [noWrap, fill_eq_store] at done
        -- The offset is added twice, and this is still the same page.
        have samePage : (zeroVa + zeroVa % 4096) / 4096 = zeroVa / 4096 := by omega
        have target : leafOf alloc.mem root (zeroVa + zeroVa % 4096) = some leaf := by
          rw [leafOf, pagePath_of_page samePage]
          exact mapped
        refine .head (.write isLive target (fun isFrame => ?_) ?_)
          -- The next pass begins at a page boundary.
          (ih (zeroVa + zeroCount zeroVa vaEnd) (fun again => ?_) done)
        · obtain ⟨aligned, low⟩ := isFrame
          have back : ttbr1ToPa (ttbr1ToVa (leaf + zeroVa % 4096)) = leaf + zeroVa % 4096 :=
            ttbr1ToPa_ttbr1ToVa (by omega)
          rw [back]
          omega
        · rw [List.length_replicate]
          omega
        · have boundary : (zeroVa + zeroCount zeroVa vaEnd) % 4096 = 0 := by omega
          rw [boundary, zeroCount]
          omega
      · cases done
    · cases done
      exact .refl

/-- A segment is loaded by such operations, -/
theorem loadSegment_moves (isLive : root ∈ live) (whole : ∀ index, may root index)
    (inside : ph.StaysInside) (done : loadSegment bytes ph root alloc = .ok after) :
    Pool.Moves may ⟨alloc, live⟩ ⟨after, live⟩ := by
  simp only [loadSegment, bind, Loop.bind_eq_ok] at done
  obtain ⟨mapped, mapping, copied, copying, zeroing⟩ := done
  have filled := (allocSegmentPages_moves isLive whole _ _ mapping).trans
    (copySegment_moves isLive copying)
  split at zeroing
  · exact filled.trans (zeroBss_moves isLive (Nat.mod_lt _ (by decide)) _ _ inside zeroing)
  · cases zeroing
    exact filled

/-- and so are all segments. -/
theorem loadSegments_moves {tableStart : Nat} (isLive : root ∈ live)
    (whole : ∀ index, may root index) (indices : List Nat) {state last : LoadState}
    (inside : ∀ ph ∈ loadHeaders bytes tableStart indices, ph.StaysInside)
    (done : loadSegments bytes tableStart root indices state = .ok last) :
    Pool.Moves may ⟨state.alloc, live⟩ ⟨last.alloc, live⟩ := by
  -- The induction is on the headers, of which those of type `LOAD` make moves.
  induction indices generalizing state with
  | nil =>
    cases done
    exact .refl
  | cons i indices ih =>
    rw [loadSegments] at done
    rw [loadHeaders] at inside
    dsimp only at done inside
    split at done
    · cases done
      exact .refl
    · rename_i within
      rw [if_neg within] at inside
      split at done
      · rename_i load
        rw [if_pos load] at inside
        split at done
        · rename_i loaded
          exact (loadSegment_moves isLive whole (inside _ List.mem_cons_self) loaded).trans
            (ih (fun ph member => inside ph (List.mem_cons_of_mem _ member)) done)
        · cases done
      · rename_i other
        rw [if_neg other] at inside
        exact ih inside done

/-- A file whose zeroing stays in its pages is loaded by making a root, and working on it. -/
theorem loadElf_moves {entryPoint stackTop : Nat}
    (inside : ∀ header, Elf64Hdr.mkfrombytes bytes = some header →
      ∀ ph ∈ header.loaded bytes, ph.StaysInside)
    (whole : ∀ index, may root index)
    (done : loadElf bytes alloc = .ok (.ok (entryPoint, stackTop, root), after)) :
    Pool.Moves may ⟨alloc, live⟩ ⟨after, insert root live⟩ := by
  -- The moves are a root, those of the segments, and those of the stack.
  rw [loadElf] at done
  split at done
  · cases done
  rename_i header verified
  split at done
  · cases done
  rename_i popRoot popped pop
  simp only [bind, Loop.bind_eq_ok] at done
  obtain ⟨last, loading, done⟩ := done
  split at done
  · cases done
  simp only [Loop.bind_eq_ok, pure, Except.pure, Except.ok.injEq, Prod.mk.injEq] at done
  obtain ⟨stack, mapping, ⟨-, -, rfl⟩, rfl⟩ := done
  have isLive : popRoot ∈ insert popRoot live := Set.mem_insert _ _
  exact (Relation.ReflTransGen.head (.newRoot pop)
    (loadSegments_moves isLive whole _ (inside header verified) loading)).trans
    (allocStackPages_moves isLive whole _ mapping)

end Loading

end AtOS
