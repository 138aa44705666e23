import AtOS.Loader.Segments

/-! What `load_elf` leaves behind whenever it returns, also where the sums of the headers wrap. -/

namespace AtOS

open ByteMemory RadixForest

/-- The PT_LOAD headers that the loop of `load_elf` comes to. -/
def loadHeaders (bytes : List UInt8) (start : Nat) : List Nat → List Elf64ProgHdr
  | [] => []
  | i :: rest =>
    let offset := wrapping (start + i * phSize)
    if wrapping (offset + phSize) > bytes.length then []
    else if (Elf64ProgHdr.read bytes offset).type = ptLoad then
      Elf64ProgHdr.read bytes offset :: loadHeaders bytes start rest
    else loadHeaders bytes start rest

/-- The PT_LOAD headers of a file that `load_elf` comes to. -/
def Elf64Hdr.loaded (header : Elf64Hdr) (bytes : List UInt8) : List Elf64ProgHdr :=
  loadHeaders bytes header.phoff (List.range header.phnum)

/-- The zeroing from an address on stays inside the page it starts in. -/
def ZeroesInside (zeroVa vaEnd : Nat) : Prop :=
  zeroVa < vaEnd → 2 * (zeroVa % 4096) + zeroCount zeroVa vaEnd ≤ 4096

/-- The zeroing of a segment meets no other frame, with the sums as the release build has them. -/
def Elf64ProgHdr.StaysInside (ph : Elf64ProgHdr) : Prop :=
  ZeroesInside (wrapping (ph.virtaddr + ph.filesize)) (wrapping (ph.virtaddr + ph.memsize))

/-- An address space is being built, whatever is still free. -/
def BuildsOn (start alloc : PageAllocator) (roots managed : Set Nat) (root : Nat) : Prop :=
  ∃ rest, Building start alloc roots managed root rest

section Steps

variable {start alloc after : PageAllocator} {roots managed : Set Nat} {root va pa : Nat}
  {bytes : List UInt8} {ph : Elf64ProgHdr}

/-- Allocating a page goes on building. -/
theorem BuildsOn.allocPage (building : BuildsOn start alloc roots managed root)
    (done : AtOS.allocPage va root alloc = .ok (pa, after)) :
    BuildsOn start after roots managed root := by
  obtain ⟨rest, building⟩ := building
  have yields := building.allocPage va
  rw [done] at yields
  cases yields with
  | done holds =>
    obtain ⟨left, built, -⟩ := holds
    exact ⟨left, built⟩

/-- The loop over the pages of a segment only maps pages. -/
theorem BuildsOn.allocSegmentPages {vaEnd : Nat} (passes current : Nat)
    (building : BuildsOn start alloc roots managed root)
    (done : AtOS.allocSegmentPages vaEnd root passes current alloc = .ok after) :
    BuildsOn start after roots managed root := by
  -- The induction is on the passes, each of which allocates a page.
  induction passes generalizing current alloc with
  | zero => cases done
  | succ passes ih =>
    rw [AtOS.allocSegmentPages] at done
    split at done
    · cases page : AtOS.allocPage current root alloc with
      | error panic =>
        rw [page] at done
        cases done
      | ok mapped =>
        rw [page] at done
        exact ih _ (building.allocPage page) done
    · cases done
      exact building

/-- The loop over the pages of the stack only maps pages. -/
theorem BuildsOn.allocStackPages {stackTop : Nat} (positions : List Nat)
    (building : BuildsOn start alloc roots managed root)
    (done : AtOS.allocStackPages stackTop root positions alloc = .ok after) :
    BuildsOn start after roots managed root := by
  induction positions generalizing alloc with
  | nil =>
    cases done
    exact building
  | cons i positions ih =>
    rw [AtOS.allocStackPages] at done
    split at done
    · rename_i pa mapped page
      exact ih (building.allocPage page) done
    · cases done

/-- The copied bytes go into pages of the new address space. -/
theorem BuildsOn.copySegment (building : BuildsOn start alloc roots managed root)
    (done : AtOS.copySegment bytes ph root alloc = .ok after) :
    BuildsOn start after roots managed root := by
  rw [AtOS.copySegment] at done
  -- Copying builds on, and so does copying nothing.
  split at done
  · cases slice : segmentBytes bytes ph with
    | error panic =>
      rw [slice] at done
      cases done
    | ok data =>
      obtain ⟨rest, building⟩ := building
      obtain ⟨copied, -⟩ := building.copyToPages data ph.virtaddr
      rw [slice] at done
      dsimp only at done
      split at done
      · rename_i written result
        cases done
        rw [result] at copied
        exact ⟨rest, copied⟩
      · cases done
  · cases done
    exact building

/-- The zeroing loop writes into pages of the new address space, and maybe behind the first one. -/
theorem BuildsOn.zeroBss {vaEnd : Nat} (fits : vaEnd < 2 ^ 64) (passes zeroVa : Nat)
    (safe : ZeroesInside zeroVa vaEnd ∨ Spaced managed)
    (building : BuildsOn start alloc roots managed root)
    (done : AtOS.zeroBss vaEnd root passes zeroVa alloc = .ok after) :
    BuildsOn start after roots managed root := by
  -- The induction is on the passes; all but the first one start at a page boundary.
  induction passes generalizing zeroVa alloc with
  | zero => cases done
  | succ passes ih =>
    -- A page that is not mapped would stop the loop.
    by_cases more : zeroVa < vaEnd
    · have counted : zeroCount zeroVa vaEnd = min (4096 - zeroVa % 4096) (vaEnd - zeroVa) := rfl
      cases found : leafOf alloc.mem root zeroVa with
      | none =>
        have missing : ttbr0ToPa alloc.mem zeroVa root = none := by
          rw [← Option.not_isSome_iff_eq_none, ttbr0ToPa_isSome, found]
          simp
        rw [AtOS.zeroBss, if_pos more, ttbr0ToTtbr1, missing] at done
        cases done
      | some leaf =>
        -- The pass clears bytes of one page, and the offset it adds twice stays within it.
        obtain ⟨rest, building⟩ := building
        have isFrame := (building.owned.leaf_managed building.live found).2
        rw [zeroBss_pass fits more found isFrame] at done
        obtain ⟨filled, -⟩ := building.filled found
          (by omega : 2 * (zeroVa % 4096) + zeroCount zeroVa vaEnd ≤ 8192)
          (safe.imp_left fun inside => inside more)
        refine ih (zeroVa + zeroCount zeroVa vaEnd) (Or.inl fun again => ?_) ⟨rest, filled⟩ done
        have boundary : (zeroVa + zeroCount zeroVa vaEnd) % 4096 = 0 := by omega
        rw [boundary, zeroCount]
        omega
    · rw [AtOS.zeroBss, if_neg more] at done
      cases done
      exact building

/-- A segment is loaded into pages of the new address space. -/
theorem BuildsOn.loadSegment (building : BuildsOn start alloc roots managed root)
    (safe : ph.StaysInside ∨ Spaced managed)
    (done : AtOS.loadSegment bytes ph root alloc = .ok after) :
    BuildsOn start after roots managed root := by
  simp only [AtOS.loadSegment, bind, Loop.bind_eq_ok] at done
  obtain ⟨mapped, mapping, copied, copying, zeroing⟩ := done
  have built := (building.allocSegmentPages _ _ mapping).copySegment copying
  split at zeroing
  · exact built.zeroBss (Nat.mod_lt _ (by decide)) _ _ safe zeroing
  · cases zeroing
    exact built

/-- The loop over the program headers only builds, and knows whether there was a segment. -/
theorem BuildsOn.loadSegments {tableStart : Nat} (indices : List Nat) {state last : LoadState}
    (building : BuildsOn start state.alloc roots managed root)
    (safe : (∀ ph ∈ loadHeaders bytes tableStart indices, ph.StaysInside) ∨ Spaced managed)
    (done : AtOS.loadSegments bytes tableStart root indices state = .ok last) :
    BuildsOn start last.alloc roots managed root := by
  -- The induction is on the headers, of which those of type `LOAD` are built.
  induction indices generalizing state with
  | nil =>
    cases done
    exact building
  | cons i indices ih =>
    rw [AtOS.loadSegments] at done
    rw [loadHeaders] at safe
    dsimp only at done safe
    split at done
    · cases done
      exact building
    · rename_i inside
      rw [if_neg inside] at safe
      split at done
      · rename_i load
        rw [if_pos load] at safe
        -- The segment is built, and the other headers follow.
        split at done
        · rename_i middle loaded
          exact ih (building.loadSegment (safe.imp_left fun all => all _ List.mem_cons_self) loaded)
            (safe.imp_left fun all ph member => all ph (List.mem_cons_of_mem _ member)) done
        · cases done
      · rename_i other
        rw [if_neg other] at safe
        exact ih building safe done

/-- The loop has loaded a segment exactly if it came to one; else it has done nothing. -/
theorem loadSegments_any {tableStart : Nat} (indices : List Nat) {state last : LoadState}
    (done : AtOS.loadSegments bytes tableStart root indices state = .ok last) :
    (last.loadedAnySegments = true ↔
      state.loadedAnySegments = true ∨ loadHeaders bytes tableStart indices ≠ []) ∧
    (loadHeaders bytes tableStart indices = [] → last.alloc = state.alloc) := by
  -- The flag is set by the first segment, and stays set.
  induction indices generalizing state with
  | nil =>
    cases done
    simp [loadHeaders]
  | cons i indices ih =>
    rw [AtOS.loadSegments] at done
    rw [loadHeaders]
    dsimp only at done ⊢
    -- The table ends outside of the file, and nothing has been loaded.
    split at done
    · rename_i outside
      cases done
      rw [if_pos outside]
      simp
    · rename_i inside
      rw [if_neg inside]
      split at done
      · rename_i load
        rw [if_pos load]
        split at done
        · obtain ⟨any, -⟩ := ih done
          exact ⟨by simp [any], by simp⟩
        · cases done
      · rename_i other
        rw [if_neg other]
        exact ih done

end Steps

section Returning

variable {alloc after : PageAllocator} {bytes : List UInt8}

/-- How `load_elf` returns an error. -/
inductive LoadRefused (alloc : PageAllocator) (bytes : List UInt8) (after : PageAllocator) : Prop
  | header (invalid : Elf64Hdr.mkfrombytes bytes = none) (same : after = alloc)
  /-- The root that was popped is not given back. -/
  | noSegments {header : Elf64Hdr} {root : Nat}
      (verified : Elf64Hdr.mkfrombytes bytes = some header) (none : header.loaded bytes = []) (popped : getFreeFramePa alloc = some (root, after))

/-- An error of `load_elf` is about the header, or about the missing segments. -/
theorem loadElf_error {error : String} (failed : loadElf bytes alloc = .ok (.error error, after)) :
    LoadRefused alloc bytes after := by
  -- The load is refused without a header, or without a segment.
  rw [loadElf] at failed
  split at failed
  · rename_i invalid
    rw [Except.ok.injEq, Prod.mk.injEq] at failed
    exact .header invalid failed.2.symm
  rename_i header verified
  split at failed
  · cases failed
  rename_i root popped pop
  simp only [bind, Loop.bind_eq_ok] at failed
  obtain ⟨last, loading, failed⟩ := failed
  obtain ⟨any, untouched⟩ := loadSegments_any _ loading
  -- Only the root has been popped then.
  split at failed
  · rename_i nothing
    simp only [pure, Except.pure, Except.ok.injEq, Prod.mk.injEq] at failed
    have empty : header.loaded bytes = [] := by simpa [any, Elf64Hdr.loaded] using nothing
    refine .noSegments verified empty (?_ : getFreeFramePa alloc = some (root, after))
    rw [pop, ← failed.2, untouched empty]
  · simp only [Loop.bind_eq_ok, pure, Except.pure] at failed
    obtain ⟨stack, -, failed⟩ := failed
    cases failed

/-- A file that is loaded has a segment, and its address space is a new one. -/
theorem loadElf_ok {entryPoint stackTop root : Nat}
    (done : loadElf bytes alloc = .ok (.ok (entryPoint, stackTop, root), after)) :
    ∃ header, Elf64Hdr.mkfrombytes bytes = some header ∧ header.loaded bytes ≠ [] ∧
      ∀ {roots managed : Set Nat} {free : List Nat}, Owned alloc roots free managed →
        (∀ ph ∈ header.loaded bytes, ph.StaysInside) ∨ Spaced managed →
        BuildsOn alloc after roots managed root := by
  -- All steps but the last two have to succeed for an image to come back.
  rw [loadElf] at done
  split at done
  · cases done
  rename_i header verified
  refine ⟨header, verified, ?_⟩
  split at done
  · cases done
  rename_i popRoot popped pop
  simp only [bind, Loop.bind_eq_ok] at done
  obtain ⟨last, loading, done⟩ := done
  obtain ⟨any, -⟩ := loadSegments_any _ loading
  split at done
  · cases done
  rename_i loaded
  simp only [Loop.bind_eq_ok, pure, Except.pure, Except.ok.injEq, Prod.mk.injEq] at done
  obtain ⟨stack, mapping, ⟨-, -, rfl⟩, rfl⟩ := done
  refine ⟨by simpa [any, Elf64Hdr.loaded] using loaded, fun {roots managed free} owned safe => ?_⟩
  -- From the root on, every step goes on building.
  cases free with
  | nil =>
    rw [owned.pop_nil] at pop
    cases pop
  | cons root free =>
    obtain ⟨begun, popBegun, building, -⟩ := Building.begin owned
    rw [popBegun, Option.some.injEq, Prod.mk.injEq] at pop
    obtain ⟨rfl, rfl⟩ := pop
    have start : BuildsOn alloc begun roots managed root := ⟨free, building⟩
    exact (start.loadSegments _ safe loading).allocStackPages _ mapping

end Returning

end AtOS
