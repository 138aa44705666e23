import AtOS.Loader.LoadElf

/-! `load_elf` takes frames from the free list, but the pool stays as large as it is. -/

namespace AtOS

variable {alloc after : PageAllocator} {root : Nat}

/-- A frame that is taken is still counted among all frames. -/
theorem getFreeFramePa_total {pa : Nat} (popped : getFreeFramePa alloc = some (pa, after)) :
    after.totalFrameCount = alloc.totalFrameCount := by
  unfold getFreeFramePa at popped
  split at popped
  · cases popped
    rfl
  · cases popped

/-- Making sure of a table does not change the total. -/
theorem ensureTable_total {table : Nat} {index : EntryIndex} {message : String}
    (done : ensureTable table index message alloc = .ok after) :
    after.totalFrameCount = alloc.totalFrameCount := by
  unfold ensureTable at done
  split at done
  · split at done
    · rename_i popped
      have total := getFreeFramePa_total popped
      cases done
      exact total
    · cases done
  · cases done
    rfl

/-- Neither does allocating a page, -/
theorem allocPage_total {va pa : Nat} (done : allocPage va root alloc = .ok (pa, after)) :
    after.totalFrameCount = alloc.totalFrameCount := by
  simp only [allocPage, bind, Except.bind, pure, Except.pure, throw, throwThe,
    MonadExceptOf.throw] at done
  -- Each of the three steps keeps the total, and popping a frame does.
  split at done
  · cases done
  · cases upper : ensureTable root (l1Index va)
        "No free frames available for new L2 page table" alloc with
    | error panic =>
      rw [upper] at done
      cases done
    | ok middle =>
      rw [upper] at done
      dsimp only at done
      have first := ensureTable_total upper
      split at done
      · cases done
      · rename_i lower last
        have second := ensureTable_total last
        split at done
        · split at done
          · rename_i popped
            have third := getFreeFramePa_total popped
            cases done
            exact third.trans (second.trans first)
          · cases done
        · cases done

/-- Mapping the pages of a segment leaves the pool as large as it is, -/
theorem allocSegmentPages_total (vaEnd : Nat) : ∀ (passes currentPageVa : Nat)
    {alloc : PageAllocator}, allocSegmentPages vaEnd root passes currentPageVa alloc = .ok after →
      after.totalFrameCount = alloc.totalFrameCount := by
  intro passes
  -- The induction is on the passes, each of which allocates a page.
  induction passes with
  | zero =>
    intro currentPageVa alloc done
    cases done
  | succ passes ih =>
    intro currentPageVa alloc done
    rw [allocSegmentPages] at done
    split at done
    · split at done
      · rename_i mapped
        exact (ih _ done).trans (allocPage_total mapped)
      · cases done
    · cases done
      rfl

/-- and so does zeroing the rest of it, -/
theorem zeroBss_total (vaEnd : Nat) : ∀ (passes zeroVa : Nat) {alloc : PageAllocator},
    zeroBss vaEnd root passes zeroVa alloc = .ok after →
      after.totalFrameCount = alloc.totalFrameCount := by
  intro passes
  -- The induction is on the passes, each of which writes memory alone.
  induction passes with
  | zero =>
    intro zeroVa alloc done
    cases done
  | succ passes ih =>
    intro zeroVa alloc done
    rw [zeroBss] at done
    split at done
    · dsimp only at done
      split at done
      · have same := ih _ done
        exact same
      · cases done
    · cases done
      rfl

/-- nor copying a segment, -/
theorem copySegment_total {bytes : List UInt8} {ph : Elf64ProgHdr}
    (done : copySegment bytes ph root alloc = .ok after) :
    after.totalFrameCount = alloc.totalFrameCount := by
  unfold copySegment copyToPages at done
  split at done
  · split at done
    · split at done
      · rename_i copied
        cases done
        exact congrArg (fun result : Except String Unit × PageAllocator => result.2.totalFrameCount)
          copied.symm
      · cases done
    · cases done
  · cases done
    rfl

/-- so a whole segment does. -/
theorem loadSegment_total {bytes : List UInt8} {ph : Elf64ProgHdr}
    (done : loadSegment bytes ph root alloc = .ok after) :
    after.totalFrameCount = alloc.totalFrameCount := by
  simp only [loadSegment, bind, Except.bind] at done
  split at done
  · cases done
  · rename_i mapped pages
    split at done
    · cases done
    · rename_i filled copied
      have total := (copySegment_total copied).trans (allocSegmentPages_total _ _ _ pages)
      split at done
      · exact (zeroBss_total _ _ _ done).trans total
      · cases done
        exact total

/-- nor loading the segments, -/
theorem loadSegments_total {bytes : List UInt8} (start : Nat) (indices : List Nat) :
    ∀ {state last : LoadState}, loadSegments bytes start root indices state = .ok last →
      last.alloc.totalFrameCount = state.alloc.totalFrameCount := by
  -- The induction is on the headers that are still to come.
  induction indices with
  | nil =>
    intro state last done
    cases done
    rfl
  | cons index rest ih =>
    intro state last done
    rw [loadSegments] at done
    dsimp only at done
    split at done
    · cases done
      rfl
    · split at done
      · split at done
        · rename_i loaded
          exact (ih done).trans (loadSegment_total loaded)
        · cases done
      · exact ih done

/-- nor allocating the stack. -/
theorem allocStackPages_total (stackTop : Nat) (positions : List Nat) :
    ∀ {alloc : PageAllocator}, allocStackPages stackTop root positions alloc = .ok after →
      after.totalFrameCount = alloc.totalFrameCount := by
  induction positions with
  | nil =>
    intro alloc done
    cases done
    rfl
  | cons position rest ih =>
    intro alloc done
    rw [allocStackPages] at done
    split at done
    · rename_i mapped
      exact (ih done).trans (allocPage_total mapped)
    · cases done

/-- `load_elf` makes the pool neither larger nor smaller, whatever it is given. -/
theorem loadElf_total {bytes : List UInt8} {result : Except String (Nat × Nat × Nat)}
    (done : loadElf bytes alloc = .ok (result, after)) :
    after.totalFrameCount = alloc.totalFrameCount := by
  -- Popping the root, loading the segments, and mapping the stack all keep the total.
  unfold loadElf at done
  split at done
  · cases done
    rfl
  · split at done
    · cases done
    · rename_i popped
      have first := getFreeFramePa_total popped
      simp only [bind, Except.bind, pure, Except.pure] at done
      split at done
      · cases done
      · rename_i loaded segments
        have total := (loadSegments_total _ _ segments).trans first
        split at done
        · cases done
          exact total
        · split at done
          · cases done
          · rename_i stackMapped
            cases done
            exact (allocStackPages_total _ _ stackMapped).trans total

end AtOS
