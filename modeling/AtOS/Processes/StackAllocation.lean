import AtOS.Processes.StackTable

/-! How kernel stacks are found and given out, and what the first one takes. -/

namespace AtOS

open ByteMemory RadixForest SlotTable

variable {k next : Kernel}

section Stack

/-- The slot that is found for a pid is allocated under it. -/
theorem Kernel.getActiveStackIndex_some {pid : UInt64} {stack : Fin maxProcesses}
    (found : k.getActiveStackIndex pid = some stack) : k.kernelStacks stack = .allocated pid := by
  have passes := List.find?_some found
  simpa using passes

/-- A process without an active stack is one that no slot is allocated to. -/
theorem Kernel.getActiveStackIndex_none {pid : UInt64} :
    k.getActiveStackIndex pid = none ↔ ∀ stack, k.kernelStacks stack ≠ .allocated pid := by
  unfold Kernel.getActiveStackIndex
  rw [List.find?_eq_none]
  simp [List.mem_finRange]

/-- The top of the stack of a process, if it has one. -/
theorem Kernel.getStackTop_eq (k : Kernel) (pid : UInt64) :
    k.getStackTop pid = match k.getActiveStackIndex pid with
      | some stack => .ok (kernelStackTop stack)
      | none => .error "[get_stack_top] Process does not have a kernel stack allocated" := rfl

/-- What `alloc_stack` does when it succeeds: it maps the pages of a free slot. -/
structure Kernel.StackAllocated (k : Kernel) (pid top : UInt64) (stack : Fin maxProcesses)
    (next : Kernel) : Prop where
  inactive : k.getActiveStackIndex pid = none
  free : k.kernelStacks stack = .free
  top_eq : top = UInt64.ofNat (kernelStackTop stack)
  next_eq : ∃ alloc pa,
    allocStackFrames (kernelStackStart stack) k.kernelL1 stackPageIndices k.alloc = .ok alloc ∧
      ttbr0ToPa alloc.mem (kernelStackTop stack - 0x10) k.kernelL1 = some pa ∧
      next = { k.setStack stack (.allocated pid) with
        alloc := { alloc with mem := writeLE alloc.mem pa 8 stackProbe } }

/-- `alloc_stack` finds a free slot when it succeeds. -/
theorem Kernel.allocStack_ok {pid top : UInt64} (done : k.allocStack pid = .ok (.ok top, next)) :
    ∃ stack, k.StackAllocated pid top stack next := by
  -- A process that has a stack already, a full table and a lack of frames are the other outcomes.
  unfold Kernel.allocStack at done
  split at done
  · cases done
  rename_i inactive
  split at done
  · cases done
  rename_i stack found
  have passes := List.find?_some found
  dsimp only at done
  split at done
  · cases done
  rename_i alloc mapped
  split at done
  · cases done
  rename_i pa translated
  -- The top that is returned and the new kernel are the ones of the last branch.
  rw [Except.ok.injEq, Prod.mk.injEq, Except.ok.injEq] at done
  obtain ⟨topEq, nextEq⟩ := done
  exact ⟨stack, by simpa using inactive, by simpa using passes, topEq.symm, alloc, pa, mapped,
    translated, nextEq.symm⟩

/-- `alloc_stack` refuses a process that has a stack, and fails without a free slot. -/
theorem Kernel.allocStack_error {pid : UInt64} {error : String}
    (failed : k.allocStack pid = .ok (.error error, next)) :
    next = k ∧ ((k.getActiveStackIndex pid).isSome ∨
      (k.getActiveStackIndex pid = none ∧ error = "[alloc_stack] No available kernel stacks" ∧
        ∀ stack, k.kernelStacks stack ≠ .free)) := by
  -- Both errors come before a frame is taken, so the kernel is unchanged.
  unfold Kernel.allocStack at failed
  split at failed
  · rename_i active
    cases failed
    exact ⟨rfl, Or.inl active⟩
  rename_i inactive
  split at failed
  · rename_i missing
    cases failed
    rw [List.find?_eq_none] at missing
    refine ⟨rfl, Or.inr ⟨by simpa using inactive, rfl, fun stack free => ?_⟩⟩
    exact missing stack (List.mem_finRange stack) (by simp [free])
  -- The frames have been mapped by then, so the call does not fail any more.
  dsimp only at failed
  split at failed
  · cases failed
  split at failed
  · cases failed
  · rw [Except.ok.injEq, Prod.mk.injEq] at failed
    cases failed.1

/-- `alloc_stack` stops when it runs out of frames, or when the new stack is not mapped. -/
theorem Kernel.allocStack_stop {pid : UInt64} {stop : Stop}
    (stopped : k.allocStack pid = .error stop) : ∃ stack, k.kernelStacks stack = .free ∧
      match allocStackFrames (kernelStackStart stack) k.kernelL1 stackPageIndices k.alloc with
      | .ok alloc => ttbr0ToPa alloc.mem (kernelStackTop stack - 0x10) k.kernelL1 = none
      | .error panic => stop = .panic panic := by
  -- Only the frames and the lookup behind them can stop the kernel.
  unfold Kernel.allocStack at stopped
  split at stopped
  · cases stopped
  split at stopped
  · cases stopped
  rename_i stack found
  refine ⟨stack, by simpa using List.find?_some found, ?_⟩
  dsimp only at stopped
  split at stopped
  · -- A frame was missing.
    rename_i panic mapped
    have frames : allocStackFrames (kernelStackStart stack) k.kernelL1 stackPageIndices k.alloc =
        .error panic := mapped
    rw [frames]
    exact (Except.error.inj stopped).symm
  · rename_i alloc mapped
    have frames : allocStackFrames (kernelStackStart stack) k.kernelL1 stackPageIndices k.alloc =
        .ok alloc := mapped
    rw [frames]
    split at stopped
    · assumption
    · cases stopped

/-- The stacks after `alloc_stack` has succeeded. -/
theorem Kernel.StackAllocated.kernelStacks {pid top : UInt64} {stack : Fin maxProcesses}
    (allocated : k.StackAllocated pid top stack next) :
    next.kernelStacks = Function.update k.kernelStacks stack (.allocated pid) := by
  obtain ⟨alloc, pa, -, -, rfl⟩ := allocated.next_eq
  rfl

end Stack

section FirstStack

variable {alloc after : PageAllocator} {roots : Set Nat} {free taken rest : List Nat}
  {managed : Set Nat} {kernelL1 pa : Nat} {slot : Fin maxProcesses}

/-- The first page of a kernel stack brings the table that maps all of them. -/
theorem PageAdded.stackTable {page : Nat}
    (added : PageAdded alloc after roots free managed (kernelStackStart slot + page * 4096) kernelL1 pa
      taken rest) (owned : Owned alloc roots free managed) (live : kernelL1 ∈ roots) (small : page < 7)
    (unmapped : child alloc.mem kernelL1 (l1Index kernelStackRegionStart) = none) :
    ∃ table, StackRemapped alloc after roots rest managed kernelL1 table {stackEntry slot page} := by
  have path := stackPage_path slot small
  -- The page's own entry leads to its frame, and the other entries of the region lead nowhere.
  have leaves : ∀ index, walk (child after.mem) kernelL1
      ([l1Index kernelStackRegionStart, l2Index kernelStackRegionStart] ++ [index]) =
        if index = stackEntry slot page then some pa else none := by
    intro index
    rw [added.leaves kernelL1 live _ (by simp), path]
    by_cases same : index = stackEntry slot page
    · rw [if_pos same, same]
      simp
    · rw [if_neg same, if_neg (by simp [same])]
      show walk (child alloc.mem) kernelL1
        (l1Index kernelStackRegionStart :: [l2Index kernelStackRegionStart, index]) = none
      rw [walk_cons, unmapped]
      rfl
  -- The table of the region is new, so its entries are those that were written.
  have mapped := leaves (stackEntry slot page)
  rw [if_pos rfl, walk_snoc] at mapped
  obtain ⟨table, reached, -⟩ := Option.bind_eq_some_iff.mp mapped
  refine ⟨table, added.owned, added.total, ⟨reached, fun index => ?_⟩, added.kept_others owned live⟩
  have below := leaves index
  rw [walk_snoc, reached, Option.bind_some] at below
  rw [below, Set.mem_singleton_iff]
  by_cases same : index = stackEntry slot page
  · simp [same]
  · simp [same]

/-- The first kernel stack takes two frames for tables, and six for its pages. -/
theorem firstStackFrames (owned : Owned alloc roots free managed) (live : kernelL1 ∈ roots)
    (unmapped : child alloc.mem kernelL1 (l1Index kernelStackRegionStart) = none)
    (slot : Fin maxProcesses) :
    Loop.Yields
      (fun after => ∃ taken rest table, free = taken ++ rest ∧ taken.length = 8 ∧
        StackRemapped alloc after roots rest managed kernelL1 table
          (slotEntries slot stackPageIndices))
      (fun _ => free.length < 8)
      (allocStackFrames (kernelStackStart slot) kernelL1 stackPageIndices alloc) := by
  have first := allocPage_spec owned live (kernelStackStart slot + 1 * 4096)
  rw [stackPageIndices, allocStackFrames]
  generalize allocPage (kernelStackStart slot + 1 * 4096) kernelL1 alloc = result at first
  cases result with
  | error panic =>
    rcases first with ⟨-, mapped⟩ | ⟨-, few, -⟩
    · -- The page cannot be mapped, since its first table is not there.
      rw [leafOf, stackPage_path slot (by decide : 1 < 7), walk_cons, unmapped] at mapped
      cases mapped
    · exact .stopped (by omega)
  | ok mapped =>
    -- The first page takes a table with it, and the five others only their own frame.
    obtain ⟨pa, middle⟩ := mapped
    obtain ⟨taken, left, added⟩ := first
    obtain ⟨table, step⟩ := added.stackTable owned live (by decide) unmapped
    have later := step.there.allocStackFrames slot live [2, 3, 4, 5, 6] (by decide) (by decide)
      step.owned (by
        intro page listed same
        obtain ⟨-, rfl⟩ := stackEntry_inj (by simp at listed; omega) (by decide) same
        simp at listed)
    have upper := (stackPage_upper slot (1 * 4096) (by decide)).1
    have few : taken.length = 2 := by rw [added.count, missingTables, upper, unmapped]
    have whole := congrArg List.length added.free_eq
    rw [List.length_append, List.length_cons] at whole
    refine later.imp ?_ ?_
    · rintro last ⟨more, rest, rfl, count, next⟩
      refine ⟨taken ++ pa :: more, rest, table, ?_, ?_, ?_⟩
      · rw [added.free_eq]
        simp
      · simp only [List.length_append, List.length_cons, List.length_nil] at count ⊢
        omega
      · -- The eight frames are those of the first page and those of the others.
        rw [slotEntries_cons, Set.insert_eq]
        exact step.trans next
    · rintro panic ⟨few, -⟩
      simp only [List.length_cons, List.length_nil] at few
      omega

/-- The first kernel stack can be given out when eight frames are free. -/
theorem Kernel.allocStack_first (owned : Owned k.alloc roots free managed)
    (live : k.kernelL1 ∈ roots)
    (unmapped : child k.alloc.mem k.kernelL1 (l1Index kernelStackRegionStart) = none)
    (vacant : ∀ slot, k.kernelStacks slot = .free) (enough : 8 ≤ free.length) (pid : UInt64) :
    ∃ top stack next, k.allocStack pid = .ok (.ok top, next) ∧
      k.StackAllocated pid top stack next := by
  -- With all slots free, nobody has a stack yet.
  have inactive : k.getActiveStackIndex pid = none :=
    Kernel.getActiveStackIndex_none.mpr fun stack active => by simp [vacant] at active
  -- Neither error applies, and the frames are enough.
  cases result : k.allocStack pid with
  | ok value =>
    obtain ⟨value, next⟩ := value
    cases value with
    | ok top =>
      obtain ⟨stack, allocated⟩ := Kernel.allocStack_ok result
      exact ⟨top, stack, next, rfl, allocated⟩
    | error error =>
      obtain ⟨-, active | ⟨-, -, full⟩⟩ := Kernel.allocStack_error result
      · rw [inactive] at active
        cases active
      · exact absurd (vacant ⟨0, by decide⟩) (full _)
  | error stop =>
    obtain ⟨stack, -, stops⟩ := Kernel.allocStack_stop result
    -- With eight frames left, the six pages are mapped.
    have yields := firstStackFrames owned live unmapped stack
    generalize allocStackFrames (kernelStackStart stack) k.kernelL1 stackPageIndices k.alloc =
      frames at yields stops
    cases yields with
    | stopped few => omega
    | done holds =>
      obtain ⟨taken, rest, table, -, -, step⟩ := holds
      -- The page below the top is mapped, so the lookup finds it.
      obtain ⟨pa, translated, -⟩ := step.there.probe step.owned live ⟨6, by decide, rfl⟩
      dsimp only at stops
      rw [translated] at stops
      cases stops

/-- The first kernel stack takes its frames from the free list, and leaves all others alone. -/
theorem Kernel.StackAllocated.first {pid top : UInt64} {stack : Fin maxProcesses}
    (allocated : k.StackAllocated pid top stack next) (owned : Owned k.alloc roots free managed)
    (live : k.kernelL1 ∈ roots)
    (unmapped : child k.alloc.mem k.kernelL1 (l1Index kernelStackRegionStart) = none) :
    ∃ taken rest table, free = taken ++ rest ∧ taken.length = 8 ∧
      StackRemapped k.alloc next.alloc roots rest managed k.kernelL1 table
        (slotEntries stack stackPageIndices) := by
  obtain ⟨alloc, pa, mapped, translated, rfl⟩ := allocated.next_eq
  have yields := firstStackFrames owned live unmapped stack
  rw [mapped] at yields
  cases yields with
  | done holds =>
    obtain ⟨taken, rest, table, free_eq, few, step⟩ := holds
    obtain ⟨pa', found, write⟩ := step.there.probe step.owned live ⟨6, by decide, rfl⟩
    rw [translated, Option.some.injEq] at found
    subst found
    exact ⟨taken, rest, table, free_eq, few, step.trans (write stackProbe)⟩

end FirstStack

end AtOS
