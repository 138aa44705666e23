import AtOS.Resources.Trapping

/-! What `sys_print`, `sys_read` and `sys_exec` touch through the pointers of their caller. -/

namespace AtOS

/-- The addresses of a range in order, up to the first one at which an access faults. -/
def reach (read : Nat → Option UInt8) (start length : Nat) : List Nat :=
  ((List.range length).map (start + ·)).takeWhile fun va => (read va).isSome

/--
The ranges that `sys_exec` reads: an entry of each table, and then the string, for each argument.

It stops at an argument that it refuses, or that it faults at.
-/
def execRanges (read : Nat → Option UInt8) (ptrs lens : UInt64) : List Nat → List (Nat × Nat)
  | [] => []
  | i :: rest =>
    (ptrs.toNat + 8 * i, 8) :: match readU64 read (ptrs.toNat + 8 * i) with
    | none => []
    | some ptr =>
      (lens.toNat + 8 * i, 8) :: match readU64 read (lens.toNat + 8 * i) with
      | none => []
      | some len =>
        if maxExecArgLen < len.toNat ∨ (len ≠ 0 ∧ ptr = 0) then []
        else (ptr.toNat, len.toNat) :: match readSlice read ptr.toNat len.toNat with
          | none => []
          | some _ => execRanges read ptrs lens rest

/-- The ranges that a handler follows the pointers of its caller to, in order. -/
def Kernel.ranges (k : Kernel) (ctx : ExceptionContext) : List (Nat × Nat) :=
  match ctx.esr.toNat % 2 ^ 16 with
  -- `sys_print` checks the text as a whole, and `sys_read` fills its buffer from the start.
  | 1 => [((ctx.x.get 0).toNat, (ctx.x.get 1).toNat)]
  | 2 =>
    if ctx.x.get 0 = 0 ∨ ctx.x.get 1 = 0 then []
    else [((ctx.x.get 0).toNat, (ctx.x.get 1).toNat)]
  | 5 =>
    if ctx.x.get 0 = 0 ∨ ctx.x.get 1 = 0 ∨ ctx.x.get 2 = 0 ∨ maxExecArgs < (ctx.x.get 2).toNat then []
    else execRanges (k.loadByte ctx.ttbr0) (ctx.x.get 0) (ctx.x.get 1)
      (List.range (ctx.x.get 2).toNat)
  | _ => []

/-- The addresses that a handler reads or writes through the pointers of its caller. -/
def Kernel.touches (k : Kernel) (ctx : ExceptionContext) : List Nat :=
  (k.ranges ctx).flatMap fun range => reach (k.loadByte ctx.ttbr0) range.1 range.2

/-- All that a handler touches for its caller is mapped by the table of the caller. -/
def Kernel.Isolated (k : Kernel) (ctx : ExceptionContext) : Prop :=
  ∀ va ∈ k.touches ctx, va < 2 ^ 39 ∧ (ttbr0ToPa k.alloc.mem va ctx.ttbr0.toNat).isSome = true

/-- An address of the kernel's half at which there is memory. -/
def Kernel.InKernelHalf (k : Kernel) (ctx : ExceptionContext) (va : Nat) : Prop :=
  0xffffff8000000000 ≤ va ∧ (k.loadByte ctx.ttbr0 va).isSome = true

/-- A byte at a virtual address, as the pages of a process have it. -/
def Kernel.loadUser (k : Kernel) (ttbr0 : UInt64) (va : Nat) : Option UInt8 :=
  if va < 2 ^ 39 then (ttbr0ToPa k.alloc.mem va ttbr0.toNat).map k.alloc.mem else none

section Reach

variable {read other : Nat → Option UInt8} {start length va : Nat}

/-- An address is reached if nothing before it faults. -/
theorem mem_reach : va ∈ reach read start length ↔
    ∃ i < length, va = start + i ∧ ∀ j ≤ i, (read (start + j)).isSome = true := by
  unfold reach
  -- The induction is on the length. Each byte is reached if all before it are.
  induction length generalizing start with
  | zero => simp
  | succ length ih =>
    have shifted : ((List.range length).map (· + 1)).map (start + ·) =
        (List.range length).map (start + 1 + ·) := by
      rw [List.map_map]
      exact List.map_congr_left fun i _ => by simp only [Function.comp_apply]; omega
    rw [List.range_succ_eq_map, List.map_cons, shifted, List.takeWhile_cons]
    split
    · rename_i first
      rw [List.mem_cons, ih]
      constructor
      · rintro (rfl | ⟨i, inside, rfl, before⟩)
        · refine ⟨0, by omega, rfl, fun j small => ?_⟩
          rw [Nat.le_zero.mp small]
          exact first
        · refine ⟨i + 1, by omega, by omega, fun j small => ?_⟩
          cases j with
          | zero => exact first
          | succ j =>
            have mapped := before j (by omega)
            rwa [Nat.add_right_comm, Nat.add_assoc] at mapped
      · rintro ⟨i, inside, rfl, before⟩
        cases i with
        | zero => exact Or.inl rfl
        | succ i =>
          refine Or.inr ⟨i, by omega, by omega, fun j small => ?_⟩
          have mapped := before (j + 1) (by omega)
          rwa [Nat.add_right_comm, Nat.add_assoc]
    · rename_i first
      constructor
      · intro impossible
        cases impossible
      · rintro ⟨i, -, -, before⟩
        exact absurd (before 0 (Nat.zero_le i)) first

end Reach

section Reads

variable {read other : Nat → Option UInt8} {start length i : Nat} {ptrs lens argc : UInt64}

/-- A slice is read the same from any memory that agrees with this one where it is reached. -/
theorem readSlice_reach (faults : ∀ va, read va = none → other va = none)
    (agrees : ∀ va ∈ reach read start length, other va = read va) :
    readSlice other start length = readSlice read start length := by
  unfold readSlice
  unfold reach at agrees
  -- The induction is on the positions, up to the first one that faults.
  generalize List.range length = positions at agrees ⊢
  induction positions with
  | nil => rfl
  | cons position rest ih =>
    rw [List.map_cons, List.takeWhile_cons] at agrees
    rw [List.mapM_cons, List.mapM_cons]
    cases here : read (start + position) with
    | none =>
      rw [faults _ here]
      rfl
    | some byte =>
      rw [here, Option.isSome_some, if_pos rfl] at agrees
      rw [agrees _ List.mem_cons_self, here, ih fun va member => agrees va (.tail _ member)]

/-- A word is read the same from any such memory. -/
theorem readU64_reach (faults : ∀ va, read va = none → other va = none)
    (agrees : ∀ va ∈ reach read start 8, other va = read va) :
    readU64 other start = readU64 read start := by
  rw [readU64, readU64, readSlice_reach faults agrees]

/-- The arguments of `sys_exec` come from no memory but what its ranges reach. -/
theorem readExecArg_mapM (faults : ∀ va, read va = none → other va = none) :
    ∀ indices : List Nat,
      (∀ range ∈ execRanges read ptrs lens indices, ∀ va ∈ reach read range.1 range.2,
        other va = read va) →
      indices.mapM (readExecArg other ptrs lens) = indices.mapM (readExecArg read ptrs lens)
  | [], _ => rfl
  | i :: rest, agrees => by
    rw [List.mapM_cons, List.mapM_cons]
    unfold execRanges at agrees
    -- One argument has a pointer, a length and a text, and each of them is read or faults.
    have ptrRead := readU64_reach faults (agrees _ List.mem_cons_self)
    unfold readExecArg
    rw [ptrRead]
    cases hasPtr : readU64 read (ptrs.toNat + 8 * i) with
    | none => rfl
    | some ptr =>
      rw [hasPtr] at agrees
      have lenRead := readU64_reach faults (agrees _ (.tail _ List.mem_cons_self))
      rw [lenRead]
      cases hasLen : readU64 read (lens.toNat + 8 * i) with
      | none => rfl
      | some len =>
        rw [hasLen] at agrees
        dsimp only at agrees ⊢
        split_ifs at agrees ⊢ with refused
        · rfl
        · have textRead :=
            readSlice_reach faults (agrees _ (.tail _ (.tail _ List.mem_cons_self)))
          rw [textRead]
          cases hasText : readSlice read ptr.toNat len.toNat with
          | none => rfl
          | some bytes =>
            -- The later arguments are read in the same way.
            rw [hasText] at agrees
            have others := readExecArg_mapM faults rest fun range member =>
              agrees range (.tail _ (.tail _ (.tail _ member)))
            unfold readExecArg at others
            rw [others]

end Reads

section Isolated

variable {k : Kernel} {ctx : ExceptionContext} {start length : Nat}

/-- Between the two halves of the address space there is no memory. -/
theorem Kernel.loadByte_between (k : Kernel) (ttbr0 : UInt64) {va : Nat} (above : 2 ^ 39 ≤ va)
    (below : va < 0xffffff8000000000) : k.loadByte ttbr0 va = none := by
  unfold Kernel.loadByte
  rw [if_neg (Nat.not_lt.mpr above), if_pos below]

/-- A range stays in the half of the programs unless it starts in the memory of the kernel. -/
theorem Kernel.reach_low_iff (k : Kernel) (ctx : ExceptionContext) (start length : Nat) :
    (∀ va ∈ reach (k.loadByte ctx.ttbr0) start length, va < 2 ^ 39) ↔
      length = 0 ∨ ¬ k.InKernelHalf ctx start := by
  -- A range that starts in the kernel's half touches its first byte, and others stay below it.
  constructor
  · intro low
    refine or_iff_not_imp_left.mpr fun proper inKernel => ?_
    have first : start ∈ reach (k.loadByte ctx.ttbr0) start length := by
      refine mem_reach.mpr ⟨0, by omega, rfl, fun j small => ?_⟩
      rw [Nat.le_zero.mp small]
      exact inKernel.2
    have small := low start first
    have high := inKernel.1
    omega
  · intro harmless va member
    obtain ⟨i, inside, rfl, before⟩ := mem_reach.mp member
    by_contra high
    have mapped := before 0 (Nat.zero_le i)
    rw [Nat.add_zero] at mapped
    -- The range starts in the half of the programs, and faults where that half ends.
    have low : start < 2 ^ 39 := by
      by_contra above
      rcases harmless with rfl | notKernel
      · cases inside
      · rcases Nat.lt_or_ge start 0xffffff8000000000 with below | inKernel
        · rw [k.loadByte_between ctx.ttbr0 (Nat.not_lt.mp above) below] at mapped
          cases mapped
        · exact notKernel ⟨inKernel, mapped⟩
    have fault := before (2 ^ 39 - start) (by omega)
    rw [Nat.add_sub_cancel' (Nat.le_of_lt low),
      k.loadByte_between ctx.ttbr0 (Nat.le_refl _) (by decide)] at fault
    cases fault

/-- What is touched below the kernel's half is mapped by the table of the caller. -/
theorem Kernel.mapped_low {ttbr0 : UInt64} {va : Nat} (low : va < 2 ^ 39)
    (mapped : (k.loadByte ttbr0 va).isSome = true) :
    (ttbr0ToPa k.alloc.mem va ttbr0.toNat).isSome = true := by
  rw [Kernel.loadByte, if_pos low, Option.isSome_map] at mapped
  exact mapped

/-- The kernel finds the same there as the process does. -/
theorem Kernel.loadUser_low {ttbr0 : UInt64} {va : Nat} (low : va < 2 ^ 39) :
    k.loadUser ttbr0 va = k.loadByte ttbr0 va := by
  rw [Kernel.loadUser, Kernel.loadByte, if_pos low, if_pos low]

/-- Where the kernel faults, the process does. -/
theorem Kernel.loadUser_none (k : Kernel) (ttbr0 : UInt64) (va : Nat)
    (faults : k.loadByte ttbr0 va = none) : k.loadUser ttbr0 va = none := by
  rcases Nat.lt_or_ge va (2 ^ 39) with low | high
  · rw [Kernel.loadUser_low low]
    exact faults
  · rw [Kernel.loadUser, if_neg (Nat.not_lt.mpr high)]

/-- What a handler that is isolated makes of its arguments comes from the pages of its caller. -/
theorem Kernel.Isolated.readsArgs (isolated : k.Isolated ctx) (isExec : ctx.IsSyscall 5) :
    readExecArgs (k.loadUser ctx.ttbr0) (ctx.x.get 0) (ctx.x.get 1) (ctx.x.get 2) =
      readExecArgs (k.loadByte ctx.ttbr0) (ctx.x.get 0) (ctx.x.get 1) (ctx.x.get 2) := by
  unfold readExecArgs
  split_ifs with refused
  · rfl
  · have agrees : ∀ range ∈ execRanges (k.loadByte ctx.ttbr0) (ctx.x.get 0) (ctx.x.get 1)
        (List.range (ctx.x.get 2).toNat), ∀ va ∈ reach (k.loadByte ctx.ttbr0) range.1 range.2,
        k.loadUser ctx.ttbr0 va = k.loadByte ctx.ttbr0 va := by
      intro range member va reached
      have touched : va ∈ k.touches ctx := by
        refine List.mem_flatMap.mpr ⟨range, ?_, reached⟩
        rw [Kernel.ranges, isExec.immediate]
        exact (if_neg refused).symm ▸ member
      exact Kernel.loadUser_low (isolated va touched).1
    rw [readExecArg_mapM (k.loadUser_none ctx.ttbr0) _ agrees]

/--
A handler touches nothing but the pages of its caller exactly if it follows no pointer into the
memory of the kernel.
-/
theorem Kernel.isolated_iff (k : Kernel) (ctx : ExceptionContext) :
    k.Isolated ctx ↔
      ∀ range ∈ k.ranges ctx, range.2 = 0 ∨ ¬ k.InKernelHalf ctx range.1 := by
  constructor
  · intro isolated range member
    refine (k.reach_low_iff ctx range.1 range.2).mp fun va reached => (isolated va ?_).1
    exact List.mem_flatMap.mpr ⟨range, member, reached⟩
  · intro harmless va touched
    obtain ⟨range, member, reached⟩ := List.mem_flatMap.mp touched
    have low := (k.reach_low_iff ctx range.1 range.2).mpr (harmless range member) va reached
    obtain ⟨i, -, rfl, before⟩ := mem_reach.mp reached
    exact ⟨low, Kernel.mapped_low low (before i (Nat.le_refl i))⟩

/-- A program that prints what is at the start of the kernel's half has the kernel's memory read. -/
theorem isolated_counterexample :
    ∃ (m : Machine) (frame : ExceptionContext) (mid : Kernel) (self : Process),
      m.Reachable wordsFiles ∧ m.control = .user frame ∧
      (frame.calling 1 (argumentRegisters 0xffffff8000000000 1 0)).IsSyscall 1 ∧
      m.kernel.entered ⟨false, false, false⟩
        (frame.calling 1 (argumentRegisters 0xffffff8000000000 1 0)) = .ok mid ∧
      mid.getCurrentProcess = some self ∧
      ¬ mid.Isolated (frame.calling 1 (argumentRegisters 0xffffff8000000000 1 0)) := by
  obtain ⟨m, frame, reached, running⟩ := wordsFiles_runs
  -- The call prints one byte at the lowest address of the kernel's half.
  have isPrint := frame.isSyscall_calling 1 (by decide) (argumentRegisters 0xffffff8000000000 1 0)
  obtain ⟨self, mid, traps, -⟩ :=
    reached.valid.calls running isPrint rfl rfl wordsFiles ⟨false, false, false⟩
  refine ⟨m, frame, mid, _, reached, running, isPrint, traps.entry, traps.entered.runs.current, ?_⟩
  -- The byte that is touched is not one of the caller's.
  intro isolated
  have touched : 0xffffff8000000000 ∈
      mid.touches (frame.calling 1 (argumentRegisters 0xffffff8000000000 1 0)) := by
    refine List.mem_flatMap.mpr ⟨(0xffffff8000000000, 1), ?_, ?_⟩
    · rw [Kernel.ranges, isPrint.immediate]
      exact List.mem_singleton.mpr rfl
    · refine mem_reach.mpr ⟨0, by decide, rfl, fun j small => ?_⟩
      rw [Nat.le_zero.mp small]
      rfl
  exact absurd (isolated _ touched).1 (by decide)

end Isolated

end AtOS
