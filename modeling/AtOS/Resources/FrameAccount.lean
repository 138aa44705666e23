import Mathlib.Data.Set.Card.Arithmetic
import AtOS.Loader.FrameTotal
import AtOS.Resources.Bystanders
import AtOS.Resources.StackCount

/-! Every frame of the pool is free, or a process's, or a kernel stack's: a run loses none. -/

namespace AtOS

open ByteMemory RadixForest SlotTable

/-- The frames that some address spaces have together. -/
def spaceFrames (mem : Mem) (roots : Set Nat) : Set Nat :=
  { pa | ∃ root ∈ roots, pa ∈ nodes (child mem) 3 root }

/-- The kernel stacks that are allocated, or queued and not yet freed. -/
def usedStacks (kernelStacks : Fin maxProcesses → StackState) : Finset (Fin maxProcesses) :=
  Finset.univ.filter fun stack => kernelStacks stack ≠ .free

section Balance

variable {alloc after : PageAllocator} {roots : Set Nat} {free rest : List Nat} {managed : Set Nat}
  {kernelL1 : Nat}

/-- Only finitely many frames can be accounted for. -/
theorem Owned.finite (owned : Owned alloc roots free managed) : managed.Finite := by
  refine (Set.finite_lt_nat (2 ^ 64)).subset fun pa member => ?_
  have small := (owned.frames pa member).2
  show pa < 2 ^ 64
  omega

/-- What is free and what the address spaces have is all there is. -/
theorem Owned.balance (owned : Owned alloc roots free managed) :
    free.length + (spaceFrames alloc.mem roots).ncard = managed.ncard := by
  have conserved : Pool.Conserved ⟨{ alloc with totalFrameCount := managed.ncard }, roots⟩ free
      managed := ⟨owned.withTotal _, rfl⟩
  have sum := conserved.sum owned.finite
  rw [← owned.count]
  exact sum

/-- The address space of the kernel is counted beside those of the programs. -/
theorem Owned.balance_kernel (owned : Owned alloc (insert kernelL1 roots) free managed)
    (apart : kernelL1 ∉ roots) :
    free.length + (nodes (child alloc.mem) 3 kernelL1).ncard + (spaceFrames alloc.mem roots).ncard =
      managed.ncard := by
  -- The frames are the kernel's or those of a program, and not both.
  have split : spaceFrames alloc.mem (insert kernelL1 roots) =
      nodes (child alloc.mem) 3 kernelL1 ∪ spaceFrames alloc.mem roots := by
    ext pa
    simp [spaceFrames]
  have disjoint : Disjoint (nodes (child alloc.mem) 3 kernelL1) (spaceFrames alloc.mem roots) := by
    rw [Set.disjoint_left]
    rintro pa inKernel ⟨root, live, inProgram⟩
    have distinct : root ≠ kernelL1 := fun same => apart (same ▸ live)
    exact (owned.node_apart (Set.mem_insert _ _) ⟨Set.mem_insert_of_mem _ live, distinct⟩
      inProgram).2.1 inKernel
  -- Both sets hold accounted frames only, and there are finitely many of those.
  have finiteKernel : (nodes (child alloc.mem) 3 kernelL1).Finite :=
    owned.finite.subset fun pa member => owned.node_managed (Set.mem_insert _ _) member
  have finitePrograms : (spaceFrames alloc.mem roots).Finite :=
    owned.finite.subset fun pa ⟨root, live, member⟩ =>
      owned.node_managed (Set.mem_insert_of_mem _ live) member
  rw [← owned.balance, split, Set.ncard_union_eq disjoint finiteKernel finitePrograms]
  omega

/-- Address spaces that are kept have the frames they had. -/
theorem Kept.spaceFrames {before after : Mem} (kept : Kept before after roots) :
    AtOS.spaceFrames after roots = AtOS.spaceFrames before roots := by
  ext pa
  constructor
  · rintro ⟨root, live, member⟩
    exact ⟨root, live, kept.nodes live ▸ member⟩
  · rintro ⟨root, live, member⟩
    exact ⟨root, live, (kept.nodes live).symm ▸ member⟩

/-- While the programs keep their frames, those of the kernel come from the free list. -/
theorem Owned.shifted (owned : Owned alloc (insert kernelL1 roots) free managed)
    (later : Owned after (insert kernelL1 roots) rest managed) (apart : kernelL1 ∉ roots)
    (kept : Kept alloc.mem after.mem roots) :
    (nodes (child after.mem) 3 kernelL1).ncard + rest.length =
      (nodes (child alloc.mem) 3 kernelL1).ncard + free.length := by
  have before := owned.balance_kernel apart
  have now := later.balance_kernel apart
  rw [kept.spaceFrames] at now
  omega

end Balance

section Slots

variable {kernelStacks : Fin maxProcesses → StackState} {stack : Fin maxProcesses}

/-- A stack that is not free is in use. -/
theorem mem_usedStacks : stack ∈ usedStacks kernelStacks ↔ kernelStacks stack ≠ .free := by
  simp [usedStacks]

/-- Stacks are in use when they are allocated or queued. -/
theorem Kernel.stacksInUse_eq (k : Kernel) : k.stacksInUse = usedStacks k.kernelStacks := by
  ext stack
  rw [Kernel.stacksInUse, Kernel.mem_stacksIn, mem_usedStacks]
  cases k.kernelStacks stack <;> simp [StackState.isAllocated, StackState.isQueued]

/-- A free slot that is given out is one more in use. -/
theorem usedStacks_allocated (vacant : kernelStacks stack = .free) {state : StackState}
    (inUse : state ≠ .free) :
    (usedStacks (Function.update kernelStacks stack state)).card =
      (usedStacks kernelStacks).card + 1 := by
  have grown : usedStacks (Function.update kernelStacks stack state) =
      insert stack (usedStacks kernelStacks) := by
    ext other
    rw [Finset.mem_insert, mem_usedStacks, mem_usedStacks, Function.update_apply]
    split
    · rename_i same
      simp [same, inUse]
    · rename_i distinct
      simp [distinct]
  rw [grown, Finset.card_insert_of_notMem]
  rw [mem_usedStacks]
  exact fun used => used vacant

/-- A slot that stays in use is counted as before. -/
theorem usedStacks_used (used : kernelStacks stack ≠ .free) {state : StackState}
    (still : state ≠ .free) :
    usedStacks (Function.update kernelStacks stack state) = usedStacks kernelStacks := by
  ext other
  rw [mem_usedStacks, mem_usedStacks, Function.update_apply]
  split
  · rename_i same
    simp [same, used, still]
  · rfl

/-- Each slot that is freed is one less in use. -/
theorem usedStacks_freed (kernelStacks : Fin maxProcesses → StackState) (current : UInt64) :
    (usedStacks fun stack => (kernelStacks stack).afterFreeing current).card +
        ((List.finRange maxProcesses).filter fun slot =>
          (kernelStacks slot).isFreeable current).length =
      (usedStacks kernelStacks).card := by
  -- The list of the slots that are freed has no slot twice.
  have count : ((List.finRange maxProcesses).filter fun slot =>
      (kernelStacks slot).isFreeable current).length =
        (Finset.univ.filter fun slot => (kernelStacks slot).isFreeable current = true).card := by
    rw [← List.toFinset_card_of_nodup ((List.nodup_finRange _).filter _)]
    congr 1
    ext slot
    simp
  -- Whatever was used before is used still or is freed now.
  have split : usedStacks kernelStacks =
      (usedStacks fun stack => (kernelStacks stack).afterFreeing current) ∪
        Finset.univ.filter fun slot => (kernelStacks slot).isFreeable current = true := by
    ext slot
    rw [Finset.mem_union, mem_usedStacks, mem_usedStacks, Finset.mem_filter]
    cases kernelStacks slot with
    | queuedToFree pid =>
      by_cases same : pid = current <;> simp [StackState.afterFreeing, StackState.isFreeable, same]
    | _ => simp [StackState.afterFreeing, StackState.isFreeable]
  have disjoint : Disjoint (usedStacks fun stack => (kernelStacks stack).afterFreeing current)
      (Finset.univ.filter fun slot => (kernelStacks slot).isFreeable current = true) := by
    rw [Finset.disjoint_left]
    intro slot used freeable
    rw [mem_usedStacks] at used
    rw [Finset.mem_filter] at freeable
    cases state : kernelStacks slot with
    | queuedToFree pid =>
      by_cases same : pid = current <;>
        simp [StackState.afterFreeing, StackState.isFreeable, state, same] at used freeable
    | _ => simp [StackState.isFreeable, state] at freeable
  rw [split, Finset.card_union_of_disjoint disjoint, count]

end Slots

section Totals

variable {k next : Kernel}

/-- Mapping a stack's pages moves frames about without losing one. -/
theorem allocStackFrames_total {start kernelL1 : Nat} (pages : List Nat) : ∀ {alloc after : PageAllocator},
    allocStackFrames start kernelL1 pages alloc = .ok after →
      after.totalFrameCount = alloc.totalFrameCount := by
  induction pages with
  | nil =>
    intro alloc after done
    cases done
    rfl
  | cons page rest ih =>
    intro alloc after done
    rw [allocStackFrames] at done
    split at done
    · rename_i mapped
      exact (ih done).trans (allocPage_total mapped)
    · cases done

/-- Giving out a kernel stack leaves the pool as large as it is, -/
theorem Kernel.StackAllocated.total {pid top : UInt64} {stack : Fin maxProcesses}
    (allocated : k.StackAllocated pid top stack next) :
    next.alloc.totalFrameCount = k.alloc.totalFrameCount := by
  obtain ⟨alloc, pa, mapped, -, rfl⟩ := allocated.next_eq
  have same := allocStackFrames_total _ mapped
  exact same

/-- and so does copying one, -/
theorem copyStack_total {src dst length kernelL1 : Nat} {alloc after : PageAllocator}
    (done : copyStack src dst length kernelL1 alloc = .ok after) :
    after.totalFrameCount = alloc.totalFrameCount := by
  unfold copyStack copyToPages at done
  split at done
  · cases done
  · split at done
    · rename_i copied
      cases done
      exact congrArg (fun result : Except String Unit × PageAllocator => result.2.totalFrameCount)
        copied.symm
    · cases done

/-- and a whole `fork`. -/
theorem Kernel.forkProcess_total {roots : Set Nat} {free : List Nat} {managed : Set Nat}
    {process child : Process} (owned : Owned k.alloc roots free managed)
    (live : process.pctx.ttbr0.toNat ∈ roots)
    (inactive : ∀ stack, k.kernelStacks stack ≠ .allocated child.pid)
    (done : k.forkProcess process = .ok (.ok child, next)) :
    next.alloc.totalFrameCount = k.alloc.totalFrameCount := by
  obtain ⟨root, copy, takes⟩ := Kernel.forkProcess_takes done
  have outcome := duplicateVaSpace_spec owned live
  rw [takes.space] at outcome
  cases outcome with
  | done copied =>
    obtain ⟨used, rest, space⟩ := copied
    have none : Kernel.getActiveStackIndex { k with alloc := copy, nextPid := k.nextPid + 1 }
        child.pid = none := Kernel.getActiveStackIndex_none.mpr inactive
    obtain ⟨mid, top, stack, size, alloc, allocated, -, -, copies, rfl⟩ :=
      Kernel.duplicateStack_ok none takes.stack
    exact (copyStack_total copies).trans (allocated.total.trans space.total)

end Totals

section Handlers

variable {r after : Resources} {roots others : Set Nat} {free rest : List Nat} {managed : Set Nat}
  {own total : Nat}

/-- The kernel has some frames of its own, and six for each stack in use; the pool is complete. -/
structure Resources.Tallied (r : Resources) (own total : Nat) : Prop where
  kernel : (nodes (child r.alloc.mem) 3 r.kernelL1).ncard =
    own + 6 * (usedStacks r.kernelStacks).card
  total : r.alloc.totalFrameCount = total

/-- A change that keeps the address space of the kernel keeps the tally. -/
theorem Resources.Tallied.ofKept (tallied : r.Tallied own total)
    (kept : Kept r.alloc.mem after.alloc.mem {r.kernelL1}) (kernelL1 : after.kernelL1 = r.kernelL1)
    (used : usedStacks after.kernelStacks = usedStacks r.kernelStacks)
    (size : after.alloc.totalFrameCount = r.alloc.totalFrameCount) : after.Tallied own total := by
  constructor
  · rw [kernelL1, kept.nodes rfl, used]
    exact tallied.kernel
  · rw [size]
    exact tallied.total

/-- A change that keeps the programs does so when it takes six frames for each stack. -/
theorem Resources.Tallied.shifted (tallied : r.Tallied own total)
    (accounted : r.Accounted roots free managed) (later : after.Accounted roots rest managed)
    (kernelL1 : after.kernelL1 = r.kernelL1) (kept : Kept r.alloc.mem after.alloc.mem roots)
    (count : rest.length + 6 * (usedStacks after.kernelStacks).card =
      free.length + 6 * (usedStacks r.kernelStacks).card)
    (size : after.alloc.totalFrameCount = r.alloc.totalFrameCount) : after.Tallied own total := by
  have ownedLater := later.owned
  rw [kernelL1] at ownedLater
  have shift := accounted.owned.shifted ownedLater accounted.apart kept
  have before := tallied.kernel
  constructor
  · rw [kernelL1]
    omega
  · rw [size]
    exact tallied.total

variable {files : String → Option (List UInt8)} {k next mid : Kernel} {self child : Process}
  {inKernel : UInt64 → Bool} {ctx : ExceptionContext} {handled : Handled}

/-- `exit` touches no table of the kernel, and the stack of its process stays in use. -/
theorem Kernel.Runs.exited_tallied (runs : k.Runs inKernel self)
    (sound : k.resources.Sound roots free managed) (tallied : k.resources.Tallied own total)
    {stack : Fin maxProcesses} (active : k.getActiveStackIndex self.pid = some stack)
    (resources : next.resources = { k.resources with
      alloc := freePageTable self.pctx.ttbr0.toNat k.alloc
      kernelStacks := Function.update k.kernelStacks stack (.queuedToFree self.pid)
      holding := Function.update k.resources.holding self.pid none }) :
    next.resources.Tallied own total := by
  have live : self.pctx.ttbr0.toNat ∈ roots := sound.assigned.live runs.holding
  obtain ⟨-, -, -, -, kept⟩ := sound.accounted.freeSpace live
  obtain ⟨freed, gone⟩ := freePageTable_spec sound.accounted.owned (Set.mem_insert_of_mem _ live)
  have here := Kernel.getActiveStackIndex_some active
  rw [resources]
  refine tallied.ofKept ?_ rfl ?_ gone.total
  · exact kept.mono (Set.singleton_subset_iff.mpr
      ⟨Set.mem_insert _ _, sound.accounted.ne_kernel live⟩)
  · exact usedStacks_used (by simp [here]) (by simp)

/-- `fork` takes six frames for the kernel stack of the child; the others are a program's. -/
theorem Kernel.Runs.forked_tallied (runs : k.Runs inKernel self)
    (sound : k.resources.Sound roots free managed) (tallied : k.resources.Tallied own total)
    {stack : Fin maxProcesses} (onTop : k.OnTop self stack)
    (forks : k.forkProcess self = .ok (.ok child, mid))
    (resources : next.resources = { mid.resources with
      holding := Function.update k.resources.holding child.pid (some child.pctx.holding) }) :
    next.resources.Tallied own total := by
  -- The parent's tables are live, and the child has no stack yet.
  have live : self.pctx.ttbr0.toNat ∈ roots := sound.assigned.live runs.holding
  have pid := (Kernel.forkProcess_ok forks).pid
  have inactive := runs.child_inactive sound.assigned.slots forks
  have size := Kernel.forkProcess_total sound.accounted.owned (Set.mem_insert_of_mem _ live) inactive
    forks
  obtain ⟨root, copy, used, taken, rest, owns⟩ :=
    Kernel.forkProcess_owns sound.accounted sound.assigned.slots onTop live (pid ▸ inactive) forks
  obtain ⟨-, -, copied⟩ := sound.accounted.copied owns.space k.nextPid
  obtain ⟨slot, vacant, given, -⟩ := owns.stack
  have kernelL1 : mid.kernelL1 = k.kernelL1 := by
    obtain ⟨_, _, rfl⟩ := (Kernel.forkProcess_ok forks).same
    rfl
  -- Copying the address space leaves the tally as it is; then the stack takes its six frames.
  have between : ({ k.resources with alloc := copy } : Resources).Tallied own total := by
    refine tallied.ofKept ?_ rfl rfl owns.space.total
    exact (owns.space.kept_all sound.accounted.owned).mono
      (Set.singleton_subset_iff.mpr (Set.mem_insert _ _))
  have after : mid.resources.Tallied own total := by
    refine between.shifted copied owns.accounted kernelL1 owns.kept ?_ (size.trans owns.space.total.symm)
    have grown := usedStacks_allocated vacant (show StackState.allocated child.pid ≠ .free by simp)
    have six := owns.six
    show rest.length + 6 * (usedStacks mid.kernelStacks).card =
      (taken ++ rest).length + 6 * (usedStacks k.kernelStacks).card
    rw [given, grown, List.length_append]
    omega
  rw [resources]
  exact ⟨after.kernel, after.total⟩

/-- `exec` gives back one address space and takes another; the old stack stays in use. -/
theorem Kernel.exec_tallied {bytes : List UInt8} {args : List String} {slot : Fin maxProcesses}
    (accounted : k.resources.Accounted roots free managed) (live : self.pctx.ttbr0.toNat ∈ roots)
    (loadsFresh : LoadsFresh bytes) (tallied : k.resources.Tallied own total)
    (done : k.exec slot self bytes args = .ok (.ok (), next)) : next.resources.Tallied own total := by
  cases Kernel.exec_ends done with
  | @withStack entry sp root alloc last old stack top mid _ pctx loads active allocated pushes =>
    have here := Kernel.getActiveStackIndex_some active
    obtain ⟨fresh, keptLoaded, left, loaded⟩ := accounted.loaded loadsFresh loads
    have distinct : root ≠ self.pctx.ttbr0.toNat := by
      rintro rfl
      exact fresh (Set.mem_insert_of_mem _ live)
    -- The new program is loaded,
    have afterLoad : ({ k.resources with alloc } : Resources).Tallied own total :=
      tallied.ofKept (keptLoaded.mono (Set.singleton_subset_iff.mpr (Set.mem_insert _ _))) rfl rfl
        (loadElf_total loads)
    -- the old one is given up,
    have liveLoaded := Set.mem_insert_of_mem root live
    obtain ⟨-, -, -, -, keptFreed⟩ := loaded.freeSpace liveLoaded
    obtain ⟨freed, gone⟩ :=
      freePageTable_spec loaded.owned (Set.mem_insert_of_mem k.kernelL1 liveLoaded)
    have afterGiving : (k.givenUp self old alloc).resources.Tallied own total :=
      afterLoad.ofKept (keptFreed.mono (Set.singleton_subset_iff.mpr
        ⟨Set.mem_insert _ _, loaded.ne_kernel liveLoaded⟩)) rfl
        (usedStacks_used (by simp [here]) (by simp)) gone.total
    -- another kernel stack is allocated,
    obtain ⟨frames, -, given, -⟩ := loaded.givenUp distinct live here
    obtain ⟨taken, rest, took⟩ := allocated.taken given
    have kernelL1 : mid.kernelL1 = k.kernelL1 := by
      obtain ⟨_, _, _, _, rfl⟩ := allocated.next_eq
      rfl
    have afterStack : mid.resources.Tallied own total := by
      refine afterGiving.shifted given took.accounted kernelL1 took.kept ?_ took.total
      have grown := usedStacks_allocated allocated.free (show StackState.allocated self.pid ≠ .free by simp)
      have six := took.six
      show rest.length + 6 * (usedStacks mid.kernelStacks).card =
        (frames ++ left).length + 6 * (usedStacks (k.givenUp self old alloc).kernelStacks).card
      rw [allocated.kernelStacks, grown, took.free_eq, List.length_append]
      omega
    -- and the arguments are pushed.
    have ownedLoaded : Owned alloc (insert k.kernelL1 (insert root roots)) left managed := loaded.owned
    have fits : (UInt64.ofNat root).toNat = root :=
      ownedLoaded.root_fits (Set.mem_insert_of_mem _ (Set.mem_insert _ _))
    have liveNew : (ProcessContext.new (UInt64.ofNat entry) (UInt64.ofNat sp) top
        (UInt64.ofNat root)).ttbr0.toNat ∈ insert root (roots \ {self.pctx.ttbr0.toNat}) := by
      show (UInt64.ofNat root).toNat ∈ _
      rw [fits]
      exact Set.mem_insert _ _
    obtain ⟨-, size, kept, -⟩ := initializeArgs_kept took.accounted.owned
      (Set.mem_insert_of_mem _ liveNew) pushes
    have afterPushing : ({ mid.resources with alloc := last } : Resources).Tallied own total :=
      afterStack.ofKept (kept.mono (Set.singleton_subset_iff.mpr
        ⟨Set.mem_insert _ _, took.accounted.ne_kernel liveNew⟩)) rfl rfl size
    exact ⟨afterPushing.kernel, afterPushing.total⟩

/-- A handler keeps the tally, if its `exec` does not fail. -/
theorem Kernel.Uses.tallied (uses : k.Uses files self ctx handled) (runs : k.Runs inKernel self)
    (sound : k.resources.Sound roots free managed) {stack : Fin maxProcesses}
    (onTop : k.OnTop self stack)
    (loadsFresh : ∀ path bytes, files path = some bytes → LoadsFresh bytes)
    (execsWell : k.ExecsWell files self ctx) (goesOn : handled.kernel = some next)
    (tallied : k.resources.Tallied own total) : next.resources.Tallied own total := by
  -- Three of the uses give out or take back frames. The others leave the tally alone.
  cases uses with
  | stopped unwraps => cases goesOn
  | returned same holding =>
    cases goesOn
    rw [same]
    exact tallied
  | scheduling lockHeld same =>
    cases goesOn
    rw [same]
    exact tallied
  | inSyscall =>
    cases goesOn
    exact tallied
  | exited isExit active resources =>
    cases goesOn
    exact runs.exited_tallied sound tallied active resources
  | forked isFork forks vacant next_eq resources =>
    cases goesOn
    exact runs.forked_tallied sound tallied onTop forks resources
  | executed isExec reads file executes entry resources =>
    cases goesOn
    rw [resources]
    exact Kernel.exec_tallied sound.accounted (sound.assigned.live runs.holding)
      (loadsFresh _ _ file) tallied executes
  | notExecuted isExec reads file fails => exact absurd fails (execsWell isExec reads file)

end Handlers

section Run

variable {files : String → Option (List UInt8)} {m after boot : Machine} {self : Process}
  {ctx : ExceptionContext} {devices : Devices} {mid start : Kernel} {handled : Handled}
  {action : Action} {roots : Set Nat} {free : List Nat} {managed : Set Nat}
  {own total first limit : Nat}

/-- Entering an exception frees stacks, six frames for each. -/
theorem Machine.Traps.entered_tallied (traps : m.Traps files self ctx devices mid handled)
    (owns : m.Owns roots free managed) (tallied : m.kernel.resources.Tallied own total) :
    mid.resources.Tallied own total := by
  -- Entering the kernel frees stacks, and each of them gives six frames back.
  obtain ⟨freed, freeing, resources⟩ := traps.runs.entered_resources traps.fromUser traps.entry
  obtain ⟨slots, -⟩ := traps.runs.entered_stacks traps.fromUser traps.entry
  obtain ⟨frames, frees⟩ :=
    Kernel.freeQueuedStacks_accounted traps.runs.current owns.sound.accounted freeing
  have kernelL1 : freed.kernelL1 = m.kernel.kernelL1 := by
    obtain ⟨alloc, result⟩ := Kernel.freeQueuedStacks_eq traps.runs.current
    rw [result, Except.ok.injEq] at freeing
    rw [← freeing]
  have sameSlots : freed.kernelStacks = mid.kernelStacks :=
    (congrArg Resources.kernelStacks resources).symm
  have after : freed.resources.Tallied own total := by
    refine tallied.shifted owns.sound.accounted frees.accounted kernelL1 frees.kept ?_ frees.total
    have fewer := usedStacks_freed m.kernel.kernelStacks self.pid
    have count := frees.length
    show (frames ++ free).length + 6 * (usedStacks freed.kernelStacks).card =
      free.length + 6 * (usedStacks m.kernel.kernelStacks).card
    rw [sameSlots, slots, List.length_append]
    omega
  rw [resources]
  exact ⟨after.kernel, after.total⟩

/-- A step that is no trap takes no frame. -/
theorem Machine.Rests.tallied (rests : m.Rests after) (owns : m.Owns roots free managed)
    (tallied : m.kernel.resources.Tallied own total) : after.kernel.resources.Tallied own total := by
  -- Memory is only written through a root, which is a program's or the kernel's.
  cases rests with
  | same resources =>
    rw [resources]
    exact tallied
  | saved goesOn resources =>
    rw [resources]
    exact ⟨tallied.kernel, tallied.total⟩
  | @stored root va byte owner resources =>
    have size : (m.kernel.storeByte root va byte).alloc.totalFrameCount =
        m.kernel.alloc.totalFrameCount := by
      unfold Kernel.storeByte
      split <;> rfl
    rw [resources]
    rcases owner with rfl | ⟨pid, now, goesOn, rfl⟩
    · -- The kernel stores a byte in its own pages, so the programs are kept.
      have kept := Kernel.storeByte_kept owns.sound.accounted.owned owns.sound.accounted.live va byte
      rw [owns.sound.accounted.programs] at kept
      exact tallied.shifted owns.sound.accounted
        (owns.sound.accounted.stored owns.sound.accounted.live va byte) rfl kept rfl size
    · -- A program stores a byte in its pages, so the kernel is kept.
      obtain ⟨held, holds, same⟩ := (owns.based goesOn).table
      have live := same ▸ owns.sound.assigned.live holds
      have kept := Kernel.storeByte_kept owns.sound.accounted.owned
        (Set.mem_insert_of_mem m.kernel.kernelL1 live) va byte
      refine tallied.ofKept (kept.mono (Set.singleton_subset_iff.mpr ?_)) rfl rfl size
      exact ⟨Set.mem_insert _ _, owns.sound.accounted.ne_kernel live⟩

/-- A step in which no `exec` fails keeps the tally. -/
theorem Machine.Outcome.tallied (outcome : m.Outcome files action (.ok after)) (valid : m.Valid)
    (loadsFresh : ∀ path bytes, files path = some bytes → LoadsFresh bytes)
    (execsWell : m.ExecsWell files action) (owns : m.Owns roots free managed)
    (tallied : m.kernel.resources.Tallied own total) : after.kernel.resources.Tallied own total := by
  by_cases trap : ∃ ctx devices, action = .trap ctx devices
  · obtain ⟨ctx, devices, rfl⟩ := trap
    obtain ⟨self, mid, handled, traps, done⟩ := outcome.traps
    obtain ⟨freed, sound, -⟩ := traps.sound owns
    obtain ⟨stack, onTop⟩ := traps.onTop owns
    exact traps.uses.tallied traps.entered.runs sound onTop loadsFresh
      (execsWell rfl traps.runs.current traps.entry) (Machine.after_kernel done.symm)
      (traps.entered_tallied owns tallied)
  · obtain ⟨-, rests⟩ := outcome.rests valid fun ctx devices same => trap ⟨ctx, devices, same⟩
    exact rests.tallied owns tallied

/-- At boot the kernel has its tables, the two that map kernel stacks, and six frames for `init`. -/
theorem Machine.Booted.tallied (booted : Machine.Booted files start boot)
    (prepared : start.Prepared first limit)
    (loadsFresh : ∀ path bytes, files path = some bytes → LoadsFresh bytes) :
    boot.kernel.resources.Tallied ((nodes (child start.alloc.mem) 3 start.kernelL1).ncard + 2)
      start.alloc.totalFrameCount := by
  -- At boot the image is built first, and it leaves the kernel's tables alone.
  have fresh := booted.fresh
  obtain ⟨k, init, frame, bytes, root, loaded, last, stack, mid, file, spawned, takes, rfl⟩ :=
    booted.takes
  obtain ⟨entry, sp, loads, top, allocated, pushes⟩ := takes.loads
  obtain ⟨free, owned, -⟩ := prepared.owned
  obtain ⟨newRoot, kept, rest, ownedLoaded⟩ := loadsFresh _ _ file _ _ _ _ _ _ _ _ owned loads
  have apart : start.kernelL1 ∉ ({root} : Set Nat) := fun same => newRoot (by simpa using same.symm)
  have sameNodes := kept.nodes rfl
  have unmapped : child loaded.mem start.kernelL1 (l1Index kernelStackRegionStart) = none := by
    rw [child_congr (kept.tables rfl start.kernelL1 ⟨[], by simp, rfl⟩)]
    exact prepared.unmapped
  rw [Set.pair_comm] at ownedLoaded
  -- The first kernel stack takes eight frames,
  obtain ⟨taken, left, table, free_eq, eight, step⟩ :=
    allocated.first ownedLoaded (Set.mem_insert _ _) unmapped
  have programs : insert start.kernelL1 {root} \ {start.kernelL1} = ({root} : Set Nat) :=
    Set.insert_sdiff_self_of_notMem apart
  have shift := ownedLoaded.shifted step.owned apart (programs ▸ step.kept)
  -- and the arguments of `init` are pushed into pages that it has.
  have liveRoot : root ∈ insert start.kernelL1 ({root} : Set Nat) := Set.mem_insert_of_mem _ rfl
  have fits : (UInt64.ofNat root).toNat = root := step.owned.root_fits liveRoot
  obtain ⟨-, size, keptPushed, -⟩ := initializeArgs_kept step.owned
    (show (ProcessContext.new (UInt64.ofNat entry) (UInt64.ofNat sp) top
      (UInt64.ofNat root)).ttbr0.toNat ∈ insert start.kernelL1 ({root} : Set Nat) from
        fits.symm ▸ liveRoot) pushes
  have liveKernel : start.kernelL1 ∈ insert start.kernelL1 ({root} : Set Nat) \
      {(ProcessContext.new (UInt64.ofNat entry) (UInt64.ofNat sp) top
        (UInt64.ofNat root)).ttbr0.toNat} := by
    refine ⟨Set.mem_insert _ _, ?_⟩
    show start.kernelL1 ∉ ({(UInt64.ofNat root).toNat} : Set Nat)
    rw [fits]
    exact apart
  have samePushed := keptPushed.nodes liveKernel
  -- One stack is in use, and its first page has brought two tables with it.
  constructor
  · show (nodes (child k.alloc.mem) 3 k.kernelL1).ncard =
      _ + 6 * (usedStacks k.kernelStacks).card
    have none : usedStacks start.kernelStacks = ∅ := by
      ext slot
      simp [mem_usedStacks, fresh.kernelStacks]
    have slots : k.kernelStacks = Function.update start.kernelStacks stack (.allocated 1) := by
      rw [takes.kernelStacks, allocated.kernelStacks, fresh.nextPid]
    have one := usedStacks_allocated (fresh.kernelStacks stack) (show StackState.allocated 1 ≠ .free by simp)
    rw [none, Finset.card_empty] at one
    rw [takes.alloc, takes.kernelL1, samePushed, slots, one]
    rw [sameNodes, free_eq, List.length_append] at shift
    omega
  · show k.alloc.totalFrameCount = _
    rw [takes.alloc]
    exact size.trans (allocated.total.trans (loadElf_total loads))

/-- A run in which no `exec` fails keeps the tally. -/
theorem Machine.Runs.tallied (run : Machine.Runs files (Machine.ExecsWell files) boot m)
    (booted : Machine.Booted files start boot) (prepared : start.Prepared first limit)
    (loadsFresh : ∀ path bytes, files path = some bytes → LoadsFresh bytes) :
    m.Valid ∧ ∃ roots free, m.Owns roots free (start.knownFrames first limit) ∧
      m.kernel.resources.Tallied ((nodes (child start.alloc.mem) 3 start.kernelL1).ncard + 2)
        start.alloc.totalFrameCount := by
  have booting := booted.tallied prepared loadsFresh
  obtain ⟨roots, free, owns⟩ := booted.owns prepared loadsFresh
  refine run.induction (motive := fun m => ∃ roots free,
    m.Owns roots free (start.knownFrames first limit) ∧ m.kernel.resources.Tallied _ _)
    booted.tree.1 ⟨roots, free, owns, booting⟩ ?_
  rintro before next action valid ⟨roots, free, owns, tallied⟩ execsWell outcome -
  have later := outcome.tallied valid loadsFresh execsWell owns tallied
  obtain ⟨rootsAfter, freeAfter, ownsAfter⟩ := outcome.owns valid loadsFresh execsWell owns
  exact ⟨rootsAfter, freeAfter, ownsAfter, later⟩

/-- The number of frames that the process in a slot has in its address space. -/
noncomputable def Kernel.framesOf (k : Kernel) (slot : Fin maxProcesses) : Nat :=
  match k.processTable slot with
  | some process => (nodes (child k.alloc.mem) 3 process.pctx.ttbr0.toNat).ncard
  | none => 0

/-- The address spaces that are alive are those of the processes that are alive. -/
theorem Resources.Sound.spaceFrames {k : Kernel} (sound : k.resources.Sound roots free managed)
    (distinct : Distinct k.processTable) :
    (AtOS.spaceFrames k.alloc.mem roots).ncard = ∑ slot ∈ k.living, k.framesOf slot := by
  have owned : Owned k.alloc (insert k.kernelL1 roots) free managed := sound.accounted.owned
  -- The frames of a slot are those below its process's root.
  let spaceOf (slot : Fin maxProcesses) : Set Nat :=
    { pa | ∃ process, k.processTable slot = some process ∧
      pa ∈ nodes (child k.alloc.mem) 3 process.pctx.ttbr0.toNat }
  have here : ∀ slot ∈ k.living, ∃ process, k.processTable slot = some process ∧
      process.state ≠ .terminated ∧ process.pctx.ttbr0.toNat ∈ roots ∧
      spaceOf slot = nodes (child k.alloc.mem) 3 process.pctx.ttbr0.toNat := by
    intro slot member
    rw [Kernel.living, Finset.mem_filter, Option.any_eq_true] at member
    obtain ⟨-, process, there, alive⟩ := member
    have alive : process.state ≠ .terminated := by simpa using alive
    refine ⟨process, there, alive, sound.assigned.live (Kernel.holding_slot distinct there alive), ?_⟩
    ext pa
    simp [spaceOf, there]
  -- Every root is that of a living process, so the union over the table is the union over the
  -- roots.
  have union : AtOS.spaceFrames k.alloc.mem roots = ⋃ slot ∈ (k.living : Set (Fin maxProcesses)),
      spaceOf slot := by
    ext pa
    simp only [Set.mem_iUnion, Finset.mem_coe]
    constructor
    · rintro ⟨root, live, member⟩
      obtain ⟨pid, held, holds, isRoot⟩ := sound.assigned.held root live
      obtain ⟨slot, process, there, -, alive, holding⟩ := Kernel.slot_of_holding holds
      refine ⟨slot, ?_, process, there, ?_⟩
      · simp [Kernel.living, there, alive]
      · have same : process.pctx.ttbr0 = held.ttbr0 := congrArg Holding.ttbr0 holding
        rw [same, isRoot]
        exact member
    · rintro ⟨slot, living, member⟩
      obtain ⟨process, -, -, live, isSpace⟩ := here slot living
      exact ⟨_, live, isSpace ▸ member⟩
  have finite : ∀ slot ∈ (k.living : Set (Fin maxProcesses)), (spaceOf slot).Finite := by
    intro slot living
    obtain ⟨process, -, -, live, isSpace⟩ := here slot living
    rw [isSpace]
    exact owned.finite.subset fun pa member => owned.node_managed (Set.mem_insert_of_mem _ live) member
  -- Two processes have no frame in common, since they do not have the same root.
  have disjoint : (k.living : Set (Fin maxProcesses)).PairwiseDisjoint spaceOf := by
    intro slot living other livingOther apart
    obtain ⟨process, there, alive, live, isSpace⟩ := here slot living
    obtain ⟨second, thereToo, aliveToo, liveToo, isSpaceToo⟩ := here other livingOther
    rw [Function.onFun, isSpace, isSpaceToo, Set.disjoint_left]
    refine fun pa => owned.separate.disjoint (Set.mem_insert_of_mem _ live)
      (Set.mem_insert_of_mem _ liveToo) fun same => ?_
    refine apart (distinct.slot_eq there thereToo (sound.assigned.alone
      (Kernel.holding_slot distinct there alive) (Kernel.holding_slot distinct thereToo aliveToo) ?_))
    exact UInt64.toNat_inj.mp same
  -- The sum over disjoint sets is what is left.
  rw [union, Set.Finite.ncard_biUnion (Finset.finite_toSet _) finite disjoint, finsum_mem_coe_finset]
  refine Finset.sum_congr rfl fun slot living => ?_
  obtain ⟨process, there, -, -, isSpace⟩ := here slot living
  rw [isSpace, Kernel.framesOf, there]

/-- Where everything is owned and tallied, the frames of the pool add up. -/
theorem Machine.Owns.framesBalance {roots : Set Nat} {free : List Nat}
    (owns : m.Owns roots free (start.knownFrames first limit)) (valid : m.Valid)
    (prepared : start.Prepared first limit)
    (tallied : m.kernel.resources.Tallied
      ((nodes (child start.alloc.mem) 3 start.kernelL1).ncard + 2) start.alloc.totalFrameCount) :
    m.kernel.alloc.freeFrameCount + ∑ slot ∈ m.kernel.living, m.kernel.framesOf slot +
        6 * m.kernel.stacksInUse.card + 2 = m.kernel.alloc.totalFrameCount ∧
      m.kernel.alloc.totalFrameCount = (managedFrames first limit).ncard := by
  obtain ⟨poolFree, conserved⟩ := prepared.pool.conserved
  -- The pool's own count and the tally have the same total.
  have pool : start.alloc.totalFrameCount = (managedFrames first limit).ncard := conserved.total
  have total : m.kernel.alloc.totalFrameCount = _ := tallied.total
  have kernel : (nodes (child m.kernel.alloc.mem) 3 m.kernel.kernelL1).ncard = _ := tallied.kernel
  have count : m.kernel.alloc.freeFrameCount = free.length := owns.sound.accounted.owned.count
  have balance : free.length + (nodes (child m.kernel.alloc.mem) 3 m.kernel.kernelL1).ncard +
      (AtOS.spaceFrames m.kernel.alloc.mem roots).ncard = _ :=
    owns.sound.accounted.owned.balance_kernel owns.sound.accounted.apart
  -- The frames that are known are those of the pool and those of the kernel's tables at boot.
  have finite : (managedFrames first limit ∪ nodes (child start.alloc.mem) 3 start.kernelL1).Finite :=
    owns.sound.accounted.owned.finite
  have known : (start.knownFrames first limit).ncard = (managedFrames first limit).ncard +
      (nodes (child start.alloc.mem) 3 start.kernelL1).ncard := by
    refine Set.ncard_union_eq ?_ (finite.subset Set.subset_union_left)
      (finite.subset Set.subset_union_right)
    exact Set.disjoint_right.mpr fun pa node => (prepared.outside pa node).2
  -- Free frames, address spaces, stacks and the kernel's own tables are all there is.
  have spaces := owns.sound.spaceFrames valid.distinct
  have used : (usedStacks m.kernel.resources.kernelStacks).card = m.kernel.stacksInUse.card := by
    rw [Kernel.stacksInUse_eq]
    rfl
  constructor
  · omega
  · rw [total, pool]

/--
In every run from boot in which no `exec` fails, the frames of the pool add up.

A frame is free, or in the address space of a process that is alive, or one of the six of a kernel
stack in use, or one of the two tables for those; and `total_memory` is what it was at boot.
-/
theorem Machine.Booted.framesAddUp (booted : Machine.Booted files start boot)
    (prepared : start.Prepared first limit)
    (loadsFresh : ∀ path bytes, files path = some bytes → LoadsFresh bytes)
    (run : Machine.Runs files (Machine.ExecsWell files) boot m) :
    m.kernel.alloc.freeFrameCount + ∑ slot ∈ m.kernel.living, m.kernel.framesOf slot +
        6 * m.kernel.stacksInUse.card + 2 = m.kernel.alloc.totalFrameCount ∧
      m.kernel.alloc.totalFrameCount = (managedFrames first limit).ncard := by
  obtain ⟨valid, roots, free, owns, tallied⟩ := run.tallied booted prepared loadsFresh
  exact owns.framesBalance valid prepared tallied

/-- The frames add up when the small program runs. -/
theorem framesAddUp_words : ∃ m frame, Machine.Reachable wordsFiles m ∧ m.control = .user frame ∧
    m.kernel.alloc.freeFrameCount + ∑ slot ∈ m.kernel.living, m.kernel.framesOf slot +
      6 * m.kernel.stacksInUse.card + 2 = m.kernel.alloc.totalFrameCount := by
  obtain ⟨boot, booted⟩ := wordsStart_boots
  obtain ⟨_, _, frame, step, running, -⟩ := booted.schedules
  have noExec : boot.ExecsWell wordsFiles (.schedule false) := fun same => nomatch same
  exact ⟨_, frame, ⟨_, boot, booted, .single ⟨_, trivial, step⟩⟩, running,
    (booted.framesAddUp wordsStart_prepared wordsFiles_loadsFresh
      (.single ⟨_, noExec, step⟩)).1⟩

end Run

end AtOS
