import AtOS.Loader.Returning
import AtOS.Processes.Effects
import AtOS.Processes.Starting

/-! What a failed spawn leaves behind: most of its errors keep a frame or a kernel stack. -/

namespace AtOS

open ByteMemory RadixForest SlotTable

/-- The frames of the free list. -/
def PageAllocator.freeFrames (alloc : PageAllocator) : Set Nat :=
  { pa | ∃ free, FreeChain alloc.mem alloc.freeFrameList free ∧ (∀ pa ∈ free, IsFrame pa) ∧
    pa ∈ free }

/-- The same frames are free, and the tables of the kernel are as they were. -/
structure Kernel.Unleaked (k after : Kernel) : Prop where
  frames : after.alloc.freeFrames = k.alloc.freeFrames
  kernelStacks : after.kernelStacks = k.kernelStacks
  processTable : after.processTable = k.processTable

/-- `alloc_stack` has no slot for a pid: it has one already, or none is free. -/
def Kernel.NoStackFor (k : Kernel) (pid : UInt64) : Prop :=
  (k.getActiveStackIndex pid).isSome ∨ ∀ stack, k.kernelStacks stack ≠ .free

/-- The spawns that fail on the header, or on the kernel stack after a segment has been loaded. -/
def Kernel.RefusesSpawn (k : Kernel) (bytes : List UInt8) : Prop :=
  ∀ header, Elf64Hdr.mkfrombytes bytes = some header →
    header.loaded bytes ≠ [] ∧ k.NoStackFor k.nextPid

/-- No zeroing of the segments of a file leaves its page. -/
def ElfStaysInside (bytes : List UInt8) : Prop :=
  ∀ header, Elf64Hdr.mkfrombytes bytes = some header → ∀ ph ∈ header.loaded bytes, ph.StaysInside

/--
The spawns that fail so that nothing stays behind.

What has been loaded by then is freed again, and can be if no zeroing has cleared another frame.
-/
def Kernel.ReleasesSpawn (k : Kernel) (managed : Set Nat) (bytes : List UInt8) : Prop :=
  k.RefusesSpawn bytes ∧ (ElfStaysInside bytes ∨ Spaced managed)

section Frames

variable {alloc after : PageAllocator} {roots managed : Set Nat} {free : List Nat}

/-- A link leads to one list of frames only. -/
theorem FreeChain.unique {mem : Mem} {link : FreeLink} {free other : List Nat}
    (chain : FreeChain mem link free) (frames : ∀ pa ∈ free, IsFrame pa)
    (chainOther : FreeChain mem link other) (framesOther : ∀ pa ∈ other, IsFrame pa) :
    free = other := by
  -- The induction is on the list. The tags tell the two links apart, and the pointers the frames.
  induction free generalizing link other with
  | nil =>
    cases other with
    | nil => rfl
    | cons pa other =>
      have tag := chain.1
      rw [chainOther.1] at tag
      cases tag
  | cons pa free ih =>
    cases other with
    | nil =>
      have tag := chainOther.1
      rw [chain.1] at tag
      cases tag
    | cons pa' other =>
      have pointers := congrArg FreeLink.ptr (chain.1.symm.trans chainOther.1)
      dsimp only at pointers
      have same : pa = pa' := by
        have back := congrArg ttbr1ToPa pointers
        rwa [ttbr1ToPa_ttbr1ToVa (frames pa List.mem_cons_self).2,
          ttbr1ToPa_ttbr1ToVa (framesOther pa' List.mem_cons_self).2] at back
      subst same
      rw [ih chain.2.2 (fun pa member => frames pa (List.mem_cons_of_mem _ member)) chainOther.2.2
        fun pa member => framesOther pa (List.mem_cons_of_mem _ member)]

/-- The kernel's own view of the free frames is the list that owns them. -/
theorem Owned.mem_freeFrames (owned : Owned alloc roots free managed) (pa : Nat) :
    pa ∈ alloc.freeFrames ↔ pa ∈ free := by
  constructor
  · rintro ⟨other, chain, frames, member⟩
    rwa [owned.chain.unique (fun _ => owned.free_frame) chain frames]
  · exact fun member => ⟨free, owned.chain, fun _ => owned.free_frame, member⟩

/-- Freeing a new address space gives back all that its building took. -/
theorem BuildsOn.freed {root : Nat} (owned : Owned alloc roots free managed)
    (building : BuildsOn alloc after roots managed root) :
    (freePageTable root after).freeFrames = alloc.freeFrames := by
  obtain ⟨rest, building⟩ := building
  obtain ⟨freed, gone⟩ := freePageTable_spec building.owned building.live
  have ownedAfter := gone.owned
  have others := gone.kept_others building.owned building.live
  rw [building.others] at ownedAfter others
  have kept := building.kept.trans others
  ext pa
  rw [owned.mem_freeFrames, ownedAfter.mem_freeFrames]
  exact owned.free_iff ownedAfter (fun owner live => kept.nodes live) pa

/-- A frame that has been popped is not free any more. -/
theorem Owned.popped_leaks {root : Nat} (owned : Owned alloc roots free managed)
    (pop : getFreeFramePa alloc = some (root, after)) : after.freeFrames ≠ alloc.freeFrames := by
  cases free with
  | nil =>
    rw [owned.pop_nil] at pop
    cases pop
  | cons first rest =>
    obtain ⟨popped, popFirst, -, -, -, adopted, -⟩ := owned.newRoot
    rw [popFirst, Option.some.injEq, Prod.mk.injEq] at pop
    obtain ⟨rfl, rfl⟩ := pop
    intro same
    have still : first ∈ rest := by
      rw [← adopted.mem_freeFrames, same, owned.mem_freeFrames]
      exact List.mem_cons_self
    exact (List.nodup_cons.mp owned.nodup).1 still

end Frames

section Spawn

variable {k after : Kernel} {name error : String} {parentPid : UInt64} {bytes : List UInt8}
  {args : List String} {roots managed : Set Nat} {free : List Nat}

/-- How a spawn fails, and what it has changed by then. -/
inductive Kernel.SpawnFailed (k : Kernel) (bytes : List UInt8) (after : Kernel) : Prop
  | refused {alloc : PageAllocator} (refused : LoadRefused k.alloc bytes alloc)
      (same : after = { k with alloc })
  /-- The new address space is freed again. -/
  | noStack {entryPoint stackTop root : Nat} {alloc : PageAllocator}
      (loaded : loadElf bytes k.alloc = .ok (.ok (entryPoint, stackTop, root), alloc))
      (noStack : k.NoStackFor k.nextPid)
      (same : after = { k with nextPid := k.nextPid + 1, alloc := freePageTable root alloc })
  /-- The arguments do not fit, or the process table is full: the kernel stack stays allocated. -/
  | late {stack : Fin maxProcesses} (inactive : k.getActiveStackIndex k.nextPid = none)
      (free : k.kernelStacks stack = .free) (valid : Elf64Hdr.mkfrombytes bytes ≠ none)
      (kept : after.kernelStacks = Function.update k.kernelStacks stack (.allocated k.nextPid))

/-- `Process::new` fails without a kernel stack, and has only counted the pid by then. -/
theorem Kernel.newProcess_error {entryPoint userSp ttbr0 : UInt64}
    (failed : k.newProcess name parentPid entryPoint userSp ttbr0 = .ok (.error error, after)) :
    k.NoStackFor k.nextPid ∧ after = { k with nextPid := k.nextPid + 1 } := by
  unfold Kernel.newProcess at failed
  split at failed
  · cases failed
  rename_i taken
  obtain ⟨-, rfl, rfl⟩ := Kernel.takePid_ok taken
  split at failed
  · cases failed
  · rename_i refused
    rw [Except.ok.injEq, Prod.mk.injEq] at failed
    obtain ⟨rfl, why⟩ := Kernel.allocStack_error refused
    exact ⟨why.imp id fun full => full.2.2, failed.2.symm⟩
  · rw [Except.ok.injEq, Prod.mk.injEq] at failed
    cases failed.1

/-- `Process::new` gives the process a slot that was free. -/
theorem Kernel.newProcess_stack {entryPoint userSp ttbr0 : UInt64} {process : Process}
    (done : k.newProcess name parentPid entryPoint userSp ttbr0 = .ok (.ok process, after)) :
    ∃ stack, k.getActiveStackIndex k.nextPid = none ∧ k.kernelStacks stack = .free ∧
      after.kernelStacks = Function.update k.kernelStacks stack (.allocated k.nextPid) := by
  unfold Kernel.newProcess at done
  split at done
  · cases done
  rename_i taken
  obtain ⟨-, rfl, rfl⟩ := Kernel.takePid_ok taken
  split at done
  · cases done
  · cases done
  rename_i allocated
  rw [Except.ok.injEq, Prod.mk.injEq] at done
  obtain ⟨stack, allocated⟩ := Kernel.allocStack_ok allocated
  rw [← done.2]
  exact ⟨stack, allocated.inactive, allocated.free, allocated.kernelStacks⟩

/-- The ways in which a spawn fails. -/
theorem Kernel.spawnFromElf_error
    (failed : k.spawnFromElf name parentPid bytes args = .ok (.error error, after)) :
    k.SpawnFailed bytes after := by
  -- The three parts of the call may fail one after another.
  unfold Kernel.spawnFromElf Kernel.withAlloc at failed
  cases result : loadElf bytes k.alloc with
  | error panic =>
    rw [result] at failed
    cases failed
  | ok result' =>
    obtain ⟨value, alloc⟩ := result'
    rw [result] at failed
    cases value with
    | error message =>
      dsimp only at failed
      rw [Except.ok.injEq, Prod.mk.injEq] at failed
      exact .refused (loadElf_error result) failed.2.symm
    | ok value =>
      obtain ⟨entryPoint, stackTop, root⟩ := value
      dsimp only at failed
      split at failed
      · -- The new process is refused before anything else is taken.
        cases failed
      · rename_i refused
        rw [Except.ok.injEq, Prod.mk.injEq] at failed
        obtain ⟨noStack, rfl⟩ := Kernel.newProcess_error refused
        exact .noStack result noStack failed.2.symm
      · -- A process that was made has a stack, and it keeps it after a later failure.
        rename_i process created new
        obtain ⟨stack, inactive, vacant, given⟩ := Kernel.newProcess_stack new
        obtain ⟨header, verified, -⟩ := loadElf_ok result
        have valid : Elf64Hdr.mkfrombytes bytes ≠ none := by simp [verified]
        refine .late inactive vacant valid ?_
        split at failed
        · rw [Except.ok.injEq, Prod.mk.injEq] at failed
          rw [← failed.2]
          exact given
        · split at failed
          · rw [Except.ok.injEq, Prod.mk.injEq] at failed
            rw [← failed.2]
            exact given
          · cases failed

/-- A failed spawn leaves nothing behind only if the header is refused or there is no stack. -/
theorem Kernel.SpawnFailed.refuses (failed : k.SpawnFailed bytes after)
    (owned : Owned k.alloc roots free managed) (unleaked : k.Unleaked after) :
    k.RefusesSpawn bytes := by
  intro header verified
  cases failed with
  | refused refused same =>
    subst same
    cases refused with
    | header invalid =>
      rw [verified] at invalid
      cases invalid
    | noSegments _ _ popped =>
      -- The frame of the root has been popped, and is not given back.
      exact absurd unleaked.frames (owned.popped_leaks popped)
  | noStack loaded noStack =>
    obtain ⟨found, valid, segments, -⟩ := loadElf_ok loaded
    rw [verified, Option.some.injEq] at valid
    exact ⟨valid ▸ segments, noStack⟩
  | @late stack inactive vacant valid kept =>
    -- The slot was free, and now belongs to a pid that no process has.
    have same := congrFun unleaked.kernelStacks stack
    rw [kept, Function.update_self, vacant] at same
    cases same

/-- In these cases it leaves nothing behind, if no zeroing of a segment meets another frame. -/
theorem Kernel.SpawnFailed.releases (failed : k.SpawnFailed bytes after)
    (owned : Owned k.alloc roots free managed) (releases : k.ReleasesSpawn managed bytes) :
    k.Unleaked after := by
  -- Only the first kind of failure leaves the pool as it was. The others do so under the condition.
  obtain ⟨refuses, safe⟩ := releases
  cases failed with
  | refused refused same =>
    subst same
    cases refused with
    | header invalid same =>
      subst same
      exact ⟨rfl, rfl, rfl⟩
    | noSegments verified noneLoaded _ => exact absurd noneLoaded (refuses _ verified).1
  -- A refused stack frees the whole address space again.
  | noStack loaded noStack same =>
    subst same
    obtain ⟨header, verified, segments, builds⟩ := loadElf_ok loaded
    have building := builds owned (safe.imp_left fun inside => inside header verified)
    exact ⟨building.freed owned, rfl, rfl⟩
  | @late stack inactive vacant valid kept =>
    obtain ⟨header, verified⟩ := Option.ne_none_iff_exists'.mp valid
    -- There was a stack for the new process.
    rcases (refuses header verified).2 with active | full
    · rw [inactive] at active
      cases active
    · exact absurd vacant (full stack)

/--
A failed spawn leaves nothing behind if the header is refused, or there is no kernel stack.

In the second case no zeroing may have met another frame. Up to that, these are the only cases.
-/
theorem spawnFromElf_unleaked_iff (owned : Owned k.alloc roots free managed)
    (failed : k.spawnFromElf name parentPid bytes args = .ok (.error error, after)) :
    (k.ReleasesSpawn managed bytes → k.Unleaked after) ∧
    (k.Unleaked after → k.RefusesSpawn bytes) ∧
    (ElfStaysInside bytes ∨ Spaced managed → (k.Unleaked after ↔ k.RefusesSpawn bytes)) := by
  have spawnFailed := Kernel.spawnFromElf_error failed
  have releases := spawnFailed.releases owned
  have refuses := spawnFailed.refuses owned
  exact ⟨releases, refuses, fun safe => ⟨refuses, fun refused => releases ⟨refused, safe⟩⟩⟩

/-- No segment of the small program is zeroed at all. -/
theorem wordsElf_staysInside : ElfStaysInside wordsElf := by
  intro header verified ph listed
  obtain rfl : header = wordsHeader :=
    Option.some.inj (verified.symm.trans wordsElf_wellFormed.verified)
  have loaded : wordsHeader.loaded wordsElf = [wordsSegment] := by decide +kernel
  rw [loaded, List.mem_singleton] at listed
  subst listed
  exact fun more => absurd more (by decide)

/-- So no file of its disk is. -/
theorem wordsFiles_staysInside (path : String) (bytes : List UInt8)
    (file : wordsFiles path = some bytes) : ElfStaysInside bytes := by
  cases file
  exact wordsElf_staysInside

/-- The kernel of the small program with no kernel stack left. -/
def stacklessStart : Kernel := { wordsStart with kernelStacks := fun _ => .allocated 77 }

/-- `alloc_stack` gives out no slot when another process has them all. -/
theorem Kernel.allocStack_full {pid other : UInt64} (distinct : other ≠ pid)
    (full : k.kernelStacks = fun _ => .allocated other) :
    k.allocStack pid = .ok (.error "[alloc_stack] No available kernel stacks", k) := by
  have inactive : k.getActiveStackIndex pid = none := by
    refine Kernel.getActiveStackIndex_none.mpr fun stack same => ?_
    rw [full, StackState.allocated.injEq] at same
    exact distinct same
  have noneFree : ((List.finRange maxProcesses).find? fun stack =>
      k.kernelStacks stack == .free) = none := by
    refine List.find?_eq_none.mpr fun stack _ => ?_
    rw [full]
    simp
  unfold Kernel.allocStack
  rw [inactive, noneFree]
  rfl

/-- Every slot of the kernel stacks is taken, so no spawn is refused for want of one. -/
theorem stacklessStart_refuses : stacklessStart.RefusesSpawn wordsElf := by
  intro header verified
  obtain rfl : header = wordsHeader :=
    Option.some.inj (verified.symm.trans wordsElf_wellFormed.verified)
  exact ⟨by decide +kernel, Or.inr fun stack => StackState.noConfusion⟩

/-- Without a kernel stack, the small program is loaded and freed again. -/
theorem spawnFromElf_unleaked_iff_stackless : ∃ (error : String) (after : Kernel),
    stacklessStart.spawnFromElf "init" 0 wordsElf [] = .ok (.error error, after) ∧
      after.nextPid = 2 ∧ stacklessStart.RefusesSpawn wordsElf ∧ stacklessStart.Unleaked after := by
  -- The file loads, and the process is refused its stack.
  obtain ⟨free, owned, -⟩ := wordsStart_prepared.owned
  obtain ⟨root, loaded, loads⟩ := wordsStart_loads
  have failed : stacklessStart.spawnFromElf "init" 0 wordsElf [] =
      .ok (.error "[alloc_stack] No available kernel stacks",
        { stacklessStart with alloc := freePageTable root loaded, nextPid := 2 }) := by
    have loads : loadElf wordsElf stacklessStart.alloc = _ := loads
    have first : stacklessStart.nextPid = 1 := rfl
    have room : stacklessStart.nextPid.toNat + 1 < 2 ^ 64 := by
      rw [first]
      decide
    unfold Kernel.spawnFromElf Kernel.withAlloc Kernel.newProcess Kernel.takePid
    rw [loads]
    dsimp only
    rw [if_pos room]
    dsimp only
    rw [first, Kernel.allocStack_full (by decide : (77 : UInt64) ≠ 1) rfl]
    rfl
  -- The pool owns everything it owned before, so nothing is leaked.
  have owned : Owned stacklessStart.alloc _ free _ := owned
  have releases := (spawnFromElf_unleaked_iff owned failed).1
  exact ⟨_, _, failed, rfl, stacklessStart_refuses,
    releases ⟨stacklessStart_refuses, Or.inl wordsElf_staysInside⟩⟩

/-- A kernel with two frames and no process. -/
def twoFrameKernel : Kernel where
  alloc := twoFramePool.alloc
  processTable := fun _ => none
  nextPid := 1
  processTableLock := false
  currentProcess := ⟨0, by decide⟩
  currentPid := none
  kernelStacks := fun _ => .free
  kernelL1 := 0x80000
  mutexes := fun _ => ⟨false, false, none⟩
  log := []

/-- An ELF file that is a header only. -/
def headerOnlyElf : List UInt8 := [0x7F, 0x45, 0x4C, 0x46] ++ List.replicate 60 0

/-- A header of its own is a file that is checked and loads nothing. -/
theorem headerOnlyElf_verified :
    Elf64Hdr.mkfrombytes headerOnlyElf =
      some { magic := elfMagic, entry := 0, phoff := 0, phnum := 0 } := by
  decide

/-- The frames of the kernel with two frames are accounted for. -/
theorem twoFrameKernel_owned :
    ∃ free, Owned twoFrameKernel.alloc ∅ free
      (managedFrames 0xffffff8000000000 0xffffff8000002000) := by
  obtain ⟨free, conserved⟩ := twoFramePool_booted.conserved
  exact ⟨free, conserved.owned⟩

/-- Spawning a file without segments fails, and takes one of the two free frames for ever. -/
theorem spawnFromElf_leaks_counterexample : ∃ after,
    twoFrameKernel.spawnFromElf "init" 0 headerOnlyElf [] =
        .ok (.error "No loadable segments found in ELF file", after) ∧
      twoFrameKernel.alloc.freeFrameCount = 2 ∧ after.alloc.freeFrameCount = 1 ∧
      ¬ twoFrameKernel.Unleaked after := by
  obtain ⟨free, owned⟩ := twoFrameKernel_owned
  obtain ⟨popped, pop, count⟩ : ∃ popped,
      getFreeFramePa twoFrameKernel.alloc = some (0x1000, popped) ∧ popped.freeFrameCount = 1 :=
    ⟨_, rfl, rfl⟩
  refine ⟨{ twoFrameKernel with alloc := popped }, ?_, rfl, count, fun unleaked =>
    owned.popped_leaks pop unleaked.frames⟩
  unfold Kernel.spawnFromElf loadElf
  rw [headerOnlyElf_verified]
  simp only [pop]
  rfl

end Spawn

end AtOS
