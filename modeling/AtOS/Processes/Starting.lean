import AtOS.Loader.LoadsFresh
import AtOS.Processes.ArgsRoundTrip
import AtOS.Processes.Boot
import AtOS.Processes.StackAllocation

/-! What boot finds, and that it reaches the first process when there are frames enough. -/

namespace AtOS

open ByteMemory RadixForest SlotTable

variable {files : String → Option (List UInt8)} {start k : Kernel} {m : Machine} {first limit : Nat}

/-- What `_rust_main` finds before `init`: a pool of frames, and outside of it the kernel's tables. -/
structure Kernel.Prepared (k : Kernel) (first limit : Nat) : Prop where
  pool : Pool.Booted first limit ⟨k.alloc, ∅⟩
  separate : Separate (child k.alloc.mem) 3 {k.kernelL1}
  outside : ∀ pa ∈ nodes (child k.alloc.mem) 3 k.kernelL1,
    IsFrame pa ∧ pa ∉ managedFrames first limit
  /-- The kernel's tables map the window onto the memory only. -/
  unmapped : child k.alloc.mem k.kernelL1 (l1Index kernelStackRegionStart) = none

/-- The frames of the pool and those of the kernel's own tables. -/
def Kernel.knownFrames (k : Kernel) (first limit : Nat) : Set Nat :=
  managedFrames first limit ∪ nodes (child k.alloc.mem) 3 k.kernelL1

/-- Before `init`, all frames of the pool are free, and only the kernel has an address space. -/
theorem Kernel.Prepared.owned (prepared : k.Prepared first limit) :
    ∃ free, Owned k.alloc {k.kernelL1} free (k.knownFrames first limit) ∧
      free.length = (managedFrames first limit).ncard := by
  -- The pool has built the free list, and the kernel's root is not one of its frames.
  obtain ⟨free, conserved⟩ := prepared.pool.conserved
  have owned : Owned k.alloc ∅ free (managedFrames first limit) := conserved.owned
  have exact : ∀ pa, pa ∈ free ↔ pa ∈ managedFrames first limit := by
    intro pa
    rw [owned.cover]
    simp
  -- The kernel's tree is the only one, and its frames lie outside the pool.
  refine ⟨free, ⟨owned.chain, owned.count, owned.nodup, ?_, prepared.separate, ?_, ?_⟩,
    length_of_nodup owned.nodup exact⟩
  · rintro pa (inside | node)
    · exact owned.frames pa inside
    · exact (prepared.outside pa node).1
  · rintro root rfl pa node listed
    exact (prepared.outside pa node).2 ((exact pa).mp listed)
  · intro pa
    rw [exact pa]
    simp [Kernel.knownFrames]

section Boots

variable {alloc after : PageAllocator} {roots : Set Nat} {free : List Nat} {managed : Set Nat}
  {bytes : List UInt8} {header : Elf64Hdr} {segments : List Elf64ProgHdr} {root : Nat}
  {spill : Set Nat} {taken rest : List Nat}

/-- The stack of an image is mapped below its top, which is aligned. -/
theorem ImageLoaded.stackMapped (image : ImageLoaded alloc after roots free managed bytes segments root
    spill taken rest) (wellFormed : ∀ ph ∈ segments, ph.WellFormed bytes) :
    StackMapped after.mem root (stackTopOf segments) := by
  -- The image ends below 2^39, and the stack's pages are above it.
  have low := @imageEnd_low segments bytes wellFormed 0 (by decide)
  constructor
  case aligned =>
    rw [stackTopOf]
    omega
  case room =>
    rw [stackTopOf, stackBufSize]
    omega
  case low => exact low
  case mapped =>
    intro va above below
    rw [stackBufSize] at above
    rw [ttbr0ToPa_isSome]
    have inMemory : va < 2 ^ 39 := Nat.lt_of_lt_of_le below low
    refine (image.loading.mapped va inMemory).mpr (Or.inr ?_)
    -- The 4096 bytes below the top lie in its first two pages.
    by_cases first : va / 4096 = (stackTopOf segments - 0 * 4096 - 1) / 4096
    · exact ⟨0, by decide, first⟩
    · refine ⟨1, by decide, ?_⟩
      rw [stackTopOf] at *
      omega

/-- A stack of a kept address space is still mapped. -/
theorem StackMapped.kept {before now : Mem} {sp : Nat} (stack : StackMapped before root sp)
    (kept : Kept before now roots) (live : root ∈ roots) : StackMapped now root sp := by
  refine ⟨stack.aligned, stack.room, stack.low, fun va above below => ?_⟩
  have mapped := stack.mapped va above below
  rw [ttbr0ToPa_isSome, leafOf] at mapped ⊢
  rw [kept.walk live (Nat.le_of_eq (pagePath_length va))]
  exact mapped

/-- Some `svc` of the kernel leaves such a frame. -/
theorem exists_sleepFrame : ∃ ctx, IsSleepFrame ctx ctx.ttbr0 :=
  ⟨⟨.sync, .el1h, Vector.replicate 31 0, 0, 0, 0x54000000, 0, 0, 0, 0⟩, rfl, rfl,
    ⟨by decide, by decide⟩, rfl⟩

/-- The arguments of `init` fit the buffer. -/
theorem bootArgs_fit : ∃ image sp, argsImage bootArgs = .ok (image, sp) := by
  have fits : (match argsImage bootArgs with
    | .ok _ => true
    | .error _ => false) = true := by decide
  cases pushing : argsImage bootArgs with
  | ok value => exact ⟨value.1, value.2, rfl⟩
  | error error =>
    rw [pushing] at fits
    cases fits

/-- A well-formed program is spawned as the first process when there are frames enough. -/
theorem Kernel.Prepared.spawns (prepared : start.Prepared first limit) (fresh : start.Fresh)
    (wellFormed : WellFormedElf bytes header)
    (contained : ∀ ph ∈ header.segments bytes, ph.Contained)
    (loads : header.segments bytes ≠ [])
    (enough : framesNeeded (header.segments bytes) + 8 ≤ start.alloc.freeFrameCount)
    (name : String) {args : List String} {image : Mem} {sp : Nat}
    (pushing : argsImage args = .ok (image, sp)) :
    ∃ k, start.spawnFromElf name 0 bytes args = .ok (.ok start.nextPid, k) := by
  -- Each of the three parts takes its frames from what the one before has left.
  obtain ⟨free, owned, -⟩ := prepared.owned
  have count : start.alloc.freeFrameCount = free.length := owned.count
  have outcome := loadElf_spec owned wellFormed (Or.inl contained)
  generalize loadsEq : loadElf bytes start.alloc = result at outcome
  cases outcome with
  | noSegments none => exact absurd none loads
  | outOfFrames few => omega
  | @loaded loaded root spill taken rest _ built =>
    have whole := congrArg List.length built.free_eq
    have few := built.few
    rw [List.length_cons, List.length_append] at whole
    have kept := built.kept_all owned
    have ownedLoaded : Owned loaded (insert root {start.kernelL1}) rest _ := built.loading.owned
    -- The image leaves the kernel's own tree alone.
    have unmapped : child loaded.mem start.kernelL1 (l1Index kernelStackRegionStart) = none := by
      rw [child_congr (kept.tables rfl start.kernelL1 ⟨[], by simp, rfl⟩)]
      exact prepared.unmapped
    -- The kernel stack comes from the frames that the image has left.
    obtain ⟨top, stack, mid, gives, allocated⟩ :=
      @Kernel.allocStack_first { start with alloc := loaded, nextPid := start.nextPid + 1 } _ _ _
        ownedLoaded (Set.mem_insert_of_mem _ rfl) unmapped fresh.kernelStacks (by omega) start.nextPid
    obtain ⟨used, left, table, -, -, step⟩ :=
      allocated.first ownedLoaded (Set.mem_insert_of_mem _ rfl) unmapped
    -- The user stack is still there, and takes the arguments.
    have distinct : root ∉ ({start.kernelL1} : Set Nat) := built.fresh
    have stays := (built.stackMapped wellFormed.segments.each).kept step.kept
      ⟨Set.mem_insert _ _, distinct⟩
    have low := stays.low
    have fits : (UInt64.ofNat root).toNat = root := by
      obtain ⟨-, small⟩ := ownedLoaded.node_frame (Set.mem_insert _ _) (root_mem_nodes root)
      rw [UInt64.toNat_ofNat', Nat.mod_eq_of_lt (by omega)]
    have fitsSp : (UInt64.ofNat (stackTopOf (header.segments bytes))).toNat =
        stackTopOf (header.segments bytes) := by
      rw [UInt64.toNat_ofNat', Nat.mod_eq_of_lt (by omega)]
    have live : (UInt64.ofNat root).toNat ∈ insert root ({start.kernelL1} : Set Nat) := by
      rw [fits]
      exact Set.mem_insert _ _
    have mapped : StackMapped mid.alloc.mem (UInt64.ofNat root).toNat
        (UInt64.ofNat (stackTopOf (header.segments bytes))).toNat := by
      rw [fits, fitsSp]
      exact stays
    obtain ⟨pushed, last, pushes⟩ := @initializeArgs_ok _ _ _ _
      (ProcessContext.new (UInt64.ofNat header.entry)
        (UInt64.ofNat (stackTopOf (header.segments bytes))) top (UInt64.ofNat root))
      step.owned live mapped _ _ _ pushing
    -- The child's slot is the first one, since the table is empty.
    obtain ⟨_, pa, -, -, same⟩ := allocated.next_eq
    have vacant : firstFree mid.processTable = some ⟨0, by decide⟩ := by
      have empty : mid.processTable = fun _ => none := by
        rw [same]
        exact funext fresh.table
      rw [empty]
      rfl
    have room : start.nextPid.toNat + 1 < 2 ^ 64 := by
      rw [fresh.nextPid]
      decide
    -- With all three in hand the call goes through.
    unfold Kernel.spawnFromElf Kernel.withAlloc Kernel.newProcess Kernel.takePid
    rw [loadsEq]
    dsimp only
    rw [if_pos room]
    dsimp only
    rw [gives]
    dsimp only
    rw [pushes]
    dsimp only [Kernel.addProcessToPtable]
    rw [vacant]
    exact ⟨_, rfl⟩

/-- Boot starts a well-formed `init` when there are frames enough. -/
theorem Kernel.Prepared.boots (prepared : start.Prepared first limit) (fresh : start.Fresh)
    (file : files "init" = some bytes) (wellFormed : WellFormedElf bytes header)
    (contained : ∀ ph ∈ header.segments bytes, ph.Contained)
    (loads : header.segments bytes ≠ [])
    (enough : framesNeeded (header.segments bytes) + 8 ≤ start.alloc.freeFrameCount) :
    ∃ m, Machine.Booted files start m := by
  obtain ⟨_, _, pushing⟩ := bootArgs_fit
  obtain ⟨k, spawns⟩ :=
    prepared.spawns fresh wellFormed contained loads enough "init" pushing
  obtain ⟨init, spawned⟩ := fresh.spawned spawns
  obtain ⟨ctx, isFrame⟩ := exists_sleepFrame
  refine ⟨⟨k, .scheduling ctx false, fun _ => none, fun _ => []⟩, fresh, bytes, k, start.nextPid,
    ⟨false, false, false⟩, ctx, file, spawns, isFrame, ?_⟩
  rw [spawned.firstException fresh files _ isFrame]
  rfl

end Boots

section Words

/-- Frames that are pushed leave the memory outside of them alone. -/
theorem pushedFrames_outside {address : Nat} : ∀ (frames : List Nat) (alloc : PageAllocator),
    (∀ pa ∈ frames, IsFrame pa) → (∀ pa ∈ frames, address ∉ frame pa) →
    ((frames.map ttbr1ToVa).foldl (fun alloc va => addFreeFrame va alloc) alloc).mem address =
      alloc.mem address := by
  intro frames
  induction frames with
  | nil => exact fun alloc _ _ => rfl
  | cons pa rest ih =>
    intro alloc isFrame outside
    rw [List.map_cons, List.foldl_cons,
      ih _ (fun other member => isFrame other (by simp [member]))
        (fun other member => outside other (by simp [member]))]
    exact addFreeFrame_outside alloc (isFrame pa (by simp)) (outside pa (by simp))

/-- A program of one page: 32 words, each of which is the address where they are loaded, 0x100. -/
def wordsElf : List UInt8 :=
  [0x7F, 0x45, 0x4C, 0x46, 2, 1, 1, 0, 0, 0, 0, 0, 0, 0, 0, 0,
    2, 0, 0xB7, 0, 1, 0, 0, 0, 0, 1, 0, 0, 0, 0, 0, 0,
    0x40, 0, 0, 0, 0, 0, 0, 0, 0, 0, 0, 0, 0, 0, 0, 0,
    0, 0, 0, 0, 0x40, 0, 0x38, 0, 1, 0, 0, 0, 0, 0, 0, 0,
    1, 0, 0, 0, 7, 0, 0, 0, 0x78, 0, 0, 0, 0, 0, 0, 0,
    0, 1, 0, 0, 0, 0, 0, 0, 0, 1, 0, 0, 0, 0, 0, 0,
    0, 1, 0, 0, 0, 0, 0, 0, 0, 1, 0, 0, 0, 0, 0, 0,
    0, 0x10, 0, 0, 0, 0, 0, 0] ++
  (List.replicate 32 [0, 1, 0, 0, 0, 0, 0, 0]).flatten

def wordsHeader : Elf64Hdr := { magic := elfMagic, entry := 0x100, phoff := 64, phnum := 1 }

def wordsSegment : Elf64ProgHdr :=
  { type := ptLoad, offset := 120, virtaddr := 0x100, filesize := 256, memsize := 256 }

set_option maxRecDepth 2000 in
/-- The file has 376 bytes. -/
theorem wordsElf_length : wordsElf.length = 376 := by simp [wordsElf]

/-- The file has one loadable segment. -/
theorem wordsElf_segments : wordsHeader.segments wordsElf = [wordsSegment] := by decide +kernel

/-- The file is a well-formed ELF file. -/
theorem wordsElf_wellFormed : WellFormedElf wordsElf wordsHeader := by
  refine ⟨by decide +kernel, by rw [wordsElf_length]; decide, by decide, ?_, ?_⟩
  · rw [wordsElf_segments]
    simp only [List.mem_singleton, forall_eq]
    exact ⟨by decide, by rw [wordsElf_length]; decide, by decide⟩
  · rw [wordsElf_segments]
    exact List.pairwise_singleton _ _

/-- The segment's bytes in the file fill its memory, so nothing is zeroed outside of it. -/
theorem wordsElf_contained : ∀ ph ∈ wordsHeader.segments wordsElf, ph.Contained := by
  rw [wordsElf_segments]
  simp only [List.mem_singleton, forall_eq]
  exact fun more => absurd more (by decide)

/-- Its image needs 46 frames, most of them for the user stack. -/
theorem wordsElf_framesNeeded : framesNeeded (wordsHeader.segments wordsElf) = 46 := by
  rw [wordsElf_segments]
  decide

/-- A disk on which every path leads to the program of one page. -/
def wordsFiles : String → Option (List UInt8) := fun _ => some wordsElf

/-- The program is loaded into fresh frames. -/
theorem wordsFiles_loadsFresh (path : String) (bytes : List UInt8)
    (file : wordsFiles path = some bytes) : LoadsFresh bytes := by
  cases file
  exact wordsElf_wellFormed.loadsFresh wordsElf_contained

/-- The statics before `init`, with 8192 frames in zeroed memory. -/
def wordsStart : Kernel where
  alloc := initFrames 0xffffff8000100000 0xffffff8002100000
    { mem := fun _ => 0, freeFrameList := ⟨0, 0⟩, freeFrameCount := 0, totalFrameCount := 0 }
  processTable := fun _ => none
  nextPid := 1
  processTableLock := false
  currentProcess := ⟨1, by decide⟩
  currentPid := none
  kernelStacks := fun _ => .free
  kernelL1 := 0x80000
  mutexes := fun _ => ⟨false, false, none⟩
  log := []

/-- The kernel has just been loaded. -/
theorem wordsStart_fresh : wordsStart.Fresh :=
  ⟨fun _ => rfl, rfl, rfl, rfl, rfl, fun _ => rfl, fun _ => rfl, rfl⟩

/-- Its allocator has been given the 32 MB behind the kernel. -/
theorem wordsStart_booted :
    Pool.Booted 0xffffff8000100000 0xffffff8002100000 ⟨wordsStart.alloc, ∅⟩ :=
  ⟨by decide, by decide, by decide, rfl, fun _ => 0, ⟨0, 0⟩, rfl, rfl, by decide, rfl⟩

/-- The table of the kernel lies below the pool, and is empty. -/
theorem wordsStart_childless (index : EntryIndex) :
    child wordsStart.alloc.mem wordsStart.kernelL1 index = none := by
  obtain ⟨frames, -, isFrame, vas, exact⟩ :=
    @frameVas_eq 0xffffff8000100000 0xffffff8002100000 (by decide) (by decide) (by decide)
  refine child_zero (fun address inside => ?_) index
  show (initFrames _ _ _).mem address = _
  rw [initFrames, vas, pushedFrames_outside frames _ isFrame]
  intro pa member other
  obtain ⟨va, listed, rfl⟩ := (exact pa).mp member
  simp only [frameVas, List.mem_map, List.mem_range] at listed
  obtain ⟨step, below, rfl⟩ := listed
  simp only [frame, block, Set.mem_Ico, wordsStart, ttbr1ToPa_eq] at inside other
  omega

/-- The kernel is prepared for a first process. -/
theorem wordsStart_prepared : wordsStart.Prepared 0xffffff8000100000 0xffffff8002100000 := by
  -- The kernel's root has no children, so it is the whole of its tree.
  have alone : ∀ {path : List EntryIndex} {pa : Nat},
      walk (child wordsStart.alloc.mem) wordsStart.kernelL1 path = some pa →
      path = [] ∧ pa = wordsStart.kernelL1 := by
    intro path pa reached
    cases path with
    | nil => exact ⟨rfl, (Option.some.inj reached).symm⟩
    | cons index rest =>
      rw [walk_childless wordsStart_childless (by simp)] at reached
      cases reached
  refine ⟨wordsStart_booted, ?_, ?_, wordsStart_childless _⟩
  · rintro root rfl other rfl path rest node - - first second
    exact ⟨rfl, (alone first).1.trans (alone second).1.symm⟩
  · rintro pa ⟨path, -, reached⟩
    obtain ⟨-, rfl⟩ := alone reached
    refine ⟨by constructor <;> decide, ?_⟩
    rintro ⟨va, listed, same⟩
    simp only [frameVas, List.mem_map, List.mem_range] at listed
    obtain ⟨step, below, rfl⟩ := listed
    rw [ttbr1ToPa_eq] at same
    simp only [wordsStart] at same
    omega

/-- The allocator has 8192 frames. -/
theorem wordsStart_count : wordsStart.alloc.freeFrameCount = 8192 := by
  obtain ⟨free, conserved⟩ := wordsStart_booted.conserved
  obtain ⟨frames, nodup, -, vas, exact⟩ :=
    @frameVas_eq 0xffffff8000100000 0xffffff8002100000 (by decide) (by decide) (by decide)
  have owned : Owned wordsStart.alloc ∅ free _ := conserved.owned
  have same : ∀ pa, pa ∈ free ↔ pa ∈ frames := by
    intro pa
    rw [exact, owned.cover]
    simp
  have count := congrArg List.length vas
  rw [frameVas, List.length_map, List.length_range, List.length_map] at count
  rw [owned.count, ((List.perm_ext_iff_of_nodup owned.nodup nodup).mpr same).length_eq, ← count]

/-- The frames are enough to load the program. -/
theorem wordsStart_loads : ∃ root after, loadElf wordsElf wordsStart.alloc =
    .ok (.ok (wordsHeader.entry, stackTopOf (wordsHeader.segments wordsElf), root), after) := by
  obtain ⟨free, owned, -⟩ := wordsStart_prepared.owned
  have enough : framesNeeded (wordsHeader.segments wordsElf) ≤ free.length := by
    rw [wordsElf_framesNeeded, ← owned.count, wordsStart_count]
    decide
  have outcome := loadElf_spec owned wordsElf_wellFormed (Or.inl wordsElf_contained)
  generalize loadElf wordsElf wordsStart.alloc = result at outcome
  cases outcome with
  | noSegments noneLoaded =>
    rw [wordsElf_segments] at noneLoaded
    cases noneLoaded
  | outOfFrames few => omega
  | loaded => exact ⟨_, _, rfl⟩

/-- The system boots with the program of one page as `init`. -/
theorem wordsStart_boots : ∃ m, Machine.Booted wordsFiles wordsStart m :=
  wordsStart_prepared.boots wordsStart_fresh rfl wordsElf_wellFormed wordsElf_contained
    (by rw [wordsElf_segments]; simp) (by rw [wordsElf_framesNeeded, wordsStart_count]; decide)

/-- From boot, the scheduler loads `init`. -/
theorem Machine.Booted.schedules (booted : Machine.Booted files start m) :
    ∃ init frame context, m.Step files (.schedule false) (.ok (m.loaded ⟨0, by decide⟩ init frame)) ∧
      (m.loaded ⟨0, by decide⟩ init frame).control = .user context ∧
      context = frame.updateFromPctx init.pctx ∧
      m.kernel.processTable = put (fun _ => none) ⟨0, by decide⟩ (some init) ∧ init.IsInit := by
  obtain ⟨valid, -⟩ := booted.tree
  have fresh := booted.fresh
  obtain ⟨k, init, frame, -, spawned, rfl⟩ := booted.started
  -- Init is the only process, so the scheduler finds nobody else.
  have empty : start.processTable = fun _ => none := funext fresh.table
  have table : k.processTable = put (fun _ => none) ⟨0, by decide⟩ (some init) := by
    rw [spawned.table, empty]
  have here : k.processTable ⟨0, by decide⟩ = some init := by
    rw [table, put_self]
  obtain ⟨slot, process, there, -, step⟩ :=
    @Machine.Valid.schedules files _ valid _ _ rfl _ _ here spawned.isInit.ready
  have there : k.processTable slot = some process := there
  -- The slot that is loaded is the one that holds init.
  rw [table, put_eq_some] at there
  rcases there with ⟨rfl, same⟩ | ⟨-, impossible⟩
  · rw [Option.some.injEq] at same
    subst same
    exact ⟨init, frame, _, step, rfl, rfl, table, spawned.isInit⟩
  · cases impossible

/-- The system of the small program runs `init`. -/
theorem wordsFiles_runs :
    ∃ m frame, Machine.Reachable wordsFiles m ∧ m.control = .user frame := by
  obtain ⟨boot, booted⟩ := wordsStart_boots
  obtain ⟨init, frame, context, step, running, -⟩ := booted.schedules
  exact ⟨_, context, ⟨_, boot, booted, .single ⟨_, trivial, step⟩⟩, running⟩

end Words

end AtOS
