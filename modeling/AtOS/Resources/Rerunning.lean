import AtOS.Resources.ExecReady
import AtOS.Resources.Start
import AtOS.Resources.Trapping

/-! A program of one page runs itself again and again, with its own words as the arguments. -/

namespace AtOS

open ByteMemory RadixForest SlotTable

section Reading

variable {read : Nat → Option UInt8} {start count : Nat}

/-- A loop whose passes all come to the same makes a list of it. -/
theorem mapM_same {Error Item Value : Type} {body : Item → Except Error Value} {value : Value} :
    ∀ (items : List Item), (∀ item ∈ items, body item = .ok value) →
      items.mapM body = .ok (List.replicate items.length value) := by
  intro items
  induction items with
  | nil => exact fun _ => rfl
  | cons item rest ih =>
    intro each
    rw [List.mapM_cons, each item (by simp), ih fun other member => each other (by simp [member])]
    rfl

/-- The words of the small program, as it finds them in its memory. -/
def words : List UInt8 := (List.replicate 32 [0, 1, 0, 0, 0, 0, 0, 0]).flatten

/-- The words as an argument. -/
def wordsArg : String :=
  String.ofList (List.replicate 32
    ['\x00', '\x01', '\x00', '\x00', '\x00', '\x00', '\x00', '\x00']).flatten

/-- The argument is what the words spell. -/
theorem wordsArg_bytes : asBytes wordsArg = words := by decide +kernel

/-- The words fill 256 bytes. -/
theorem words_length : words.length = 256 := by decide +kernel

/-- The words are found where the program is loaded. -/
def FindsWords (read : Nat → Option UInt8) : Prop := ∀ i < 256, read (0x100 + i) = words[i]?

/-- Each word is the address of the words, and their length. -/
theorem FindsWords.word (finds : FindsWords read) {i : Nat} (inside : i < 32) :
    readU64 read (0x100 + 8 * i) = some 0x100 := by
  have all : ∀ i < 32, ∀ position < 8,
      words[8 * i + position]? = some ([0, 1, 0, 0, 0, 0, 0, 0].getD position 0) := by
    decide
  have word := @readU64_eq read (fun position => [0, 1, 0, 0, 0, 0, 0, 0].getD position 0)
    (0x100 + 8 * i) 0 fun position below => by
      rw [Nat.add_assoc, finds _ (by omega), all i inside position below, Nat.zero_add]
  rw [word]
  rfl

/-- The words are read as one argument, as often as is asked for. -/
theorem FindsWords.readExecArgs (finds : FindsWords read) (proper : 0 < count) (few : count ≤ 32) :
    AtOS.readExecArgs read 0x100 0x100 (UInt64.ofNat count) = .ok (List.replicate count wordsArg) := by
  -- There are few arguments, so their count fits the register.
  have number : (UInt64.ofNat count).toNat = count := by
    rw [UInt64.toNat_ofNat', Nat.mod_eq_of_lt (by omega)]
  have slice : readSlice read 0x100 256 = some words := by
    have bytes := @readSlice_eq read 0x100 words fun position below => by
      rw [words_length] at below
      exact finds position below
    rwa [words_length] at bytes
  -- Every pointer and every length is one of the words, and each leads to the same string.
  have arg : ∀ i < count, readExecArg read 0x100 0x100 i = .ok words := by
    intro i inside
    have word := finds.word (show i < 32 by omega)
    unfold readExecArg
    rw [show (0x100 : UInt64).toNat = 0x100 from rfl, word]
    dsimp only
    rw [if_neg (by decide), show (0x100 : UInt64).toNat = 256 from rfl, slice]
  have decoded : decodeExecArg words = .ok wordsArg := by
    unfold decodeExecArg
    rw [← wordsArg_bytes, fromUTF8_asBytes]
  -- Every argument is read in the same way.
  have storage := mapM_same (List.range count) fun i member => arg i (List.mem_range.mp member)
  rw [List.length_range] at storage
  have args := mapM_same (List.replicate count words) fun bytes member =>
    (List.eq_of_mem_replicate member) ▸ decoded
  rw [List.length_replicate] at args
  -- The checks on the registers pass.
  have valid : ¬ ((0x100 : UInt64) = 0 ∨ (0x100 : UInt64) = 0 ∨ UInt64.ofNat count = 0 ∨
      maxExecArgs < (UInt64.ofNat count).toNat) := by
    rw [number, maxExecArgs]
    rintro (impossible | impossible | zero | many)
    · exact absurd impossible (by decide)
    · exact absurd impossible (by decide)
    · rw [zero] at number
      exact absurd number (by simp; omega)
    · omega
  unfold AtOS.readExecArgs
  rw [if_neg valid, number]
  show Except.bind ((List.range count).mapM _) _ = _
  rw [storage]
  exact args

end Reading

section Words

/-- An address space holds the words where they are loaded. -/
def HoldsWords (mem : Mem) (root : Nat) : Prop := ∀ i < 256, byteAt mem root (0x100 + i) = words[i]?

/-- The stack of the small program lies far above its words. -/
theorem wordsElf_stackTop : stackTopOf (wordsHeader.segments wordsElf) = 0x16200 := by
  rw [wordsElf_segments]
  decide

/-- The words are what the small file has to load. -/
theorem wordsElf_words {i : Nat} : wordsElf[120 + i]? = words[i]? := by
  have rest : wordsElf.drop 120 = words := rfl
  rw [← rest, List.getElem?_drop]

/-- The kernel reads the words through the page table of the program. -/
theorem HoldsWords.finds {k : Kernel} {ttbr0 : UInt64}
    (holds : HoldsWords k.alloc.mem ttbr0.toNat) : FindsWords (k.loadByte ttbr0) := by
  intro i inside
  unfold Kernel.loadByte
  rw [if_pos (by omega)]
  exact holds i inside

/-- The words stay where the address space is kept. -/
theorem HoldsWords.kept {before after : Mem} {roots : Set Nat} {root : Nat}
    (holds : HoldsWords before root) (kept : Kept before after roots) (live : root ∈ roots) :
    HoldsWords after root := fun i inside => (kept.byteAt live _).trans (holds i inside)

/-- Where thirteen pages of the small program's stack are mapped, there are as many frames. -/
theorem stackPages_ncard {mem : Mem} {root : Nat} (separate : Separate (child mem) 3 {root})
    (mapped : ∀ i < 13, (leafOf mem root ((9 + i) * 4096)).isSome) :
    13 ≤ (nodes (child mem) 3 root).ncard := by
  -- Every page is at a place of its own.
  let pages := (Finset.range 13).image fun i => pagePath ((9 + i) * 4096)
  have count : pages.card = 13 := by decide
  rw [separate.ncard_nodes, ← count, ← Set.ncard_coe_finset]
  refine Set.ncard_le_ncard ?_ (places_finite root)
  intro path member
  obtain ⟨i, inside, rfl⟩ := Finset.mem_image.mp (Finset.mem_coe.mp member)
  exact ⟨Nat.le_of_eq (pagePath_length _), mapped i (Finset.mem_range.mp inside)⟩

/-- The words as one argument fit the stack. -/
theorem wordsArg_fits : ∃ image sp, argsImage [wordsArg] = .ok (image, sp) := by
  have fits : (match argsImage [wordsArg] with
    | .ok _ => true
    | .error _ => false) = true := by decide +kernel
  cases pushing : argsImage [wordsArg] with
  | ok value => exact ⟨value.1, value.2, rfl⟩
  | error error =>
    rw [pushing] at fits
    cases fits

/-- The small program runs, with a number of frames that are free or its own. -/
structure Machine.RunsWords (m : Machine) (frame : ExceptionContext) (frames : Nat) : Prop where
  owns : ∃ roots free managed, m.Owns roots free managed
  running : m.control = .user frame
  holds : HoldsWords m.kernel.alloc.mem frame.ttbr0.toNat
  frames : frames ≤ m.kernel.alloc.freeFrameCount +
    (nodes (child m.kernel.alloc.mem) 3 frame.ttbr0.toNat).ncard
  size : (nodes (child m.kernel.alloc.mem) 3 frame.ttbr0.toNat).ncard ≤ 46

variable {m : Machine} {frame : ExceptionContext} {frames count : Nat}

/-- The frame in which the small program asks to be executed again. -/
def ExceptionContext.rerunning (frame : ExceptionContext) (count : Nat) : ExceptionContext :=
  frame.calling 5 (argumentRegisters 0x100 0x100 (UInt64.ofNat count))

/-- When the small program asks to be executed again, `exec` finds its arguments. -/
theorem Machine.RunsWords.asksAgain (small : m.RunsWords frame frames) (valid : m.Valid)
    (proper : 0 < count) (few : count ≤ 32) (devices : Devices) :
    ∃ self mid,
      m.Traps wordsFiles self (frame.rerunning count) devices mid
        (mid.sysExec wordsFiles (frame.rerunning count)) ∧
      m.Step wordsFiles (.trap (frame.rerunning count) devices)
        (m.after (mid.sysExec wordsFiles (frame.rerunning count))) ∧
      readExecArgs (mid.loadByte frame.ttbr0) 0x100 0x100 (UInt64.ofNat count) =
        .ok (List.replicate count wordsArg) ∧
      frames ≤ mid.alloc.freeFrameCount +
        (nodes (child mid.alloc.mem) 3 frame.ttbr0.toNat).ncard ∧
      (nodes (child mid.alloc.mem) 3 frame.ttbr0.toNat).ncard ≤ 46 := by
  -- The trap is a system call, so it reaches `sys_exec`.
  obtain ⟨roots, free, managed, owns⟩ := small.owns
  have isExec := frame.isSyscall_calling 5 (by decide)
    (argumentRegisters 0x100 0x100 (UInt64.ofNat count))
  obtain ⟨self, mid, traps, -, step⟩ :=
    valid.calls small.running isExec rfl rfl wordsFiles devices
  have sysExec : mid.handleSyscall wordsFiles (frame.rerunning count) =
      mid.sysExec wordsFiles (frame.rerunning count) := by
    rw [Kernel.handleSyscall, ExceptionContext.rerunning, isExec.immediate]
    rfl
  rw [show frame.calling 5 (argumentRegisters 0x100 0x100 (UInt64.ofNat count)) =
    frame.rerunning count from rfl, sysExec] at traps step
  -- On entry stacks may have been freed, but the image is as it was.
  obtain ⟨kept, frees⟩ := traps.kept owns
  have live : frame.ttbr0.toNat ∈ roots := traps.live owns
  have sameNodes := kept.nodes live
  have size := small.size
  have bound := small.frames
  have finds := (small.holds.kept kept live).finds
  refine ⟨self, mid, traps, step, finds.readExecArgs proper few, ?_, ?_⟩
  · rw [sameNodes]
    omega
  · rw [sameNodes]
    exact size

/-- The small file has something to load. -/
theorem wordsElf_loads : wordsHeader.segments wordsElf ≠ [] := by
  rw [wordsElf_segments]
  simp

/-- When the small program runs itself again, `exec` comes to the arguments. -/
theorem Machine.RunsWords.execReady (small : m.RunsWords frame frames) (valid : m.Valid)
    (enough : 98 ≤ frames) {vacant : Fin maxProcesses}
    (room : m.kernel.kernelStacks vacant = .free) (proper : 0 < count) (few : count ≤ 32)
    (devices : Devices) :
    ∃ self mid roots managed old root stack ready rest,
      m.Traps wordsFiles self (frame.rerunning count) devices mid
        (mid.sysExec wordsFiles (frame.rerunning count)) ∧
      m.Step wordsFiles (.trap (frame.rerunning count) devices)
        (m.after (mid.sysExec wordsFiles (frame.rerunning count))) ∧
      readExecArgs (mid.loadByte frame.ttbr0) 0x100 0x100 (UInt64.ofNat count) =
        .ok (List.replicate count wordsArg) ∧
      mid.kernelStacks old = .allocated self.pid ∧
      frames ≤ mid.alloc.freeFrameCount +
        (nodes (child mid.alloc.mem) 3 frame.ttbr0.toNat).ncard ∧
      mid.ExecReady { self with pctx := .fromEctx (frame.rerunning count) } wordsElf wordsHeader
        roots managed old root stack ready rest := by
  obtain ⟨self, mid, traps, step, reads, bound, size⟩ := small.asksAgain valid proper few devices
  obtain ⟨roots, free, managed, owns⟩ := small.owns
  obtain ⟨freed, sound, -⟩ := traps.sound owns
  obtain ⟨old, onTop⟩ := traps.onTop owns
  have live : frame.ttbr0.toNat ∈ roots := traps.live owns
  -- A stack that is free is still free after the entry.
  have stillFree : mid.kernelStacks vacant = .free := by
    rw [(traps.runs.entered_stacks traps.fromUser traps.entry).1]
    dsimp only
    rw [room]
    rfl
  have few' : framesNeeded (wordsHeader.segments wordsElf) + 6 ≤ mid.alloc.freeFrameCount := by
    rw [wordsElf_framesNeeded]
    omega
  obtain ⟨root, stack, ready, rest, isReady⟩ :=
    @Kernel.exec_ready mid { self with pctx := .fromEctx (frame.rerunning count) } _ _ _ _ _ _ _
      sound.accounted sound.assigned.slots onTop.allocated live wordsElf_wellFormed
      wordsElf_contained wordsElf_loads stillFree few'
  exact ⟨self, mid, roots, managed, old, root, stack, ready, rest, traps, step, reads,
    onTop.allocated, bound, isReady⟩

/-- What the small program has changed when it has run itself again. -/
structure Machine.Reran (m : Machine) (next : Machine) (pid : UInt64)
    (old stack : Fin maxProcesses) : Prop where
  current : m.kernel.getCurrentProcess.map Process.pid = some pid
  stillCurrent : next.kernel.getCurrentProcess.map Process.pid = some pid
  active : m.kernel.kernelStacks old = .allocated pid
  unused : (m.kernel.kernelStacks stack).afterFreeing pid = .free
  kernelStacks : next.kernel.kernelStacks = Function.update (Function.update
    (fun slot => (m.kernel.kernelStacks slot).afterFreeing pid) old (.queuedToFree pid)) stack
    (.allocated pid)

/-- The small program can run itself again as long as there are frames and a kernel stack. -/
theorem Machine.RunsWords.reruns (small : m.RunsWords frame frames) (valid : m.Valid)
    (enough : 98 ≤ frames) {vacant : Fin maxProcesses}
    (room : m.kernel.kernelStacks vacant = .free) (devices : Devices) :
    ∃ next context pid old stack,
      m.Step wordsFiles (.trap (frame.rerunning 1) devices) (.ok next) ∧
      m.ExecsWell wordsFiles (.trap (frame.rerunning 1) devices) ∧
      next.RunsWords context (frames - 6) ∧ m.Reran next pid old stack := by
  -- Everything that the call needs is there.
  obtain ⟨self, mid, roots, managed, old, root, stack, ready, rest, traps, step, reads, active, bound,
    isReady⟩ := small.execReady valid enough room (by decide : 0 < 1) (by decide) devices
  have current : mid.getCurrentProcess =
      some { self with pctx := .fromEctx (frame.rerunning 1) } := traps.entered.runs.current
  obtain ⟨image, sp, fits⟩ := wordsArg_fits
  have readsArg : readExecArgs (mid.loadByte (frame.rerunning 1).ttbr0)
      ((frame.rerunning 1).x.get 0) ((frame.rerunning 1).x.get 1) ((frame.rerunning 1).x.get 2) =
      .ok [wordsArg] := reads
  have file : wordsFiles ([wordsArg].headD "") = some wordsElf := rfl
  obtain ⟨pctx, after, next, executes, handled, done⟩ :=
    isReady.sysExec_ok current readsArg file fits
  rw [handled] at traps step
  -- The call is deterministic, so it fails for nobody.
  have execsWell : mid.ExecsWell wordsFiles { self with pctx := .fromEctx (frame.rerunning 1) }
      (frame.rerunning 1) := by
    intro args bytes error other isExec again fileAgain
    rw [readsArg, Except.ok.injEq] at again
    subst again
    rw [file, Option.some.injEq] at fileAgain
    subst fileAgain
    rw [executes]
    intro same
    cases same
  obtain ⟨rootsBefore, freeBefore, managedBefore, owns⟩ := small.owns
  have goesOn : m.after (.returned next ((frame.rerunning 1).updateFromPctx pctx)) = .ok
      { m with kernel := next, control := .user ((frame.rerunning 1).updateFromPctx pctx) } := rfl
  obtain ⟨rootsAfter, freeAfter, ownsAfter⟩ :=
    traps.owns owns (fun path bytes same => wordsFiles_loadsFresh path bytes same) execsWell goesOn
  have slots := (traps.runs.entered_stacks traps.fromUser traps.entry).1
  have sameRoot : ((frame.rerunning 1).updateFromPctx pctx).ttbr0.toNat = root := by
    rw [show ((frame.rerunning 1).updateFromPctx pctx).ttbr0 = pctx.holding.ttbr0 from rfl,
      done.holding, isReady.fits]
  -- The frames of the old image come back, so but for the new stack nothing is lost.
  have count := isReady.count
  have size := isReady.size
  rw [wordsElf_framesNeeded] at size
  have ownedReady := isReady.accounted.owned.count
  have sameCurrent : m.kernel.getCurrentProcess = some self := traps.runs.current
  refine ⟨_, _, self.pid, old, stack, step, ?execs, ⟨⟨rootsAfter, freeAfter, _, ownsAfter⟩, rfl,
    ?holds, ?frames, ?size⟩, ⟨?current, ?still, ?active, ?unused, ?slots⟩⟩
  case execs =>
    intro other ctx devices found same isCurrent entry
    cases same
    rw [sameCurrent, Option.some.injEq] at isCurrent
    subst isCurrent
    rw [traps.entry, Except.ok.injEq] at entry
    subst entry
    exact execsWell
  case holds =>
    rw [sameRoot]
    intro i inside
    show byteAt next.alloc.mem root (0x100 + i) = _
    have word := isReady.image wordsSegment (by rw [wordsElf_segments]; simp) i inside
    rw [done.image _ (by omega) (Or.inl (by rw [wordsElf_stackTop, stackBufSize]; omega))]
    exact word.trans wordsElf_words
  case frames =>
    rw [sameRoot]
    show frames - 6 ≤ next.alloc.freeFrameCount + (nodes (child next.alloc.mem) 3 root).ncard
    rw [done.frames, done.nodes]
    have left : ready.alloc.freeFrameCount = rest.length := ownedReady
    have before : rest.length + (nodes (child ready.alloc.mem) 3 root).ncard + 6 =
        mid.alloc.freeFrameCount + (nodes (child mid.alloc.mem) 3 frame.ttbr0.toNat).ncard := count
    omega
  case size =>
    rw [sameRoot]
    show (nodes (child next.alloc.mem) 3 root).ncard ≤ 46
    rw [done.nodes]
    exact size
  case current => rw [sameCurrent, Option.map_some]
  case still =>
    -- After the call the same process runs.
    have validNext := ((step.outcome valid).turn valid rfl).1
    obtain ⟨later, runsLater⟩ := validNext.user rfl
    have samePid := runsLater.currentPid.symm.trans (traps.stays rfl)
    have currentLater : next.getCurrentProcess = some later := runsLater.current
    show next.getCurrentProcess.map Process.pid = _
    rw [currentLater, Option.map_some, samePid]
  case active =>
    rw [slots] at active
    exact StackState.allocated_afterFreeing.mp active
  case unused =>
    have unused := isReady.unused
    rwa [slots] at unused
  case slots =>
    show next.kernelStacks = _
    rw [done.kernelStacks, isReady.kernelStacks, slots]

variable {boot : Machine}

/-- After boot, `init` is the small program, and holds its words. -/
theorem Machine.Booted.holdsWords (booted : Machine.Booted wordsFiles wordsStart boot) :
    ∃ init stack, boot.kernel.processTable ⟨0, by decide⟩ = some init ∧
      HoldsWords boot.kernel.alloc.mem init.pctx.ttbr0.toNat ∧
      13 ≤ (nodes (child boot.kernel.alloc.mem) 3 init.pctx.ttbr0.toNat).ncard ∧
      8184 ≤ boot.kernel.alloc.freeFrameCount +
        (nodes (child boot.kernel.alloc.mem) 3 init.pctx.ttbr0.toNat).ncard ∧
      (nodes (child boot.kernel.alloc.mem) 3 init.pctx.ttbr0.toNat).ncard ≤ 46 ∧
      boot.kernel.kernelStacks = Function.update (fun _ => .free) stack (.allocated 1) := by
  have fresh := booted.fresh
  -- The file is loaded, a stack is allocated, and the arguments are pushed.
  obtain ⟨k, init, frame, bytes, root, loaded, last, stack, mid, file, spawned, takes, rfl⟩ :=
    booted.takes
  cases file
  obtain ⟨entry, sp, loads, top, allocated, pushes⟩ := takes.loads
  obtain ⟨free, owned, -⟩ := wordsStart_prepared.owned
  obtain ⟨spill, taken, rest, -, built⟩ :=
    loadElf_loaded owned wordsElf_wellFormed (Or.inl wordsElf_contained) loads
  have stackTop := (loadElf_stackTop owned wordsElf_wellFormed (Or.inl wordsElf_contained) loads).2
  rw [wordsElf_stackTop] at stackTop
  subst stackTop
  have kept := built.kept_all owned
  have ownedLoaded : Owned loaded (insert root {wordsStart.kernelL1}) rest _ := built.loading.owned
  have unmapped : child loaded.mem wordsStart.kernelL1 (l1Index kernelStackRegionStart) = none := by
    rw [child_congr (kept.tables rfl wordsStart.kernelL1 ⟨[], by simp, rfl⟩)]
    exact wordsStart_prepared.unmapped
  -- The kernel had no stack yet, so the first one also takes tables.
  obtain ⟨used, left, table, free_eq, few, step⟩ :=
    allocated.first ownedLoaded (Set.mem_insert_of_mem _ rfl) unmapped
  have ownedMid : Owned mid.alloc (insert root {wordsStart.kernelL1}) left _ := step.owned
  have fits : (UInt64.ofNat root).toNat = root := ownedMid.root_fits (Set.mem_insert _ _)
  have distinct : root ∉ ({wordsStart.kernelL1} : Set Nat) := built.fresh
  have isNew : root ∈ insert root ({wordsStart.kernelL1} : Set Nat) \ {wordsStart.kernelL1} :=
    ⟨Set.mem_insert _ _, distinct⟩
  -- The stack of the kernel leaves the image alone, and so do the arguments of `init`.
  let pctx := ProcessContext.new (UInt64.ofNat entry)
    (UInt64.ofNat 0x16200) top (UInt64.ofNat root)
  have sameRoot : pctx.ttbr0.toNat = root := fits
  have sameTop : pctx.spEl0.toNat = 0x16200 := rfl
  have live : pctx.ttbr0.toNat ∈ insert root ({wordsStart.kernelL1} : Set Nat) := by
    rw [sameRoot]
    exact Set.mem_insert _ _
  have mapped : StackMapped mid.alloc.mem pctx.ttbr0.toNat pctx.spEl0.toNat := by
    rw [sameRoot, sameTop, ← wordsElf_stackTop]
    exact (built.stackMapped wordsElf_wellFormed.segments.each).kept step.kept isNew
  obtain ⟨-, -, -, holding⟩ := initializeArgs_kept ownedMid live pushes
  obtain ⟨frames, sameNodes, image⟩ := initializeArgs_image ownedMid live mapped pushes
  rw [sameRoot] at sameNodes image
  have ttbr0 : init.pctx.ttbr0.toNat = root := by
    rw [show init.pctx.ttbr0 = UInt64.ofNat root from congrArg Holding.ttbr0 holding, fits]
  -- Counting the frames at each of the steps gives how many are left.
  have alloc : k.alloc = last := takes.alloc
  have size := built.ncard owned
  have fewTaken := built.few
  have whole := congrArg List.length built.free_eq
  have splits := congrArg List.length free_eq
  have countStart : wordsStart.alloc.freeFrameCount = free.length := owned.count
  have countMid : mid.alloc.freeFrameCount = left.length := ownedMid.count
  rw [wordsStart_count] at countStart
  rw [wordsElf_framesNeeded] at fewTaken
  simp only [List.length_cons, List.length_append] at whole splits
  refine ⟨init, stack, ?_, ?_, ?_, ?_, ?_, ?_⟩
  · show k.processTable _ = _
    rw [spawned.table, put_self]
  · show HoldsWords k.alloc.mem _
    rw [ttbr0, alloc]
    -- The words are in the image from the first, and neither step touched them.
    intro i inside
    have word := (built.image wordsSegment (by rw [wordsElf_segments]; simp)).file i inside
    rw [image _ (by omega) (Or.inl (by rw [sameTop, stackBufSize]; omega)),
      step.kept.byteAt isNew]
    exact word.trans wordsElf_words
  · show 13 ≤ (nodes (child k.alloc.mem) 3 _).ncard
    rw [ttbr0, alloc, sameNodes, step.kept.nodes isNew]
    -- The pages of the stack lie below the one that the arguments are written to.
    refine stackPages_ncard (ownedLoaded.separate.mono ?_) fun i inside => ?_
    · exact Set.singleton_subset_iff.mpr (Set.mem_insert _ _)
    · refine (built.loading.mapped _ (by omega)).mpr (Or.inr
        ⟨13 - i, List.mem_range.mpr (by omega), ?_⟩)
      rw [wordsElf_stackTop]
      omega
  · show 8184 ≤ k.alloc.freeFrameCount + (nodes (child k.alloc.mem) 3 _).ncard
    rw [ttbr0, alloc, sameNodes, step.kept.nodes isNew, frames, size, countMid]
    omega
  · show (nodes (child k.alloc.mem) 3 _).ncard ≤ 46
    rw [ttbr0, alloc, sameNodes, step.kept.nodes isNew, size]
    omega
  · show k.kernelStacks = _
    -- There was no stack in use before.
    have slots : k.kernelStacks = Function.update wordsStart.kernelStacks stack (.allocated 1) := by
      rw [takes.kernelStacks, allocated.kernelStacks]
      rfl
    exact slots

/-- From boot, the scheduler takes up the small program, with one kernel stack allocated. -/
theorem wordsStart_runsWords :
    ∃ boot m frame stack, Machine.Booted wordsFiles wordsStart boot ∧
      boot.Step wordsFiles (.schedule false) (.ok m) ∧ m.RunsWords frame 8184 ∧
      m.kernel.kernelStacks = Function.update (fun _ => .free) stack (.allocated 1) := by
  obtain ⟨boot, booted⟩ := wordsStart_boots
  obtain ⟨init, stack, here, holds, -, frames, size, slots⟩ := booted.holdsWords
  -- The first pass over the table loads `init`.
  obtain ⟨process, frame, context, step, running, context_eq, table, -⟩ := booted.schedules
  rw [table, put_self, Option.some.injEq] at here
  subst here
  have noExec : boot.ExecsWell wordsFiles (.schedule false) := fun same => nomatch same
  have run : Machine.Runs wordsFiles (Machine.ExecsWell wordsFiles) boot _ := .single ⟨_, noExec, step⟩
  obtain ⟨-, roots, free, owns⟩ := run.owns booted wordsStart_prepared wordsFiles_loadsFresh
  -- The frame of `init` has the root of its entry.
  have sameRoot : context.ttbr0 = process.pctx.ttbr0 := by
    rw [context_eq]
    rfl
  refine ⟨boot, _, context, stack, booted, step, ⟨⟨roots, free, _, owns⟩, running, ?_, ?_, ?_⟩, slots⟩
  · rw [sameRoot]
    exact holds
  · rw [sameRoot]
    exact frames
  · rw [sameRoot]
    exact size

end Words

end AtOS
