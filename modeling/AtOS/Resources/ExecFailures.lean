import AtOS.Resources.Rerunning

/-! An `exec` that fails leaves everything as it was only if it is refused before it loads. -/

namespace AtOS

open ByteMemory RadixForest SlotTable

variable {files : String → Option (List UInt8)} {k mid next : Kernel} {m : Machine} {self : Process}
  {ctx frame : ExceptionContext} {devices : Devices}

/-- A system call that fails is atomic: the process goes on as before, but for `x0`. -/
structure Kernel.ExecAtomic (k next : Kernel) (process : Process) (ctx frame : ExceptionContext) :
    Prop where
  frame : frame = ctx.setX 0 failure
  saved : next.getCurrentProcess = some process
  kernelStacks : next.kernelStacks = k.kernelStacks
  /-- The address space is in use, and as it was. -/
  live : ∃ free, FreeChain next.alloc.mem next.alloc.freeFrameList free ∧
    ∀ node ∈ nodes (child next.alloc.mem) 3 process.pctx.ttbr0.toNat, node ∉ free
  space : Kept k.alloc.mem next.alloc.mem {process.pctx.ttbr0.toNat}
  frames : SameFree k.alloc next.alloc
  count : next.alloc.freeFrameCount = k.alloc.freeFrameCount

/-- The reasons to refuse an `exec` before it loads: its arguments, its path, or the file. -/
def Kernel.RefusesExec (k : Kernel) (files : String → Option (List UInt8)) (ctx : ExceptionContext) :
    Prop :=
  match readExecArgs (k.loadByte ctx.ttbr0) (ctx.x.get 0) (ctx.x.get 1) (ctx.x.get 2) with
  | .error _ => True
  | .ok args =>
    match files (args.headD "") with
    | none => True
    | some bytes => Elf64Hdr.mkfrombytes bytes = none

section Headers

/-- The files that have an ELF header. -/
def elfFiles (files : String → Option (List UInt8)) (path : String) : Option (List UInt8) :=
  (files path).filter fun bytes => (Elf64Hdr.mkfrombytes bytes).isSome

/-- An ELF file on the disk is a file with a header. -/
theorem elfFiles_eq_some {path : String} {bytes : List UInt8} :
    elfFiles files path = some bytes ↔
      files path = some bytes ∧ (Elf64Hdr.mkfrombytes bytes).isSome = true := by
  simp [elfFiles, Option.filter_eq_some_iff]

/-- A file without a header changes nothing. -/
theorem Kernel.exec_headless {bytes : List UInt8} (headless : Elf64Hdr.mkfrombytes bytes = none)
    (slot : Fin maxProcesses) (process : Process) (args : List String) :
    k.exec slot process bytes args = .ok (.error "Invalid ELF file header", k) := by
  unfold Kernel.exec loadElf
  rw [headless]
  rfl

/-- For `exec`, a file without a header might as well not be there. -/
theorem Kernel.sysExec_elfFiles (k : Kernel) (files : String → Option (List UInt8))
    (ctx : ExceptionContext) : k.sysExec (elfFiles files) ctx = k.sysExec files ctx := by
  -- Only a file without a header is another one, and `exec` refuses it as if it was not there.
  unfold Kernel.sysExec
  split
  · rfl
  · rfl
  · rename_i args reads
    dsimp only
    -- The path is the first argument. The rest is about the file it names.
    generalize args.headD "" = path
    cases k.getCurrentProcess with
    | none => rfl
    | some self =>
      cases file : files path with
      | none =>
        rw [elfFiles, file]
        rfl
      | some bytes =>
        cases header : Elf64Hdr.mkfrombytes bytes with
        | none =>
          have gone : elfFiles files path = none := by
            rw [elfFiles, file, Option.filter_some, header]
            rfl
          rw [gone]
          dsimp only [Kernel.execFile]
          rw [Kernel.exec_headless header]
        | some found =>
          have there : elfFiles files path = some bytes := by
            rw [elfFiles_eq_some, header]
            exact ⟨file, rfl⟩
          rw [there]

/-- So no handler tells the difference, -/
theorem Kernel.handleExceptionEl1_elfFiles (k : Kernel) (files : String → Option (List UInt8))
    (devices : Devices) (ctx : ExceptionContext) :
    k.handleExceptionEl1 (elfFiles files) devices ctx = k.handleExceptionEl1 files devices ctx := by
  have syscall : ∀ k : Kernel, k.handleSyscall (elfFiles files) ctx = k.handleSyscall files ctx := by
    intro k
    unfold Kernel.handleSyscall
    rw [Kernel.sysExec_elfFiles]
  unfold Kernel.handleExceptionEl1 Kernel.handleSyncException
  simp only [syscall]

/-- Going to sleep does not look at the files. -/
theorem Machine.suspend_elfFiles (m : Machine) (k : Kernel) (devices : Devices)
    (ctx : ExceptionContext) (suspension : Suspension) :
    m.suspend k (elfFiles files) devices ctx suspension =
      m.suspend k files devices ctx suspension := by
  unfold Machine.suspend
  simp only [Kernel.handleExceptionEl1_elfFiles]

/-- and no step of a machine. -/
theorem Machine.Step.withElfFiles {action : Action} {result : Except Stop Machine}
    (step : m.Step files action result) : m.Step (elfFiles files) action result := by
  -- A trap is the only step that reads a file.
  cases step with
  | trap running fromUser stack table =>
    rw [← Kernel.handleExceptionEl1_elfFiles]
    exact .trap running fromUser stack table
  | sleep inside isFrame unmarked noted =>
    rw [← Machine.suspend_elfFiles]
    exact .sleep inside isFrame unmarked noted
  | sleepFails inside failed => exact .sleepFails inside failed
  | @acquire outer ctx devices mutex retry isMutex inside sought isFrame marked =>
    have same : m.acquire files mutex ctx devices outer =
        m.acquire (elfFiles files) mutex ctx devices outer := by
      unfold Machine.acquire
      simp only [Machine.suspend_elfFiles]
    rw [same]
    exact .acquire isMutex inside sought isFrame marked
  | release isMutex inside current held => exact .release isMutex inside current held
  | finish result inside => exact .finish result inside
  | schedule uartReady looping => exact .schedule uartReady looping
  | store byte low busy => exact .store byte low busy
  | stackStore byte slot inside => exact .stackStore byte slot inside

/-- What boots has an ELF header. -/
theorem Machine.Booted.withElfFiles {start : Kernel} {boot : Machine}
    (booted : Machine.Booted files start boot) : Machine.Booted (elfFiles files) start boot := by
  obtain ⟨fresh, bytes, k, pid, devices, ctx, file, spawned, isFrame, handled⟩ := booted
  refine ⟨fresh, bytes, k, pid, devices, ctx, ?_, spawned, isFrame, ?_⟩
  · rw [elfFiles_eq_some]
    refine ⟨file, ?_⟩
    cases header : Elf64Hdr.mkfrombytes bytes with
    | some found => rfl
    | none =>
      unfold Kernel.spawnFromElf loadElf at spawned
      rw [header] at spawned
      cases spawned
  · rw [Kernel.handleExceptionEl1_elfFiles]
    exact handled

end Headers

section Late

variable {roots : Set Nat} {free : List Nat} {managed : Set Nat} {bytes : List UInt8}
  {header : Elf64Hdr} {old slot : Fin maxProcesses} {args : List String}

/-- A loop over program headers that loads no segment changes nothing. -/
theorem loadSegments_nothing {start root : Nat} : ∀ (indices : List Nat) {state last : LoadState},
    loadSegments bytes start root indices state = .ok last → last.loadedAnySegments = false →
    last = state := by
  intro indices
  -- The induction is on the program headers left. Whatever is not loaded changes nothing.
  induction indices with
  | nil =>
    intro state last done none
    exact (Except.ok.inj done).symm
  | cons i rest ih =>
    intro state last done none
    unfold loadSegments at done
    dsimp only at done
    split at done
    · exact (Except.ok.inj done).symm
    split at done
    · split at done
      · -- Once a segment is loaded, the flag stays set.
        have same := ih done none
        rw [same] at none
        cases none
      · cases done
    · exact ih done none

/-- A file with a header that has nothing to load costs a frame. -/
theorem Owned.loadElf_error {alloc after : PageAllocator} (owned : Owned alloc roots free managed)
    (verified : Elf64Hdr.mkfrombytes bytes = some header) {error : String}
    (fails : loadElf bytes alloc = .ok (.error error, after)) :
    after.freeFrameCount + 1 = alloc.freeFrameCount := by
  unfold loadElf at fails
  rw [verified] at fails
  dsimp only at fails
  cases free with
  | nil =>
    rw [owned.pop_nil] at fails
    cases fails
  -- The root is popped first, so it is gone when nothing is loaded.
  | cons pa rest =>
    obtain ⟨popped, pop, -, -, left, -⟩ := owned.pop
    have before : alloc.freeFrameCount = rest.length + 1 := owned.count
    have count : popped.freeFrameCount = rest.length := left.count
    rw [pop] at fails
    dsimp only at fails
    cases loading : loadSegments bytes header.phoff pa (List.range header.phnum)
        { alloc := popped, maxAllocatedAddr := 0, loadedAnySegments := false } with
    | error panic =>
      rw [loading] at fails
      cases fails
    | ok last =>
      rw [loading] at fails
      cases any : last.loadedAnySegments with
      | false =>
        -- Nothing was loaded, so the allocator is the one behind the root.
        have same := loadSegments_nothing _ loading any
        simp [bind, Except.bind, any, pure, Except.pure] at fails
        rw [← fails.2, same]
        dsimp only
        omega
      | true =>
        -- From here on the file is loaded, unless frames run out.
        simp only [bind, Except.bind, any, pure, Except.pure, not_true_eq_false, if_false] at fails
        split at fails
        · cases fails
        · cases fails

/-- An `exec` that fails with a file that has a header has lost a frame, or given up a stack. -/
theorem Kernel.exec_late (owned : Owned k.alloc roots free managed)
    (active : k.kernelStacks old = .allocated self.pid)
    (verified : Elf64Hdr.mkfrombytes bytes = some header) {error : String}
    (fails : k.exec slot self bytes args = .ok (.error error, next)) :
    next.alloc.freeFrameCount ≠ k.alloc.freeFrameCount ∨ next.kernelStacks ≠ k.kernelStacks := by
  -- What was allocated to the process is queued, and nothing else is allocated in its place.
  have queued : ∀ {stack : Fin maxProcesses}, k.kernelStacks stack = .allocated self.pid →
      Function.update k.kernelStacks stack (.queuedToFree self.pid) ≠ k.kernelStacks := by
    intro stack here same
    have there := congrFun same stack
    rw [Function.update_self, here] at there
    cases there
  -- Whatever goes wrong behind the header has lost a frame or queued the stack.
  cases Kernel.exec_ends fails with
  | @notLoaded _ alloc loads =>
    have lost := owned.loadElf_error verified loads
    refine Or.inl ?_
    show alloc.freeFrameCount ≠ _
    omega
  | inactive error loads none => exact absurd active (Kernel.getActiveStackIndex_none.mp none old)
  | noStack loads found refused => exact Or.inr (queued (Kernel.getActiveStackIndex_some found))
  | @withStack _ _ _ alloc last found stack top mid _ pctx loads isActive allocated pushes =>
    refine Or.inr ?_
    show mid.kernelStacks ≠ _
    rw [allocated.kernelStacks]
    -- The old stack is queued now and was allocated before.
    intro same
    have here := Kernel.getActiveStackIndex_some isActive
    have there := congrFun same found
    have isFree : Function.update k.kernelStacks found (.queuedToFree self.pid) stack = .free :=
      allocated.free
    rw [Function.update_apply] at there
    split at there
    · rename_i isStack
      rw [← isStack, Function.update_self] at isFree
      cases isFree
    · rw [show (k.givenUp self found alloc).kernelStacks found = .queuedToFree self.pid from
        Function.update_self .., here] at there
      cases there

/-- An `exec` that succeeds returns the number of its arguments. -/
theorem Kernel.exec_argc (done : k.exec slot self bytes args = .ok (.ok (), next)) {after : Process}
    (entry : next.processTable slot = some after) : after.pctx.x.get 0 ≠ failure := by
  -- Only a call that goes all the way through returns without an error.
  cases Kernel.exec_ends done with
  | @withStack _ _ _ alloc last old stack top mid _ pctx loads active allocated pushes =>
    rw [show (Kernel.setEntry { mid with alloc := last } slot
      (some { self with pctx })).processTable slot = some { self with pctx } from put_self ..,
      Option.some.injEq] at entry
    subst entry
    show pctx.x.get 0 ≠ failure
    unfold initializeArgs pushArgsToStack at pushes
    cases made : argsImage args with
    | error error =>
      rw [made] at pushes
      cases pushes
    | ok image =>
      -- There are 64 arguments at most, so their number is not the failure value.
      have few : args.length ≤ 64 := by
        unfold argsImage at made
        split at made
        · cases made
        · rename_i few
          rw [maxArgs] at few
          omega
      rw [made] at pushes
      dsimp only at pushes
      generalize copyToPages _ _ _ _ = written at pushes
      obtain ⟨copied, after⟩ := written
      cases copied with
      | error error => cases pushes
      | ok value =>
        cases pushes
        rw [(argRegisters _ _ _ _).1]
        intro same
        have number := congrArg UInt64.toNat same
        rw [UInt64.toNat_ofNat', Nat.mod_eq_of_lt (by omega)] at number
        exact absurd number (by rw [show failure.toNat = 18446744073709551615 from rfl]; omega)

end Late

section Atomic

variable {roots : Set Nat} {free : List Nat} {managed : Set Nat} {old : Fin maxProcesses}

/-- A call that is refused at once is atomic. -/
theorem Kernel.ExecAtomic.refused (owned : Owned k.alloc roots free managed)
    (live : self.pctx.ttbr0.toNat ∈ roots) (current : k.getCurrentProcess = some self)
    (ctx : ExceptionContext) : k.ExecAtomic k self ctx (ctx.setX 0 failure) where
  frame := rfl
  saved := current
  kernelStacks := rfl
  live := ⟨free, owned.chain, owned.apart _ live⟩
  space := Kept.refl _ _
  frames := ⟨free, free, owned.chain, owned.chain, fun _ => Iff.rfl⟩
  count := rfl

/-- An `exec` that fails is atomic exactly if it is refused before it loads. -/
theorem Kernel.sysExec_atomic_iff (owned : Owned k.alloc roots free managed)
    (live : self.pctx.ttbr0.toNat ∈ roots) (current : k.getCurrentProcess = some self)
    (active : k.kernelStacks old = .allocated self.pid)
    (returned : k.sysExec files ctx = .returned next frame) (fails : frame.x.get 0 = failure) :
    k.ExecAtomic next self ctx frame ↔ k.RefusesExec files ctx := by
  -- A refusal touches nothing, and anything later cannot be undone.
  have refused := Kernel.ExecAtomic.refused owned live current ctx
  unfold Kernel.RefusesExec
  unfold Kernel.sysExec at returned
  -- The arguments are refused, or the path is looked up.
  cases reads : readExecArgs (k.loadByte ctx.ttbr0) (ctx.x.get 0) (ctx.x.get 1) (ctx.x.get 2) with
  | error failure =>
    rw [reads] at returned
    cases failure with
    | fault => cases returned
    | invalid =>
      cases returned
      exact iff_of_true refused trivial
  | ok args =>
    rw [reads] at returned
    dsimp only at returned ⊢
    generalize args.headD "" = path at returned ⊢
    rw [current] at returned
    cases file : files path with
    | none =>
      rw [file] at returned
      cases returned
      exact iff_of_true refused trivial
    | some bytes =>
      rw [file] at returned
      dsimp only [Kernel.execFile] at returned ⊢
      cases header : Elf64Hdr.mkfrombytes bytes with
      | none =>
        rw [Kernel.exec_headless header] at returned
        cases returned
        exact iff_of_true refused rfl
      | some found =>
        -- A file with a header is loaded, and whatever goes wrong then is not undone.
        refine iff_of_false (fun atomic => ?_) fun same => nomatch same
        cases result : k.exec k.currentProcess self bytes args with
        | error stop =>
          rw [result] at returned
          cases returned
        | ok value =>
          obtain ⟨value, after⟩ := value
          rw [result] at returned
          cases value with
          | error error =>
            cases returned
            rcases Kernel.exec_late owned active header result with lost | given
            · exact lost atomic.count
            · exact given atomic.kernelStacks
          -- A call that succeeds does not return the failure value.
          | ok value =>
            obtain ⟨pctx, sameCurrent, entry⟩ := Kernel.exec_entry result
            have there : after.processTable k.currentProcess = some { self with pctx } := by
              rw [entry, put_self]
            dsimp only at returned
            rw [sameCurrent, there] at returned
            cases returned
            exact Kernel.exec_argc result there fails

end Atomic

section Run

/-- An `exec` that fails with -1 is one that is refused before it loads. -/
def Machine.FailsEarly (files : String → Option (List UInt8)) (m : Machine) (action : Action) :
    Prop :=
  ∀ {ctx devices mid next frame}, action = .trap ctx devices → ctx.IsSyscall 5 →
    m.kernel.entered devices ctx = .ok mid → mid.sysExec files ctx = .returned next frame →
    frame.x.get 0 = failure → mid.RefusesExec files ctx

/-- The value that was set is the one that is read. -/
theorem ExceptionContext.setX_get (ctx : ExceptionContext) (value : UInt64) :
    (ctx.setX 0 value).x.get 0 = value := by
  simp [ExceptionContext.setX, register_eq]

variable {start : Kernel} {boot : Machine} {first limit : Nat}

/-- A run in which each `exec` that fails does so early is one in which no `exec` of a program fails. -/
theorem Machine.Runs.withElfFiles (run : Machine.Runs files (Machine.FailsEarly files) boot m)
    (booted : Machine.Booted files start boot) :
    Machine.Runs (elfFiles files) (Machine.ExecsWell (elfFiles files)) boot m := by
  -- The induction is on the run. A refusal is what it is with the ELF files alone.
  induction run with
  | refl => exact .refl
  | @tail before after run last ih =>
    obtain ⟨action, early, step⟩ := last
    refine ih.tail ⟨action, ?_, step.withElfFiles⟩
    have valid : before.Valid :=
      (Machine.Runs.induction (motive := fun _ => True) run booted.tree.1 trivial
        fun _ _ _ _ _ => trivial).1
    intro self ctx devices mid isTrap current entry args bytes error next isExec reads file fails
    subst isTrap
    obtain ⟨process, other, handled, traps, -⟩ := (step.outcome valid).traps
    -- The kernel behind the entry is determined by the trap.
    have same := traps.entry
    rw [entry, Except.ok.injEq] at same
    subst same
    have isCurrent : before.kernel.getCurrentProcess = some process := traps.runs.current
    rw [current, Option.some.injEq] at isCurrent
    subst isCurrent
    rw [elfFiles_eq_some] at file
    -- What fails with a header would have had to be refused, which a file with a header is not.
    have refused := early rfl isExec entry
      (Kernel.sysExec_failed traps.entered.runs.current reads file.1 fails) (ctx.setX_get failure)
    unfold Kernel.RefusesExec at refused
    rw [reads] at refused
    dsimp only at refused
    rw [file.1] at refused
    rw [show Elf64Hdr.mkfrombytes bytes = none from refused] at file
    exact nomatch file.2

/--
In a run in which every `exec` that fails is refused before it loads, the next `exec` that fails
leaves its process as it was exactly if it is refused before it loads, too.
-/
theorem Machine.Booted.execAtomic_iff (booted : Machine.Booted files start boot)
    (prepared : start.Prepared first limit)
    (loadsFresh : ∀ path bytes, files path = some bytes → LoadsFresh bytes)
    (run : Machine.Runs files (Machine.FailsEarly files) boot m) (running : m.control = .user frame)
    (isExec : ctx.IsSyscall 5) (stack : ctx.spEl1 = frame.spEl1) (table : ctx.ttbr0 = frame.ttbr0)
    (entry : m.kernel.entered devices ctx = .ok mid)
    (current : mid.getCurrentProcess = some self) {context : ExceptionContext}
    (returned : m.kernel.handleExceptionEl1 files devices ctx = .returned next context)
    (fails : context.x.get 0 = failure) :
    mid.ExecAtomic next self ctx context ↔ mid.RefusesExec files ctx := by
  -- The invariant holds of the run with the ELF files alone, where no `exec` fails late.
  obtain ⟨valid, roots, free, owns⟩ := (run.withElfFiles booted).owns booted.withElfFiles prepared
    fun path bytes file => loadsFresh path bytes (elfFiles_eq_some.mp file).1
  obtain ⟨process, other, traps, handles, -⟩ := valid.calls running isExec stack table files devices
  have same := traps.entry
  rw [entry, Except.ok.injEq] at same
  subst same
  obtain ⟨freed, sound, -⟩ := traps.sound owns
  obtain ⟨top, onTop⟩ := traps.onTop owns
  have isSelf : mid.getCurrentProcess = some { process with pctx := .fromEctx ctx } :=
    traps.entered.runs.current
  rw [current, Option.some.injEq] at isSelf
  rw [← isSelf] at onTop
  have ownedMid : Owned mid.alloc (insert mid.kernelL1 roots) (freed ++ free) _ :=
    -- The call is `exec`, so the kernel is in `sys_exec`.
    sound.accounted.owned
  have sysExec : mid.handleSyscall files ctx = mid.sysExec files ctx := by
    rw [Kernel.handleSyscall, isExec.immediate]
    rfl
  rw [handles, sysExec] at returned
  have holding := traps.entered.runs.holding
  rw [← isSelf] at holding
  exact Kernel.sysExec_atomic_iff ownedMid (Set.mem_insert_of_mem _ (sound.assigned.live holding)) current
    onTop.allocated returned fails

/-- Sixteen times the words are too much for the stack. -/
theorem sixteenArgs_tooLong : ∃ error, argsImage (List.replicate 16 wordsArg) = .error error := by
  have tooLong : (match argsImage (List.replicate 16 wordsArg) with
    | .ok _ => true
    | .error _ => false) = false := by decide +kernel
  cases pushing : argsImage (List.replicate 16 wordsArg) with
  | error error => exact ⟨error, rfl⟩
  | ok value =>
    rw [pushing] at tooLong
    cases tooLong

/-- An `exec` of the small program with sixteen arguments fails after it has given up its stack. -/
theorem sixteenArgs_counterexample :
    ∃ (m : Machine) (frame : ExceptionContext) (mid next : Kernel) (self : Process),
      m.Reachable wordsFiles ∧ m.control = .user frame ∧ (frame.rerunning 16).IsSyscall 5 ∧
      m.kernel.entered ⟨false, false, false⟩ (frame.rerunning 16) = .ok mid ∧
      mid.getCurrentProcess = some self ∧
      m.kernel.handleExceptionEl1 wordsFiles ⟨false, false, false⟩ (frame.rerunning 16) =
        .returned next ((frame.rerunning 16).setX 0 failure) ∧
      ¬ mid.ExecAtomic next self (frame.rerunning 16) ((frame.rerunning 16).setX 0 failure) := by
  -- The first process runs, and one more stack is free.
  obtain ⟨boot, m, frame, stack, booted, scheduled, small, slots⟩ := wordsStart_runsWords
  have reached : m.Reachable wordsFiles := ⟨_, boot, booted, .single ⟨_, trivial, scheduled⟩⟩
  have other : ∃ vacant : Fin maxProcesses, vacant ≠ stack := @exists_ne (Fin 50) _ stack
  obtain ⟨vacant, apart⟩ := other
  have room : m.kernel.kernelStacks vacant = .free := by
    rw [slots, Function.update_of_ne apart]
  have isExec : (frame.rerunning 16).IsSyscall 5 := frame.isSyscall_calling 5 (by decide) _
  obtain ⟨self, mid, roots, managed, old, root, new, ready, rest, traps, -, reads, active, -, isReady⟩ :=
    small.execReady reached.valid (by decide) room (by decide : 0 < 16) (by decide)
      -- The sixteen strings are read out of its own memory, and the file is found.
      ⟨false, false, false⟩
  have current : mid.getCurrentProcess =
      some { self with pctx := .fromEctx (frame.rerunning 16) } := traps.entered.runs.current
  have readsArgs : readExecArgs (mid.loadByte (frame.rerunning 16).ttbr0)
      ((frame.rerunning 16).x.get 0) ((frame.rerunning 16).x.get 1) ((frame.rerunning 16).x.get 2) =
      .ok (List.replicate 16 wordsArg) := reads
  have file : wordsFiles ((List.replicate 16 wordsArg).headD "") = some wordsElf := rfl
  -- Sixteen strings of that length do not fit the buffer.
  obtain ⟨error, tooLong⟩ := sixteenArgs_tooLong
  have returned := isReady.sysExec_error current readsArgs file tooLong
  have handles := (traps.runs.calls wordsFiles ⟨false, false, false⟩ isExec traps.entry).2
  have sysExec : mid.handleSyscall wordsFiles (frame.rerunning 16) =
      mid.sysExec wordsFiles (frame.rerunning 16) := by
    rw [Kernel.handleSyscall, isExec.immediate]
    rfl
  refine ⟨m, frame, mid, _, _, reached, small.running, isExec, traps.entry, current,
    handles.trans (sysExec.trans returned), fun atomic => ?_⟩
  -- The stack the process had is queued, and it has another one instead.
  have here := congrFun atomic.kernelStacks old
  rw [show (ready.setEntry mid.currentProcess _).kernelStacks = ready.kernelStacks from rfl,
    isReady.kernelStacks, active] at here
  have distinct : old ≠ new := by
    rintro rfl
    rw [isReady.unused] at active
    cases active
  rw [Function.update_of_ne distinct, Function.update_self] at here
  cases here

/-- A disk with nothing but `init` on it. -/
def initFiles (path : String) : Option (List UInt8) := if path = "init" then some wordsElf else none

/-- Boot looks at no other file. -/
theorem Machine.Booted.withFiles {other : String → Option (List UInt8)}
    (booted : Machine.Booted files start boot) (same : other "init" = files "init") :
    Machine.Booted other start boot := by
  obtain ⟨fresh, bytes, k, pid, devices, ctx, file, spawns, isFrame, handled⟩ := booted
  obtain ⟨init, spawned⟩ := fresh.spawned spawns
  rw [spawned.firstException fresh files devices isFrame] at handled
  refine ⟨fresh, bytes, k, pid, devices, ctx, same.trans file, spawns, isFrame, ?_⟩
  rw [spawned.firstException fresh other devices isFrame]
  exact handled

/-- The small program is refused an `exec` of a path that is not on its disk. -/
theorem execAtomic_missingFile :
    ∃ (m : Machine) (frame : ExceptionContext) (mid : Kernel) (self : Process),
      m.Reachable initFiles ∧ m.control = .user frame ∧
      readExecArgs (mid.loadByte frame.ttbr0) 0x100 0x100 1 = .ok [wordsArg] ∧
      m.kernel.handleExceptionEl1 initFiles ⟨false, false, false⟩ (frame.rerunning 1) =
        .returned mid ((frame.rerunning 1).setX 0 failure) ∧
      mid.RefusesExec initFiles (frame.rerunning 1) ∧
      mid.ExecAtomic mid self (frame.rerunning 1) ((frame.rerunning 1).setX 0 failure) := by
  obtain ⟨wordsBoot, m, frame, stack, wordsBooted, scheduled, small, slots⟩ := wordsStart_runsWords
  -- The same machine boots with a disk that has `init` only.
  have booted : Machine.Booted initFiles wordsStart wordsBoot := wordsBooted.withFiles rfl
  have looks : Machine.Step initFiles wordsBoot (.schedule false) (.ok m) := by
    generalize (.ok m : Except Stop Machine) = result at scheduled ⊢
    cases scheduled with
    | schedule _ looping => exact .schedule false looping
  have loadsFresh : ∀ path bytes, initFiles path = some bytes → LoadsFresh bytes := by
    intro path bytes file
    unfold initFiles at file
    split at file
    · exact wordsFiles_loadsFresh path bytes file
    · cases file
  have noExec : wordsBoot.FailsEarly initFiles (.schedule false) := fun same => nomatch same
  have reached : m.Reachable initFiles := ⟨_, _, booted, .single ⟨_, trivial, looks⟩⟩
  obtain ⟨vacant, apart⟩ : ∃ vacant : Fin maxProcesses, vacant ≠ stack := @exists_ne (Fin 50) _ stack
  have room : m.kernel.kernelStacks vacant = .free := by
    rw [slots, Function.update_of_ne apart]
  have isExec : (frame.rerunning 1).IsSyscall 5 := frame.isSyscall_calling 5 (by decide) _
  -- The path and its length are read out of the caller's memory.
  obtain ⟨self, mid, -, -, -, -, -, -, -, traps, -, reads, -⟩ := small.execReady reached.valid
    (by decide) room (by decide : 0 < 1) (by decide) ⟨false, false, false⟩
  have readsArgs : readExecArgs (mid.loadByte (frame.rerunning 1).ttbr0)
      ((frame.rerunning 1).x.get 0) ((frame.rerunning 1).x.get 1) ((frame.rerunning 1).x.get 2) =
      .ok [wordsArg] := reads
  -- The path is 256 bytes long, and so it is not that of `init`.
  have missing : initFiles wordsArg = none := by decide +kernel
  have refuses : mid.RefusesExec initFiles (frame.rerunning 1) := by
    unfold Kernel.RefusesExec
    rw [readsArgs]
    dsimp only
    rw [show initFiles ([wordsArg].headD "") = none from missing]
    trivial
  have current : mid.getCurrentProcess =
      some { self with pctx := .fromEctx (frame.rerunning 1) } := traps.entered.runs.current
  have returned : mid.handleSyscall initFiles (frame.rerunning 1) =
      .returned mid ((frame.rerunning 1).setX 0 failure) := by
    rw [Kernel.handleSyscall, isExec.immediate]
    show mid.sysExec initFiles (frame.rerunning 1) = _
    unfold Kernel.sysExec
    rw [readsArgs]
    dsimp only
    rw [current, show initFiles ([wordsArg].headD "") = none from missing]
  -- The call returns the failure without touching anything.
  have handles := (traps.runs.calls initFiles ⟨false, false, false⟩ isExec traps.entry).2
  rw [returned] at handles
  have atomic := (booted.execAtomic_iff wordsStart_prepared loadsFresh (.single ⟨_, noExec, looks⟩)
    small.running isExec rfl rfl traps.entry current handles
    (ExceptionContext.setX_get _ failure)).mpr refuses
  exact ⟨m, frame, mid, _, reached, small.running, reads, handles, refuses, atomic⟩

end Run

end AtOS
