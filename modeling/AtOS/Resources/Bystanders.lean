import AtOS.Processes.Transparency
import AtOS.Resources.Programs

/-! What a process has is left as it is while other processes run: memory, page table, registers. -/

namespace AtOS

open ByteMemory RadixForest SlotTable

variable {files : String → Option (List UInt8)} {k next : Kernel} {m after : Machine}
  {self : Process} {inKernel : UInt64 → Bool} {roots : Set Nat} {free : List Nat}
  {managed : Set Nat}

section Registers

variable {t last : ProcessTree}

/-- Nobody starts to wait without running, and who still waits has the registers it waits with. -/
theorem ProcessTree.Move.waited (move : t.Move last) (formed : t.WellFormed) {pid : UInt64}
    {process later : Process} (there : t.entries pid = some process)
    (here : last.entries pid = some later) (idle : t.running ≠ some pid) (waits : later.Waits) :
    process.Waits ∧ later.pctx = process.pctx := by
  -- The running process is another one.
  have other : ∀ {changed : Process}, t.running = some changed.pid → pid ≠ changed.pid := by
    rintro changed runs rfl
    exact idle runs
  -- Most moves change one process, which is not this one.
  have kept : ∀ {changed : UInt64} {value : Option Process}, pid ≠ changed →
      (Function.update t.entries changed value) pid = some later →
      process.Waits ∧ later.pctx = process.pctx := by
    intro changed value distinct found
    rw [Function.update_of_ne distinct, there, Option.some.injEq] at found
    rw [found]
    exact ⟨waits, rfl⟩
  have reparented : ∀ {owner : UInt64}, (some process).map (Process.reparent owner 1) = some later →
      process.Waits ∧ later.pctx = process.pctx := by
    intro owner found
    rw [Option.map_some, Option.some.injEq, Process.reparent_eq] at found
    rw [← found] at waits ⊢
    exact ⟨⟨waits.blocked, waits.reason⟩, rfl⟩
  cases move with
  | save runs _ pctx => exact kept (other runs) here
  | wakeup proper =>
    -- A wakeup makes ready, so whoever waits after it was not woken up.
    rw [ProcessTree.mapAll_entries, there, Option.map_some, Option.some.injEq] at here
    rw [← here] at waits ⊢
    obtain ⟨same, waited⟩ := waits.of_wakeup
    rw [same]
    exact ⟨waited, rfl⟩
  | preempt runs _ saved => exact kept (other runs) here
  | exec runs _ pctx name => exact kept (other runs) here
  | @fork self child runs _ room childPid parent ready awake =>
    refine kept ?_ here
    rintro rfl
    have below := formed.rooted.below there
    rw [childPid] at below
    exact absurd below (Nat.lt_irrefl _)
  | exit runs _ code unheard =>
    rw [ProcessTree.terminated_entries, if_neg (other runs), there] at here
    exact reparented here
  | exitDelivered runs _ code above _ =>
    rw [ProcessTree.delivered_entries, if_neg (other runs)] at here
    split at here
    · -- The parent that was handed the exit is ready.
      rw [Option.some.injEq] at here
      rw [← here] at waits
      cases waits.blocked
    · rw [ProcessTree.terminated_entries, if_neg (other runs), there] at here
      exact reparented here
  | reap runs _ target childThere awaited ended =>
    -- A process that is reaped has no entry.
    rw [show _ = (t.set _ none).entries from rfl, ProcessTree.set_entries] at here
    split at here
    · cases here
    · rw [there, Option.some.injEq] at here
      exact ⟨here ▸ waits, by rw [here]⟩
  | notFound runs _ target none =>
    rw [show _ = t.entries from rfl, there, Option.some.injEq] at here
    exact ⟨here ▸ waits, by rw [here]⟩
  | await runs _ saved childThere awaited alive => exact kept (other runs) here
  | sleep runs _ proper reason pctx => exact kept (other runs) here
  -- A process that is loaded is running, so it does not wait.
  | @load self nobody selfHere ready =>
    rw [show _ = (t.set self.pid _).entries from rfl, ProcessTree.set_entries] at here
    split at here
    · rw [Option.some.injEq] at here
      rw [← here] at waits
      cases waits.blocked
    · rw [there, Option.some.injEq] at here
      exact ⟨here ▸ waits, by rw [here]⟩

/-- What others can do to the registers of a process: at most once, hand it the exit of a child. -/
structure Process.Untouched (process later : Process) : Prop where
  registers : later.pctx = process.pctx ∨
    process.Waits ∧ ∃ child code, later.pctx = process.pctx.deliver child code
  waited : later.Waits → process.Waits ∧ later.pctx = process.pctx

/-- A process that is the same is untouched. -/
theorem Process.Untouched.refl (process : Process) : process.Untouched process :=
  ⟨Or.inl rfl, fun waits => ⟨waits, rfl⟩⟩

/-- Untouched twice is untouched. -/
theorem Process.Untouched.trans {process between later : Process}
    (first : process.Untouched between) (second : between.Untouched later) :
    process.Untouched later := by
  constructor
  case registers =>
    rcases second.registers with same | ⟨waits, child, code, delivered⟩
    · rw [same]
      exact first.registers
    · -- Who is handed an exit waits for it, so it had not been handed one before.
      obtain ⟨waited, same⟩ := first.waited waits
      exact Or.inr ⟨waited, child, code, by rw [delivered, same]⟩
  case waited =>
    intro waits
    obtain ⟨waited, same⟩ := second.waited waits
    obtain ⟨first, earlier⟩ := first.waited waited
    exact ⟨first, same.trans earlier⟩

/-- A turn hands a process that does not run the exit of a child at most. -/
theorem ProcessTree.Turn.untouched (turn : t.Turn last) (invariant : t.Invariant) {pid : UInt64}
    {process later : Process} (there : t.entries pid = some process)
    (here : last.entries pid = some later) (idle : t.running ≠ some pid) :
    process.Untouched later := by
  -- Its registers change only when its `wait` is answered.
  constructor
  case registers =>
    rcases turn.contextKept invariant there here idle with same | ⟨waits, child, code, delivered, -⟩
    · exact Or.inl same
    · exact Or.inr ⟨waits, child, code, delivered⟩
  -- Whoever waits afterwards has waited before, with the same context.
  case waited =>
    intro waits
    cases turn with
    | rest prelude =>
      obtain ⟨other, found, same, waited⟩ := prelude.bystander there idle
      rw [found, Option.some.injEq] at here
      subst here
      exact ⟨waited waits, same⟩
    | move prelude move =>
      obtain ⟨other, found, same, waited⟩ := prelude.bystander there idle
      obtain ⟨still, kept⟩ := move.waited (prelude.invariant invariant).formed found here
        (prelude.running ▸ idle) waits
      exact ⟨waited still, kept.trans same⟩

end Registers

section Memory

variable {ctx : ExceptionContext} {handled : Handled} {root : Nat}

/-- A handler writes to the address space of its own process only. -/
theorem Kernel.Uses.kept (uses : k.Uses files self ctx handled) (runs : k.Runs inKernel self)
    (sound : k.resources.Sound roots free managed) {stack : Fin maxProcesses}
    (onTop : k.OnTop self stack)
    (loadsFresh : ∀ path bytes, files path = some bytes → LoadsFresh bytes)
    (execsWell : k.ExecsWell files self ctx) (goesOn : handled.kernel = some next) :
    Kept k.alloc.mem next.alloc.mem (roots \ {self.pctx.ttbr0.toNat}) := by
  have live : self.pctx.ttbr0.toNat ∈ roots := sound.assigned.live runs.holding
  -- Most uses of the kernel touch no memory.
  have same : ∀ {other : Kernel}, other.resources = k.resources →
      Kept k.alloc.mem other.alloc.mem (roots \ {self.pctx.ttbr0.toNat}) := by
    intro other resources
    rw [show other.alloc = k.alloc from congrArg Resources.alloc resources]
    exact .refl _ _
  cases uses with
  | stopped unwraps => cases goesOn
  | returned resources holding =>
    cases goesOn
    exact same resources
  | scheduling lockHeld resources =>
    cases goesOn
    exact same resources
  | inSyscall =>
    cases goesOn
    exact same rfl
  | exited isExit active resources =>
    -- An exit frees the tables of the process that exits, and no others.
    cases goesOn
    obtain ⟨freed, -, -, -, kept⟩ := sound.accounted.freeSpace live
    rw [show next.alloc = freePageTable self.pctx.ttbr0.toNat k.alloc from
      congrArg Resources.alloc resources]
    exact kept.mono (Set.sdiff_subset_sdiff_left (Set.subset_insert _ _))
  | @forked after mid child slot isFork forks vacant next_eq resources =>
    cases goesOn
    have pid := (Kernel.forkProcess_ok forks).pid
    have inactive := runs.child_inactive sound.assigned.slots forks
    obtain ⟨copiedRoot, copy, used, taken, rest, owns⟩ :=
      Kernel.forkProcess_owns sound.accounted sound.assigned.slots onTop live (pid ▸ inactive) forks
    rw [show next.alloc = mid.alloc from congrArg Resources.alloc resources]
    -- The copy is made of frames that were free, and so is the kernel stack of the child.
    exact (owns.kept_all sound.accounted.owned).mono Set.sdiff_subset
  | @executed after mid bytes args pctx isExec reads file executes entry resources =>
    cases goesOn
    obtain ⟨newRoot, changed, old, stack, rest, owns, -⟩ :=
      -- `exec` frees the tables of its caller, and builds new ones out of free frames.
      Kernel.exec_owns sound.accounted live (loadsFresh _ _ file) executes
    rw [show next.alloc = mid.alloc from congrArg Resources.alloc resources]
    exact owns.kept
  | notExecuted isExec reads file fails => exact absurd fails (execsWell isExec reads file)

/-- What others hold is not changed by a handler. -/
theorem Kernel.Uses.holding_other (uses : k.Uses files self ctx handled)
    (runs : k.Runs inKernel self) (execsWell : k.ExecsWell files self ctx)
    (goesOn : handled.kernel = some next) {pid : UInt64} {held : Holding} (other : pid ≠ self.pid)
    (holds : k.resources.holding pid = some held) : next.resources.holding pid = some held := by
  -- Each use changes the holdings of the caller or of a child that is new.
  cases uses with
  | stopped unwraps => cases goesOn
  | returned resources holding =>
    cases goesOn
    rw [resources, holds]
  | scheduling lockHeld resources =>
    cases goesOn
    rw [resources, holds]
  | inSyscall =>
    cases goesOn
    exact holds
  | exited isExit active resources =>
    cases goesOn
    rw [resources]
    exact (Function.update_of_ne other ..).trans holds
  | @forked after mid child slot isFork forks vacant next_eq resources =>
    cases goesOn
    have fresh : k.resources.holding child.pid = none := by
      rw [(Kernel.forkProcess_ok forks).pid]
      exact runs.fresh_holding
    have notChild : pid ≠ child.pid := by
      rintro rfl
      rw [fresh] at holds
      cases holds
    rw [resources]
    exact (Function.update_of_ne notChild ..).trans holds
  | executed isExec reads file executes entry resources =>
    cases goesOn
    rw [resources, runs.executed_holding executes entry, Function.update_of_ne other, holds]
  | notExecuted isExec reads file fails => exact absurd fails (execsWell isExec reads file)

/-- A byte that is stored through one page table is in no other address space. -/
theorem Kernel.storeByte_kept (owned : Owned k.alloc roots free managed) (live : root ∈ roots)
    (va : Nat) (byte : UInt8) :
    Kept k.alloc.mem (k.storeByte root va byte).alloc.mem (roots \ {root}) := by
  unfold Kernel.storeByte
  -- The store goes to a page of the root's own, or nowhere.
  cases found : ttbr0ToPa k.alloc.mem va root with
  | none => exact .refl _ _
  | some pa =>
    obtain ⟨leaf, mapped, rfl⟩ := ttbr0ToPa_eq_some.mp found
    have same : ∀ address ∉ frame leaf,
        Function.update k.alloc.mem (leaf + va % 4096) byte address = k.alloc.mem address := by
      intro address outside
      rw [Function.update_of_ne]
      rintro rfl
      apply outside
      simp only [frame, block, Set.mem_Ico]
      omega
    -- A leaf of one root is no node of any other.
    obtain ⟨-, kept⟩ := owned.write_leaf live (pagePath_length va) mapped same
    intro other otherLive node member
    obtain ⟨known, apart, -⟩ := owned.node_apart live otherLive member
    refine kept node known ?_
    rintro rfl
    exact apart (node_of_walk (by rw [pagePath_length]) mapped)

end Memory

section Steps

variable {action : Action} {pid : UInt64} {base : Holding}

/-- A trap of another process leaves what a process goes on with, and its memory. -/
theorem Machine.Traps.spares {ctx : ExceptionContext} {devices : Devices} {mid : Kernel}
    {handled : Handled} (traps : m.Traps files self ctx devices mid handled)
    (owns : m.Owns roots free managed)
    (loadsFresh : ∀ path bytes, files path = some bytes → LoadsFresh bytes)
    (execsWell : mid.ExecsWell files { self with pctx := .fromEctx ctx } ctx)
    (done : m.after handled = .ok after) (goesOn : m.base pid = some base)
    (idle : m.running ≠ some pid) :
    after.base pid = some base ∧
      Kept m.kernel.alloc.mem after.kernel.alloc.mem {base.ttbr0.toNat} := by
  obtain ⟨runs, own⟩ := traps.base
  -- The bystander is not the process that makes the call.
  have other : pid ≠ self.pid := by
    rintro rfl
    exact idle runs
  obtain ⟨freed, sound, -⟩ := traps.sound owns
  obtain ⟨stack, onTop⟩ := traps.onTop owns
  obtain ⟨entering, -⟩ := traps.kept owns
  have handling := traps.uses.kept traps.entered.runs sound onTop loadsFresh execsWell
    (Machine.after_kernel done)
  obtain ⟨held, holds, table⟩ := (owns.based goesOn).table
  obtain ⟨ownHeld, ownHolds, ownTable⟩ := (owns.based own).table
  have live : base.ttbr0.toNat ∈ roots := by
    rw [← table]
    exact owns.sound.assigned.live holds
  -- Two processes that are alive have different page tables.
  have apart : base.ttbr0.toNat ≠ ctx.ttbr0.toNat := by
    intro same
    have equal : held.ttbr0 = ownHeld.ttbr0 := by
      rw [table, ownTable]
      exact UInt64.toNat_inj.mp same
    exact other (owns.sound.assigned.alone holds ownHolds equal)
  have midHolds : mid.resources.holding pid = some held := by
    rw [traps.holding, Function.update_of_ne other, holds]
  -- The kernel leaves its holdings alone, on entry and in the call.
  have stillHolds := traps.uses.holding_other traps.entered.runs execsWell
    (Machine.after_kernel done) other midHolds
  constructor
  · rw [traps.base_after execsWell done, if_pos (stillHolds.trans midHolds.symm), goesOn]
  · have single : {base.ttbr0.toNat} ⊆ roots := Set.singleton_subset_iff.mpr live
    refine (entering.mono single).trans (handling.mono ?_)
    exact Set.singleton_subset_iff.mpr ⟨live, apart⟩

/-- A step that is no trap touches the memory of the process that runs at most. -/
theorem Machine.Outcome.spares_rest (outcome : m.Outcome files action (.ok after)) (valid : m.Valid)
    (noTrap : ∀ ctx devices, action ≠ .trap ctx devices) (owns : m.Owns roots free managed)
    (goesOn : m.base pid = some base) (idle : m.running ≠ some pid) :
    Kept m.kernel.alloc.mem after.kernel.alloc.mem {base.ttbr0.toNat} := by
  -- The bystander's tables are those of its holdings.
  obtain ⟨held, holds, table⟩ := (owns.based goesOn).table
  have live : base.ttbr0.toNat ∈ roots := by
    rw [← table]
    exact owns.sound.assigned.live holds
  have liveAll : base.ttbr0.toNat ∈ insert m.kernel.kernelL1 roots := Set.mem_insert_of_mem _ live
  -- Most of these steps leave the allocator alone.
  have same : ∀ {k : Kernel}, k.alloc = m.kernel.alloc →
      Kept m.kernel.alloc.mem k.alloc.mem {base.ttbr0.toNat} := by
    intro k equal
    rw [equal]
    exact .refl _ _
  have slept : ∀ {self : Process} {channel : UInt64} {reason : BlockReason} {ctx : ExceptionContext}
      {uartReady : Bool} {suspension : Suspension}, m.kernel.Runs m.inKernel self →
      (m.slept self channel reason ctx uartReady suspension).kernel.alloc = m.kernel.alloc :=
    fun {_ channel reason ctx uartReady suspension} runs =>
      congrArg Resources.alloc (m.slept_resources runs channel reason ctx uartReady suspension)
  generalize result : (Except.ok after : Except Stop Machine) = comes at outcome
  cases outcome with
  | @trap frame ctx devices => exact absurd rfl (noTrap ctx devices)
  | sleep inside runs isFrame =>
    cases result
    exact same (slept runs)
  | acquired isMutex inside runs sought guard lock =>
    cases result
    exact same rfl
  | acquireSleeps isMutex inside runs sought isFrame guard lock =>
    cases result
    exact same (slept runs)
  | acquireFails isMutex guard => cases result
  | @released outer mutex self isMutex inside runs held guard lock owner =>
    cases result
    exact same (congrArg Resources.alloc (Kernel.resources_wakeup runs.distinct mutex))
  | releaseFails isMutex runs held improper panics => cases result
  | finish value inside runs =>
    cases result
    exact same rfl
  | loaded uartReady looping idles there ready =>
    cases result
    exact same rfl
  | idle uartReady looping idles notReady blocked =>
    cases result
    exact same (congrArg Resources.alloc (Kernel.resources_awake idles.distinct uartReady))
  | theEnd uartReady looping idles ended => cases result
  | @store va byte low busy =>
    cases result
    -- The page table that is loaded is that of the process that runs.
    obtain ⟨runner, runs⟩ := valid.busy_running busy
    have other : pid ≠ runner := by
      rintro rfl
      exact idle runs
    obtain ⟨ownHeld, ownHolds, ownTable⟩ := (owns.based (Machine.base_running runs)).table
    -- The roots of two processes are different, since each is the only one to hold its own.
    have ownRoot : ownHeld.ttbr0.toNat = m.control.ttbr0.toNat := by
      rw [ownTable, m.control.frame_ttbr0]
    have ownLive := owns.sound.assigned.live ownHolds
    rw [ownRoot] at ownLive
    refine (Kernel.storeByte_kept owns.sound.accounted.owned
      (Set.mem_insert_of_mem _ ownLive) va byte).mono (Set.singleton_subset_iff.mpr ⟨liveAll, ?_⟩)
    intro same
    rw [Set.mem_singleton_iff, ← ownRoot, ← table] at same
    exact other (owns.sound.assigned.alone holds ownHolds (UInt64.toNat_inj.mp same))
  | @stackStore va byte slot inside =>
    cases result
    -- The store goes through the kernel's root, which no process has.
    refine (Kernel.storeByte_kept owns.sound.accounted.owned (Set.mem_insert ..) va byte).mono
      (Set.singleton_subset_iff.mpr ⟨liveAll, ?_⟩)
    exact (owns.sound.accounted.ne_kernel live).symm

/-- While a process does not run, a step leaves what it goes on with, and its memory. -/
theorem Machine.Outcome.spares (outcome : m.Outcome files action (.ok after)) (valid : m.Valid)
    (owns : m.Owns roots free managed)
    (loadsFresh : ∀ path bytes, files path = some bytes → LoadsFresh bytes)
    (execsWell : m.ExecsWell files action) (goesOn : m.base pid = some base)
    (idle : m.running ≠ some pid) :
    after.base pid = some base ∧
      Kept m.kernel.alloc.mem after.kernel.alloc.mem {base.ttbr0.toNat} := by
  by_cases trap : ∃ ctx devices, action = .trap ctx devices
  · obtain ⟨ctx, devices, rfl⟩ := trap
    obtain ⟨self, mid, handled, traps, done⟩ := outcome.traps
    exact traps.spares owns loadsFresh (execsWell rfl traps.runs.current traps.entry) done.symm goesOn
      idle
  · have noTrap : ∀ ctx devices, action ≠ .trap ctx devices :=
      fun ctx devices same => trap ⟨ctx, devices, same⟩
    obtain ⟨same, -⟩ := outcome.rests valid noTrap
    exact ⟨same ▸ goesOn, outcome.spares_rest valid noTrap owns goesOn idle⟩

end Steps

section Run

variable {start : Kernel} {boot : Machine} {first limit : Nat} {pid : UInt64} {base : Holding}

/-- What a process finds as it was, when others have run in between. -/
structure Machine.Spares (m after : Machine) (pid : UInt64) (base : Holding) : Prop where
  /-- It goes on with the same page table, on the same kernel stack. -/
  goesOn : after.base pid = some base
  /-- The page table maps the same pages to the same frames, with the same attributes. -/
  frames : ∀ path : List EntryIndex, path.length ≤ 3 →
    walk (child after.kernel.alloc.mem) base.ttbr0.toNat path =
      walk (child m.kernel.alloc.mem) base.ttbr0.toNat path
  attributes : ∀ path : List EntryIndex, path.length ≤ 3 →
    AtOS.attributes after.kernel.alloc.mem base.ttbr0.toNat path =
      AtOS.attributes m.kernel.alloc.mem base.ttbr0.toNat path
  bytes : ∀ va, byteAt after.kernel.alloc.mem base.ttbr0.toNat va =
    byteAt m.kernel.alloc.mem base.ttbr0.toNat va
  /-- It is still in the table, with its registers; `wait` may have returned in between. -/
  process : ∃ process later, m.tree.entries pid = some process ∧
    after.tree.entries pid = some later ∧ process.Untouched later

/-- A process that goes on with something is in the table. -/
theorem Machine.Owns.entry (owns : m.Owns roots free managed) (goesOn : m.base pid = some base) :
    ∃ process, m.tree.entries pid = some process := by
  obtain ⟨held, holds, -⟩ := (owns.based goesOn).table
  obtain ⟨process, there, -⟩ := Option.bind_eq_some_iff.mp holds
  exact ⟨process, there⟩

/--
In a run from boot in which no `exec` fails, nobody touches a process that does not run.

Its memory, its page table and its registers are as it left them, whatever other processes store,
fork, execute, free or wait for; the kernel only returns from its `wait`.
-/
theorem Machine.Booted.sparesOthers (booted : Machine.Booted files start boot)
    (prepared : start.Prepared first limit)
    (loadsFresh : ∀ path bytes, files path = some bytes → LoadsFresh bytes)
    (earlier : Machine.Runs files (Machine.ExecsWell files) boot m)
    (run : Machine.Runs files
      (fun m action => m.ExecsWell files action ∧ m.running ≠ some pid) m after)
    (goesOn : m.base pid = some base) : m.Spares after pid base := by
  obtain ⟨valid, roots, free, owns⟩ := earlier.owns booted prepared loadsFresh
  obtain ⟨process, there⟩ := owns.entry goesOn
  -- The invariant of the run: who owns what, and what the process has had since the start.
  obtain ⟨-, roots, free, owns, still, kept, later, here, untouched⟩ := run.induction
    (motive := fun after => ∃ roots free,
      after.Owns roots free (start.knownFrames first limit) ∧ after.base pid = some base ∧
        Kept m.kernel.alloc.mem after.kernel.alloc.mem {base.ttbr0.toNat} ∧
        ∃ later, after.tree.entries pid = some later ∧ process.Untouched later)
    valid ⟨roots, free, owns, goesOn, .refl _ _, process, there, .refl process⟩ (by
      rintro between next action valid ⟨roots, free, owns, goesOn, kept, later, here, untouched⟩
        ⟨execsWell, idle⟩ outcome validNext
      obtain ⟨still, keeps⟩ := outcome.spares valid owns loadsFresh execsWell goesOn idle
      obtain ⟨rootsNext, freeNext, ownsNext⟩ := outcome.owns valid loadsFresh execsWell owns
      obtain ⟨last, found⟩ := ownsNext.entry still
      obtain ⟨-, turn⟩ := outcome.turn valid rfl
      exact ⟨rootsNext, freeNext, ownsNext, still, kept.trans keeps, last, found,
        untouched.trans (turn.untouched valid.invariant here found idle)⟩)
  -- What is kept of the memory is the tables, the attributes and the bytes of the process.
  have member := Set.mem_singleton (base.ttbr0.toNat)
  exact ⟨still, fun path short => kept.walk member short,
    fun path short => kept.attributes member short, fun va => kept.byteAt member va,
    process, later, there, here, untouched⟩

/-- The child of the small program does not run while its parent uses its time slice up. -/
theorem sparesOthers_words : ∃ (m after : Machine) (base : Holding),
    Machine.Reachable wordsFiles m ∧ (∃ frame, m.control = .user frame) ∧
      (∃ frame, after.control = .scheduling frame false) ∧ m.base 2 = some base ∧
      m.Spares after 2 base := by
  -- Pid 1 forks, and the child waits while its parent uses up its slice.
  obtain ⟨boot, first, init, frame, booted, scheduled, orderly, running, current, isFirst, -, -,
    nextPid⟩ := wordsStart_init 1 (by decide)
  obtain ⟨m, saved, child, forks, orderly, forked⟩ :=
    orderly.forks wordsFiles_loadsFresh running current
  have earlier : Machine.Runs wordsFiles (Machine.ExecsWell wordsFiles) boot m :=
    scheduled.run.trans forks
  obtain ⟨context, running⟩ := forked.running
  obtain ⟨after, changed, goes, -, left, -⟩ :=
    orderly.usesUp wordsFiles_loadsFresh running forked.current
  have isChild : child.pid = 2 := forked.pid.trans nextPid
  have isParent : saved.pid = 1 := by
    obtain ⟨pctx, rfl⟩ := forked.same
    exact isFirst
  -- The one that runs in between is pid 1.
  have runs := orderly.valid.runs running forked.current
  have runner : m.running = some 1 := by
    rw [Machine.running, running]
    exact runs.currentPid.trans (congrArg some isParent)
  have idle : m.running ≠ some 2 := by
    rw [runner]
    decide
  -- The child goes on with what `fork` has made for it.
  have goesOn : m.base 2 = some child.pctx.holding := by
    have there : m.entries child.pid = some child := by
      rw [forked.entries, Function.update_self]
    rw [Machine.base_waiting idle, orderly.awake, ← isChild]
    show (m.entries child.pid).bind Process.holding = _
    rw [there, Option.bind_some, Process.holding_alive]
    simp [forked.ready]
  have reached : Machine.Reachable wordsFiles m :=
    ⟨_, boot, booted, earlier.weaken fun _ _ _ => trivial⟩
  -- The interrupt is a step of somebody else.
  exact ⟨m, after, _, reached, ⟨context, running⟩, left.looping, goesOn,
    booted.sparesOthers wordsStart_prepared wordsFiles_loadsFresh earlier
      (.single ⟨_, ⟨goes.1, idle⟩, goes.2⟩) goesOn⟩

end Run

end AtOS
