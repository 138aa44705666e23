import AtOS.Resources.Trapping

/-! `fork` makes a whole child as long as nothing runs out, and panics otherwise. -/

namespace AtOS

open SlotTable

variable {files : String → Option (List UInt8)} {k mid : Kernel} {m : Machine} {self : Process}
  {ctx frame : ExceptionContext} {devices : Devices} {inKernel : UInt64 → Bool}

/-- What `fork` is to come to: one child and its pid, or -1 with everything as it was. -/
inductive Kernel.ForksWhole (k : Kernel) (process : Process) (ctx : ExceptionContext) :
    Handled → Prop
  | child {next : Kernel} {slot : Fin maxProcesses} {child : Process}
      (vacant : k.processTable slot = none)
      (table : next.processTable = put k.processTable slot (some child))
      (ready : child.state = .ready) (parent : child.parentPid = process.pid)
      (fresh : ∀ other second, k.processTable other = some second → second.pid ≠ child.pid) :
      ForksWhole k process ctx (.returned next (ctx.setX 0 child.pid))
  | refused {next : Kernel} (table : next.processTable = k.processTable)
      (kernelStacks : next.kernelStacks = k.kernelStacks)
      (frames : SameFree k.alloc next.alloc) :
      ForksWhole k process ctx (.returned next (ctx.setX 0 failure))

/-- A `fork` that does not panic makes a whole child. -/
theorem Kernel.Runs.forksWhole_or_stopped (runs : k.Runs inKernel self) (ctx : ExceptionContext) :
    (k.ForksWhole self ctx (k.sysFork ctx) ∧
        (∃ child next, k.forkProcess self = .ok (.ok child, next)) ∧
        ∃ slot, k.processTable slot = none) ∨
      ∃ stop, k.sysFork ctx = .stopped stop := by
  -- Either the call stops, or there is a child.
  rcases runs.sysFork_cases ctx with
    ⟨stop, stopped, -⟩ | ⟨child, next, slot, forks, forked, found, returned⟩
  · exact Or.inr ⟨stop, stopped⟩
  · refine Or.inl ⟨?_, ⟨child, next, forks⟩, slot, firstFree_some found⟩
    rw [returned]
    obtain ⟨alloc, kernelStacks, same⟩ := forked.same
    -- The pid of the child is the next one, and nobody in the table has that yet.
    have fresh : ∀ other second, k.processTable other = some second → second.pid ≠ child.pid := by
      intro other second there samePid
      have here := runs.distinct.entriesOf_slot there
      rw [samePid, forked.pid, runs.fresh] at here
      cases here
    have table : ((next.setEntry slot (some { child with pctx := child.pctx.setX 0 0 })).record
        (.created child.pid (child.pctx.setX 0 0))).processTable =
        put k.processTable slot (some { child with pctx := child.pctx.setX 0 0 }) := by
      rw [same]
      rfl
    exact @Kernel.ForksWhole.child k self ctx _ slot { child with pctx := child.pctx.setX 0 0 }
      (firstFree_some found) table forked.ready forked.parent fresh

/-- A `fork` that gets all it asks for does not panic. -/
theorem Kernel.Runs.sysFork_returns (runs : k.Runs inKernel self)
    {child : Process} {next : Kernel} (forks : k.forkProcess self = .ok (.ok child, next))
    {slot : Fin maxProcesses} (vacant : k.processTable slot = none) (stop : Stop) :
    k.sysFork ctx ≠ .stopped stop := by
  intro stopped
  -- Nothing but the allocator and the stacks has changed in between.
  have current : k.getCurrentProcess = some self := runs.current
  obtain ⟨alloc, kernelStacks, same⟩ := (Kernel.forkProcess_ok forks).same
  have table : next.processTable = k.processTable := by
    rw [same]
  unfold Kernel.sysFork at stopped
  rw [current] at stopped
  dsimp only at stopped
  rw [forks] at stopped
  dsimp only [Kernel.addProcessToPtable] at stopped
  -- The slot is still there, so there is a place for the child.
  cases found : firstFree next.processTable with
  | some slot =>
    rw [found] at stopped
    cases stopped
  | none =>
    have full := firstFree_none.mp found slot
    rw [table, vacant] at full
    cases full

/-- In each state, `fork` is all or nothing exactly if it makes a child and there is a slot for it. -/
theorem Kernel.Runs.sysFork_whole_iff (runs : k.Runs inKernel self) (ctx : ExceptionContext) :
    k.ForksWhole self ctx (k.sysFork ctx) ↔
      (∃ child next, k.forkProcess self = .ok (.ok child, next)) ∧
        ∃ slot, k.processTable slot = none := by
  constructor
  · intro whole
    rcases runs.forksWhole_or_stopped ctx with ⟨-, room⟩ | ⟨stop, stopped⟩
    · exact room
    · rw [stopped] at whole
      cases whole
  · rintro ⟨⟨child, next, forks⟩, slot, vacant⟩
    rcases runs.forksWhole_or_stopped ctx with ⟨whole, -⟩ | ⟨stop, stopped⟩
    · exact whole
    · exact absurd stopped (runs.sysFork_returns forks vacant stop)

section Run

variable {start : Kernel} {boot : Machine} {first limit : Nat}

/--
In a run in which no `exec` fails, `fork` is all or nothing exactly if there are frames for the
address space and the kernel stack of the child, a kernel stack, a pid and a slot of the table.
-/
theorem Machine.Booted.forksWhole_iff (booted : Machine.Booted files start boot)
    (prepared : start.Prepared first limit)
    (loadsFresh : ∀ path bytes, files path = some bytes → LoadsFresh bytes)
    (run : Machine.Runs files (Machine.ExecsWell files) boot m) (running : m.control = .user frame)
    (isFork : ctx.IsSyscall 4) (stack : ctx.spEl1 = frame.spEl1) (table : ctx.ttbr0 = frame.ttbr0)
    (entry : m.kernel.entered devices ctx = .ok mid)
    (current : mid.getCurrentProcess = some self) :
    mid.ForksWhole self ctx (m.kernel.handleExceptionEl1 files devices ctx) ↔
      mid.HasFrames self ∧ ∃ slot, mid.processTable slot = none := by
  -- The state is one where everybody owns what it has.
  obtain ⟨valid, roots, free, owns⟩ := run.owns booted prepared loadsFresh
  obtain ⟨process, other, traps, handles, -⟩ := valid.calls running isFork stack table files devices
  have same := traps.entry
  rw [entry, Except.ok.injEq] at same
  subst same
  have runsMid := traps.entered.runs
  have isSelf : mid.getCurrentProcess = some { process with pctx := .fromEctx ctx } :=
    runsMid.current
  rw [current, Option.some.injEq] at isSelf
  rw [← isSelf] at runsMid
  have sysFork : mid.handleSyscall files ctx = mid.sysFork ctx := by
    rw [Kernel.handleSyscall, isFork.immediate]
    rfl
  -- The process owns its page table and is on top of its kernel stack, so that counting is exact.
  obtain ⟨freed, sound, -⟩ := traps.sound owns
  obtain ⟨top, onTop⟩ := traps.onTop owns
  rw [← isSelf] at onTop
  have live : self.pctx.ttbr0.toNat ∈ roots := sound.assigned.live runsMid.holding
  -- The next pid has no stack yet.
  have inactive : ∀ other, mid.kernelStacks other ≠ .allocated mid.nextPid := by
    intro other here
    have alive := sound.assigned.slots.alive here
    rw [runsMid.fresh_holding] at alive
    cases alive
  rw [handles, sysFork, runsMid.sysFork_whole_iff,
    Kernel.forkProcess_iff sound.accounted sound.assigned.slots onTop live inactive]

end Run

section Exhausted

/-- The slots of the process table that are empty. -/
def Kernel.vacantSlots (k : Kernel) : Finset (Fin maxProcesses) :=
  Finset.univ.filter fun slot => k.processTable slot = none

/-- The empty slots. -/
theorem Kernel.mem_vacantSlots {slot : Fin maxProcesses} :
    slot ∈ k.vacantSlots ↔ k.processTable slot = none := by
  simp [Kernel.vacantSlots]

/-- A program that runs forks: the kernel panics, or one slot less is empty. -/
theorem Machine.forks_or_stops (valid : m.Valid) (running : m.control = .user frame) :
    ∃ mid self, m.kernel.entered ⟨false, false, false⟩ (frame.calling 4 frame.x) = .ok mid ∧
      mid.getCurrentProcess = some self ∧
      ((∃ stop, m.kernel.handleExceptionEl1 files ⟨false, false, false⟩ (frame.calling 4 frame.x) =
          .stopped stop) ∨
        ∃ next context, m.Step files (.trap (frame.calling 4 frame.x) ⟨false, false, false⟩)
            (.ok next) ∧ next.control = .user context ∧
          next.kernel.vacantSlots.card < m.kernel.vacantSlots.card) := by
  -- The call is number 4.
  have isFork := frame.isSyscall_calling 4 (by decide) frame.x
  obtain ⟨self, mid, traps, handles, step⟩ :=
    valid.calls running isFork rfl rfl files ⟨false, false, false⟩
  have runsMid := traps.entered.runs
  have sysFork : mid.handleSyscall files (frame.calling 4 frame.x) =
      mid.sysFork (frame.calling 4 frame.x) := by
    rw [Kernel.handleSyscall, isFork.immediate]
    rfl
  rw [sysFork] at handles step
  refine ⟨mid, _, traps.entry, runsMid.current, ?_⟩
  -- A fork stops, or it takes a slot.
  rcases runsMid.sysFork_cases (frame.calling 4 frame.x) with
    ⟨stop, stopped, -⟩ | ⟨child, after, slot, forks, forked, found, returned⟩
  · exact Or.inl ⟨stop, handles.trans stopped⟩
  · refine Or.inr ?_
    rw [returned] at step
    refine ⟨_, _, step, rfl, Finset.card_lt_card ?_⟩
    obtain ⟨alloc, kernelStacks, same⟩ := forked.same
    obtain ⟨table, -, -⟩ := traps.runs.entered_quiet traps.fromUser rfl traps.entry
    have vacant := firstFree_some found
    -- The slot of the running process is taken, so the child gets one that was empty before.
    have apart : slot ≠ m.kernel.currentProcess := by
      rintro rfl
      rw [table, put_self] at vacant
      cases vacant
    rw [table, put_of_ne _ _ _ apart] at vacant
    rw [Finset.ssubset_iff_of_subset]
    · refine ⟨slot, Kernel.mem_vacantSlots.mpr vacant, fun still => ?_⟩
      have still := Kernel.mem_vacantSlots.mp still
      simp [Kernel.record, Kernel.setEntry] at still
    · -- The other slots that are empty were so before.
      intro other isVacant
      have isVacant := Kernel.mem_vacantSlots.mp isVacant
      rw [Kernel.mem_vacantSlots]
      have there : put mid.processTable slot (some { child with pctx := child.pctx.setX 0 0 }) other =
          none := by
        rw [same] at isVacant
        exact isVacant
      by_cases isSlot : other = slot
      · rw [isSlot, put_self] at there
        cases there
      · rw [put_of_ne _ _ _ isSlot, table] at there
        by_cases isCurrent : other = m.kernel.currentProcess
        · rw [isCurrent, put_self] at there
          cases there
        · rwa [put_of_ne _ _ _ isCurrent] at there

/-- A program that forks again and again comes to a `fork` that panics. -/
theorem Machine.forks_until_stopped (count : Nat) : ∀ {m : Machine} {frame : ExceptionContext},
    m.Reachable files → m.control = .user frame → m.kernel.vacantSlots.card < count →
    ∃ (last : Machine) (frame : ExceptionContext) (mid : Kernel) (self : Process) (stop : Stop),
      last.Reachable files ∧ last.control = .user frame ∧
      last.kernel.entered ⟨false, false, false⟩ (frame.calling 4 frame.x) = .ok mid ∧
      mid.getCurrentProcess = some self ∧
      last.kernel.handleExceptionEl1 files ⟨false, false, false⟩ (frame.calling 4 frame.x) =
        .stopped stop := by
  -- The induction is on a bound for the empty slots.
  induction count with
  | zero =>
    intro m frame reached running few
    omega
  | succ count ih =>
    intro m frame reached running few
    -- Either this fork stops, or one more slot is taken.
    obtain ⟨mid, self, entry, current, ⟨stop, stopped⟩ | ⟨next, context, step, goesOn, fewer⟩⟩ :=
      @Machine.forks_or_stops files m frame reached.valid running
    · exact ⟨m, frame, mid, self, stop, reached, running, entry, current, stopped⟩
    · obtain ⟨start, boot, booted, run⟩ := reached
      exact ih ⟨start, boot, booted, run.tail ⟨_, trivial, step⟩⟩ goesOn (by omega)

/-- In the system of the small program, some `fork` of a program that only forks panics. -/
theorem onlyForks_counterexample :
    ∃ (m : Machine) (frame : ExceptionContext) (mid : Kernel) (self : Process) (stop : Stop),
      m.Reachable wordsFiles ∧ m.control = .user frame ∧
      (frame.calling 4 frame.x).IsSyscall 4 ∧
      m.kernel.entered ⟨false, false, false⟩ (frame.calling 4 frame.x) = .ok mid ∧
      mid.getCurrentProcess = some self ∧
      m.kernel.handleExceptionEl1 wordsFiles ⟨false, false, false⟩ (frame.calling 4 frame.x) =
        .stopped stop ∧
      ¬ mid.ForksWhole self (frame.calling 4 frame.x) (m.kernel.handleExceptionEl1 wordsFiles
        ⟨false, false, false⟩ (frame.calling 4 frame.x)) := by
  -- The run begins in the first program.
  obtain ⟨m, frame, reached, running⟩ := wordsFiles_runs
  obtain ⟨last, context, mid, self, stop, reachedLast, runningLast, entry, current, stopped⟩ :=
    Machine.forks_until_stopped _ reached running (Nat.lt_succ_self _)
  refine ⟨last, context, mid, self, stop, reachedLast, runningLast,
    context.isSyscall_calling 4 (by decide) context.x, entry, current, stopped, ?_⟩
  -- A call that stops is no fork at all.
  rw [stopped]
  intro whole
  cases whole

/-- The first `fork` of the small program. -/
theorem forksWhole_words : ∃ (m : Machine) (frame : ExceptionContext) (mid : Kernel)
    (self : Process), m.Reachable wordsFiles ∧ m.control = .user frame ∧
      m.kernel.entered ⟨false, false, false⟩ (frame.calling 4 frame.x) = .ok mid ∧
      mid.getCurrentProcess = some self ∧
      (mid.ForksWhole self (frame.calling 4 frame.x) (m.kernel.handleExceptionEl1 wordsFiles
          ⟨false, false, false⟩ (frame.calling 4 frame.x)) ↔
        mid.HasFrames self ∧ ∃ slot, mid.processTable slot = none) := by
  obtain ⟨boot, booted⟩ := wordsStart_boots
  obtain ⟨_, _, frame, step, running, -⟩ := booted.schedules
  have noExec : boot.ExecsWell wordsFiles (.schedule false) := fun same => nomatch same
  have reached : Machine.Reachable wordsFiles _ := ⟨_, boot, booted, .single ⟨_, trivial, step⟩⟩
  obtain ⟨mid, self, entry, current, -⟩ :=
    @Machine.forks_or_stops wordsFiles _ frame reached.valid running
  exact ⟨_, frame, mid, self, reached, running, entry, current,
    booted.forksWhole_iff wordsStart_prepared wordsFiles_loadsFresh (.single ⟨_, noExec, step⟩)
      running (frame.isSyscall_calling 4 (by decide) frame.x) rfl rfl entry current⟩

end Exhausted

end AtOS
