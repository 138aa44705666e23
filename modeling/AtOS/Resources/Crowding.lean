import AtOS.Resources.ExecFailures
import AtOS.Resources.ForkCopies

/-! A program forks until one kernel stack is left, and runs itself again, which takes that one. -/

namespace AtOS

open ByteMemory RadixForest SlotTable

variable {files : String → Option (List UInt8)} {m next : Machine} {self changed : Process}
  {ctx frame : ExceptionContext} {devices : Devices} {count : Nat}

section Steps

/-- A trap comes to what its handler leaves. -/
theorem Machine.Step.trap_eq {result : Except Stop Machine}
    (step : m.Step files (.trap ctx devices) result) :
    result = m.after (m.kernel.handleExceptionEl1 files devices ctx) := by
  -- No other step has this action.
  cases step with
  | trap running fromUser stack table => rfl

/-- A process that is alive holds what its registers name. -/
theorem Machine.entries_holding {process : Process} {pid : UInt64}
    (there : m.entries pid = some process) (alive : process.state ≠ .terminated) :
    m.kernel.resources.holding pid = some process.pctx.holding := by
  show (m.entries pid).bind Process.holding = _
  rw [there]
  exact Process.holding_alive alive

/-- A process that does not run goes on with what its registers name. -/
theorem Machine.entries_base {process : Process} {pid : UInt64}
    (there : m.entries pid = some process) (alive : process.state ≠ .terminated)
    (idle : m.running ≠ some pid) (awake : m.suspended = fun _ => none) :
    m.base pid = some process.pctx.holding := by
  rw [Machine.base_waiting idle, awake]
  exact Machine.entries_holding there alive

/-- One entry of the table has been replaced; the empty slots and the sleepers are as before. -/
structure Machine.Replaced (m next : Machine) (process changed : Process) : Prop where
  pid : changed.pid = process.pid
  current : next.kernel.getCurrentProcess = some changed
  entries : next.entries = Function.update m.entries process.pid (some changed)
  vacant : next.kernel.vacantSlots = m.kernel.vacantSlots
  nextPid : next.kernel.nextPid = m.kernel.nextPid
  suspended : next.suspended = m.suspended

/-- `sys_exec` that returns has changed the entry of its process at most. -/
theorem Kernel.Runs.sysExec_table {k : Kernel} {inKernel : UInt64 → Bool}
    (runs : k.Runs inKernel self) (files : String → Option (List UInt8)) (ctx : ExceptionContext) :
    (∃ stop, k.sysExec files ctx = .stopped stop) ∨ ∃ after context changed,
      k.sysExec files ctx = .returned after context ∧ changed.pid = self.pid ∧
        after.processTable = put k.processTable k.currentProcess (some changed) ∧
        after.currentProcess = k.currentProcess ∧ after.nextPid = k.nextPid := by
  -- Where nothing changes, the entry is the one that is there.
  have unchanged : k.processTable = put k.processTable k.currentProcess (some self) := by
    rw [← runs.current]
    exact (Function.update_eq_self _ _).symm
  unfold Kernel.sysExec Kernel.getCurrentProcess
  rw [runs.current]
  split
  · exact Or.inl ⟨_, rfl⟩
  · exact Or.inr ⟨_, _, self, rfl, rfl, unchanged, rfl, rfl⟩
  rename_i args reads
  dsimp only
  split
  · rename_i process bytes isSelf file
    cases isSelf
    unfold Kernel.execFile
    split
    · exact Or.inl ⟨_, rfl⟩
    · rename_i error after failed
      -- An `exec` that fails has changed the entry or nothing at all.
      rcases Kernel.exec_ok failed with ⟨mid, pctx, ⟨_, _, rfl⟩, rfl⟩ | ⟨⟨_, _, rfl⟩, -⟩
      · exact Or.inr ⟨_, _, { self with pctx }, rfl, rfl, rfl, rfl, rfl⟩
      · exact Or.inr ⟨_, _, self, rfl, rfl, unchanged, rfl, rfl⟩
    · rename_i after done
      -- An `exec` that succeeds replaces the context, and then the name is set.
      obtain ⟨pctx, current, table⟩ := Kernel.exec_entry done
      have nextPid : after.nextPid = k.nextPid := by
        rcases Kernel.exec_ok done with ⟨mid, _, ⟨_, _, rfl⟩, rfl⟩ | ⟨⟨_, _, rfl⟩, -⟩ <;> rfl
      rw [current, table, put_self]
      refine Or.inr ⟨_, _, { self with pctx, name := processName (args.headD "") }, rfl, rfl, ?_,
        current, nextPid⟩
      show put after.processTable k.currentProcess _ = _
      rw [table, put_put]
  · exact Or.inr ⟨_, _, self, rfl, rfl, unchanged, rfl, rfl⟩

/-- A program that asks for `exec`, and runs on, has changed its own entry at most. -/
theorem Machine.Valid.replaces (valid : m.Valid) (running : m.control = .user frame)
    (current : m.kernel.getCurrentProcess = some self) (isExec : ctx.IsSyscall 5)
    (stack : ctx.spEl1 = frame.spEl1) (table : ctx.ttbr0 = frame.ttbr0)
    (quiet : devices.uartReady = false) (step : m.Step files (.trap ctx devices) (.ok next)) :
    ∃ changed, m.Replaced next self changed := by
  obtain ⟨process, mid, traps, handles, -⟩ := valid.calls running isExec stack table files devices
  have same : m.kernel.getCurrentProcess = some process := traps.runs.current
  rw [current, Option.some.injEq] at same
  subst same
  have sysExec : mid.handleSyscall files ctx = mid.sysExec files ctx := by
    rw [Kernel.handleSyscall, isExec.immediate]
    rfl
  have result := step.trap_eq
  rw [handles, sysExec] at result
  -- The entry saves the registers, and then `sys_exec` changes the same entry.
  have runs := traps.entered.runs
  obtain ⟨saved, slot, pids⟩ := traps.runs.entered_quiet traps.fromUser quiet traps.entry
  rcases runs.sysExec_table files ctx with
    ⟨stop, stopped⟩ | ⟨after, context, changed, returned, pid, put, stays, nextPid⟩
  · rw [stopped] at result
    cases result
  rw [returned] at result
  obtain rfl := Machine.after_returned result.symm
  have entries := (runs.distinct.put_same runs.current pid).2
  have found := (traps.runs.distinct.put_same traps.runs.current
    (show Process.pid { self with pctx := .fromEctx ctx } = self.pid from rfl)).2
  refine ⟨changed, pid, ?_, ?_, ?_, nextPid.trans pids, rfl⟩
  · show after.processTable after.currentProcess = _
    rw [put, stays, put_self]
  · show entriesOf after.processTable = _
    rw [put, entries, saved, found]
    exact Function.update_idem ..
  · show after.vacantSlots = _
    rw [Kernel.vacantSlots_replaced runs.current put,
      Kernel.vacantSlots_replaced traps.runs.current saved]

end Steps

section Crowd

/-- An address space of thirteen to 46 frames. -/
def MidSized (mem : Mem) (root : Nat) : Prop :=
  13 ≤ (nodes (child mem) 3 root).ncard ∧ (nodes (child mem) 3 root).ncard ≤ 46

/-- Its size is that of its copy, and stays while the address space is kept. -/
theorem MidSized.congr {before after : Mem} {root other : Nat} (sized : MidSized before root)
    (same : (nodes (child after) 3 other).ncard = (nodes (child before) 3 root).ncard) :
    MidSized after other := by
  unfold MidSized
  rw [same]
  exact sized

/-- The small program runs, all others are ready, and there are stacks for so many children more. -/
structure Machine.Crowded (m : Machine) (frame : ExceptionContext) (process : Process)
    (count : Nat) : Prop where
  orderly : m.Orderly 146 count
  running : m.control = .user frame
  current : m.kernel.getCurrentProcess = some process
  words : HoldsWords m.kernel.alloc.mem frame.ttbr0.toNat
  sized : MidSized m.kernel.alloc.mem frame.ttbr0.toNat
  others : ∀ pid other, m.entries pid = some other → pid ≠ process.pid →
    other.state = .ready ∧ MidSized m.kernel.alloc.mem other.pctx.ttbr0.toNat
  unqueued : ∀ slot pid, m.kernel.kernelStacks slot ≠ .queuedToFree pid
  few : (m.kernel.stacksIn StackState.isFree).card ≤ count

/-- A fork of the small program leaves one child more, and one stack less. -/
theorem Machine.Crowded.forks (crowded : m.Crowded frame self (count + 1)) :
    ∃ next context saved child,
      m.Step wordsFiles (.trap (frame.calling 4 frame.x) ⟨false, false, false⟩) (.ok next) ∧
        next.Crowded context saved count ∧ saved.pid = self.pid ∧
        next.entries child.pid = some child ∧ child.pid ≠ self.pid := by
  obtain ⟨next, saved, child, goes, orderlyNext, hasForked⟩ :=
    crowded.orderly.forks_goes wordsFiles_loadsFresh crowded.running crowded.current
  obtain ⟨_, isSaved⟩ := hasForked.same
  have samePid : saved.pid = self.pid := by rw [isSaved]
  -- The child has a pid that was nobody's.
  have runs := crowded.orderly.valid.runs crowded.running crowded.current
  have fresh : child.pid ≠ self.pid := by
    intro same
    have missing := runs.fresh
    rw [← hasForked.pid, same] at missing
    exact absurd (missing.symm.trans runs.here) (by simp)
  have there : next.entries child.pid = some child := by
    rw [hasForked.entries, Function.update_self]
  -- The same step is one of `sys_fork`, so the child is a copy, and everybody else is kept.
  obtain ⟨roots, free, managed, owns⟩ := crowded.orderly.owned
  have isFork := frame.isSyscall_calling 4 (by decide) frame.x
  obtain ⟨process, mid, traps, handles, -⟩ := crowded.orderly.valid.calls crowded.running isFork
    rfl rfl wordsFiles ⟨false, false, false⟩
  obtain ⟨rfl, finds⟩ := crowded.orderly.finds crowded.current rfl traps
  have sysFork : mid.handleSyscall wordsFiles (frame.calling 4 frame.x) =
      mid.sysFork (frame.calling 4 frame.x) := by
    rw [Kernel.handleSyscall, isFork.immediate]
    rfl
  have result := goes.2.trap_eq
  rw [handles, sysFork] at result
  obtain ⟨after, context, returned⟩ : ∃ after context,
      mid.sysFork (frame.calling 4 frame.x) = .returned after context := by
    rcases finds.runs.sysFork_cases (frame.calling 4 frame.x) with
      ⟨stop, stopped, -⟩ | ⟨_, _, _, _, _, _, returned⟩
    · rw [stopped] at result
      cases result
    · exact ⟨_, _, returned⟩
  obtain ⟨slot, copy, vacant, table, isFrame, copies, kept, size⟩ := traps.forks owns returned
  rw [returned] at result
  have isNext := Machine.after_returned result.symm
  subst isNext
  -- There is one new process, so the copy is the child.
  have isCopy : copy = child := by
    obtain ⟨_, _, entry, -⟩ := copies.entry
    have pid : copy.pid = child.pid := by
      rw [entry]
      exact finds.nextPid.trans hasForked.pid.symm
    have entered : after.processTable slot = some copy := by rw [table, put_self]
    have here := orderlyNext.valid.distinct.entriesOf_slot entered
    rw [pid] at here
    exact Option.some.inj (here.symm.trans there)
  subst isCopy
  have live : frame.ttbr0.toNat ∈ roots := traps.live owns
  have sameTable : context.ttbr0 = frame.ttbr0 := by rw [isFrame]; rfl
  -- Nothing was queued, so only the stack of the child has changed.
  obtain ⟨_, stack, -, unused, given⟩ := copies.entry
  have sameStacks : mid.kernelStacks = m.kernel.kernelStacks := by
    rw [(traps.runs.entered_stacks traps.fromUser traps.entry).1]
    exact funext fun slot => StackState.afterFreeing_mine fun pid queued =>
      absurd queued (crowded.unqueued slot pid)
  rw [sameStacks] at unused given
  refine ⟨_, context, saved, copy, goes.2,
    ⟨orderlyNext, rfl, hasForked.current, ?_, ?_, ?_, ?_, ?_⟩, samePid, there, fresh⟩
  · -- The parent's own image is as it was.
    rw [sameTable]
    exact crowded.words.kept kept live
  · rw [sameTable]
    exact crowded.sized.congr (congrArg Set.ncard (kept.nodes live))
  · -- Whoever is there now is the child, or has been there before.
    intro pid other here notSelf
    rw [hasForked.entries, Function.update_apply, Function.update_apply, if_neg notSelf] at here
    split at here
    · cases here
      exact ⟨hasForked.ready, crowded.sized.congr size⟩
    · obtain ⟨ready, sized⟩ := crowded.others pid other here (samePid ▸ notSelf)
      have otherLive : other.pctx.ttbr0.toNat ∈ roots :=
        owns.sound.assigned.live (Machine.entries_holding here (by simp [ready]))
      exact ⟨ready, sized.congr (congrArg Set.ncard (kept.nodes otherLive))⟩
  · intro slot pid queued
    rw [given, Function.update_apply] at queued
    split at queued
    · cases queued
    · exact crowded.unqueued slot pid queued
  · -- The child's stack was one of those that were free.
    have subset : Kernel.stacksIn after StackState.isFree ⊆
        (m.kernel.stacksIn StackState.isFree).erase stack := by
      intro slot isFree
      rw [Kernel.mem_stacksIn, given, Function.update_apply] at isFree
      split at isFree
      · cases isFree
      · rename_i other
        exact Finset.mem_erase.mpr ⟨other, Kernel.mem_stacksIn.mpr isFree⟩
    have mine : stack ∈ m.kernel.stacksIn StackState.isFree := by
      rw [Kernel.mem_stacksIn, unused]
      rfl
    have less := Finset.card_le_card subset
    have few := crowded.few
    rw [Finset.card_erase_of_mem mine] at less
    show (Kernel.stacksIn after StackState.isFree).card ≤ count
    omega

/-- After boot the small program runs alone, and 49 kernel stacks are free. -/
theorem wordsStart_crowded : ∃ (m : Machine) (frame : ExceptionContext) (self : Process),
    m.Reachable wordsFiles ∧ m.Crowded frame self 49 := by
  obtain ⟨boot, init, booted, orderly, isInit, ⟨frame, looping⟩, entries, -⟩ :=
    wordsStart_orderly 146 49 (by decide) le_rfl (by decide)
  obtain ⟨process, stack, here, words, least, -, most, slots⟩ := booted.holdsWords
  -- The only process is the one in the first slot.
  have there : boot.entries 1 = some init := by
    rw [entries, Function.update_self]
  have same : boot.entries process.pid = some process :=
    orderly.valid.distinct.entriesOf_slot here
  rw [entries, Function.update_apply] at same
  split at same
  case isFalse => cases same
  cases same
  -- It is ready, so it is taken up.
  have only : ∀ found second, boot.entries found = some second → second.state = .ready →
      found = 1 ∨ (boot.kernel.getCurrentProcess = some second ∧ found ≠ 1) := by
    intro found second inTable ready
    rw [entries, Function.update_apply] at inTable
    split at inTable
    · exact Or.inl ‹_›
    · cases inTable
  obtain ⟨m, goes, orderlyNext, loaded⟩ :=
    orderly.schedules wordsFiles_loadsFresh looping there isInit.ready only
  obtain ⟨context, running⟩ := loaded.running
  have alloc : m.kernel.alloc = boot.kernel.alloc := congrArg Resources.alloc loaded.resources
  have kernelStacks : m.kernel.kernelStacks =
      Function.update (fun _ => .free) stack (.allocated 1) :=
    (congrArg Resources.kernelStacks loaded.resources).trans slots
  have table : context.ttbr0 = init.pctx.ttbr0 := by
    have holding := loaded.holding
    rw [running] at holding
    exact congrArg Holding.ttbr0 holding
  refine ⟨m, context, _, ⟨_, boot, booted, .single ⟨_, trivial, goes.2⟩⟩, orderlyNext, running,
    loaded.current, ?_, ?_, ?_, ?_, ?_⟩
  · rw [alloc, table]
    exact words
  · rw [alloc, table]
    exact ⟨least, most⟩
  · -- There is nobody else.
    intro pid other inTable notSelf
    rw [loaded.entries, entries, Function.update_of_ne notSelf, isInit.pid.symm,
      Function.update_of_ne notSelf] at inTable
    cases inTable
  · intro slot pid queued
    rw [kernelStacks, Function.update_apply] at queued
    split at queued <;> cases queued
  · -- All stacks but one are free.
    have subset : m.kernel.stacksIn StackState.isFree ⊆ Finset.univ.erase stack := by
      intro slot isFree
      rw [Finset.mem_erase]
      refine ⟨?_, Finset.mem_univ _⟩
      rintro rfl
      rw [Kernel.mem_stacksIn, kernelStacks, Function.update_self] at isFree
      cases isFree
    refine (Finset.card_le_card subset).trans ?_
    rw [Finset.card_erase_of_mem (Finset.mem_univ _), Finset.card_univ, Fintype.card_fin]
    decide

/-- It can fork as long as kernel stacks are free. -/
theorem Machine.Crowded.forksOften (count more : Nat) :
    ∀ {m : Machine} {frame : ExceptionContext} {self : Process},
      m.Reachable wordsFiles → m.Crowded frame self (count + more) →
      ∃ (next : Machine) (context : ExceptionContext) (saved : Process),
        next.Reachable wordsFiles ∧ next.Crowded context saved count := by
  -- The induction is on the number of the children still to come.
  induction more with
  | zero => exact fun reached crowded => ⟨_, _, _, reached, crowded⟩
  | succ more ih =>
    intro m frame self reached crowded
    obtain ⟨next, context, saved, -, step, crowdedNext, -⟩ := crowded.forks
    exact ih (reached.step step) crowdedNext

end Crowd

section Jam

/-- The small program runs, all others are ready, and no kernel stack is free. -/
structure Machine.Jammed (m : Machine) (frame : ExceptionContext) (process : Process) : Prop where
  small : m.RunsWords frame 146
  current : m.kernel.getCurrentProcess = some process
  others : ∀ pid other, m.entries pid = some other → pid ≠ process.pid →
    other.state = .ready ∧ MidSized m.kernel.alloc.mem other.pctx.ttbr0.toNat
  accompanied : ∃ pid other, m.entries pid = some other ∧ pid ≠ process.pid
  full : ∀ slot, m.kernel.kernelStacks slot ≠ .free
  queued : ∃ old, ∀ slot pid, m.kernel.kernelStacks slot = .queuedToFree pid →
    slot = old ∧ pid = process.pid
  vacant : m.kernel.vacantSlots.Nonempty
  room : m.kernel.nextPid.toNat + 1 < 2 ^ 64
  awake : m.suspended = fun _ => none

/-- With one stack left, the small program runs itself again, and takes it. -/
theorem Machine.Crowded.jams (crowded : m.Crowded frame self 1)
    (accompanied : ∃ pid other, m.entries pid = some other ∧ pid ≠ self.pid) :
    ∃ next context changed,
      m.Step wordsFiles (.trap (frame.rerunning 1) ⟨false, false, false⟩) (.ok next) ∧
        next.Jammed context changed := by
  have valid := crowded.orderly.valid
  have affords := crowded.orderly.affords
  -- There are frames enough, and one stack.
  have frames := affords.frames
  have small : m.RunsWords frame 152 :=
    ⟨crowded.orderly.owned, crowded.running, crowded.words, by omega, crowded.sized.2⟩
  obtain ⟨vacant, isFree⟩ := Finset.card_pos.mp affords.unused
  have room : m.kernel.kernelStacks vacant = .free := by
    rw [Kernel.mem_stacksIn] at isFree
    cases state : m.kernel.kernelStacks vacant with
    | free => rfl
    | allocated pid => simp [state, StackState.isFree] at isFree
    | queuedToFree pid => simp [state, StackState.isFree] at isFree
  obtain ⟨next, context, pid, old, stack, step, execsWell, smallNext, reran⟩ :=
    small.reruns valid (by decide) room ⟨false, false, false⟩
  have isPid : pid = self.pid := by
    have current := reran.current
    rw [crowded.current] at current
    exact (Option.some.inj current).symm
  subst isPid
  obtain ⟨changed, replaced⟩ := valid.replaces crowded.running crowded.current
    (frame.isSyscall_calling 5 (by decide) (argumentRegisters 0x100 0x100 (UInt64.ofNat 1)))
    rfl rfl rfl step
  -- Nothing was queued before, and the stack that was given out was the last one.
  have same : ∀ slot, (m.kernel.kernelStacks slot).afterFreeing self.pid =
      m.kernel.kernelStacks slot := fun slot =>
    StackState.afterFreeing_mine fun pid queued => absurd queued (crowded.unqueued slot pid)
  have unused := reran.unused
  rw [same] at unused
  have last : ∀ slot, m.kernel.kernelStacks slot = .free → slot = stack := by
    intro slot here
    have few := Finset.card_le_one.mp crowded.few
    exact few slot (by rw [Kernel.mem_stacksIn, here]; rfl) stack
      (by rw [Kernel.mem_stacksIn, unused]; rfl)
  have slots := reran.kernelStacks
  refine ⟨next, context, changed, step, smallNext, replaced.current, ?_, ?_, ?_, ⟨old, ?_⟩, ?_, ?_,
    replaced.suspended.trans crowded.orderly.awake⟩
  · -- The others are as they were.
    intro pid other here notSelf
    rw [replaced.pid] at notSelf
    rw [replaced.entries, Function.update_of_ne notSelf] at here
    obtain ⟨ready, sized⟩ := crowded.others pid other here notSelf
    obtain ⟨roots, free, managed, owns⟩ := crowded.orderly.owned
    have runs := valid.runs crowded.running crowded.current
    have idle : m.running ≠ some pid := by
      unfold Machine.running
      rw [crowded.running]
      show m.kernel.currentPid ≠ some pid
      rw [runs.currentPid]
      exact fun same => notSelf (Option.some.inj same).symm
    have goesOn := Machine.entries_base here (by simp [ready]) idle crowded.orderly.awake
    obtain ⟨-, kept⟩ :=
      (step.outcome valid).spares valid owns wordsFiles_loadsFresh execsWell goesOn idle
    exact ⟨ready, sized.congr (congrArg Set.ncard (kept.nodes rfl))⟩
  · obtain ⟨pid, other, there, apart⟩ := accompanied
    refine ⟨pid, other, ?_, replaced.pid ▸ apart⟩
    rw [replaced.entries, Function.update_of_ne apart]
    exact there
  · -- The last free stack is the new one.
    intro slot here
    rw [slots, Function.update_apply, Function.update_apply] at here
    split at here
    · cases here
    · split at here
      · cases here
      · rename_i notLast _
        exact notLast (last slot (same slot ▸ here))
  · -- Only the old stack is queued.
    intro slot pid here
    rw [slots, Function.update_apply, Function.update_apply] at here
    split at here
    · cases here
    · split at here
      · cases here
        exact ⟨‹_›, replaced.pid.symm⟩
      · rw [same] at here
        exact absurd here (crowded.unqueued slot pid)
  · rw [replaced.vacant]
    exact Finset.card_pos.mp affords.slots
  · rw [replaced.nextPid]
    exact affords.pids

/-- So it comes about that the small program runs while no kernel stack is free. -/
theorem wordsStart_jammed : ∃ (m : Machine) (frame : ExceptionContext) (self : Process),
    m.Reachable wordsFiles ∧ m.Jammed frame self := by
  obtain ⟨first, frame, init, reached, crowded⟩ := wordsStart_crowded
  obtain ⟨m, context, self, reachedOften, crowdedOften⟩ :=
    Machine.Crowded.forksOften 2 47 reached crowded
  -- The last child shows that the program is not alone.
  obtain ⟨next, last, saved, child, step, crowdedNext, samePid, there, apart⟩ := crowdedOften.forks
  obtain ⟨jammed, contextJammed, changed, stepJammed, jam⟩ :=
    crowdedNext.jams ⟨_, child, there, samePid ▸ apart⟩
  exact ⟨jammed, contextJammed, changed, (reachedOften.step step).step stepJammed, jam⟩

end Jam

end AtOS
