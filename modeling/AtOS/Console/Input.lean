import AtOS.Console.Reading
import AtOS.Resources.Sleepers

/-! Readers of the console share its bytes without losing one, and none sleeps in vain. -/

namespace AtOS

open SlotTable

variable {files : String → Option (List UInt8)} {m next : Machine} {action : Action}

section Wakes

variable {t after : ProcessTree}

/-- What runs takes nothing from a process that is ready. -/
theorem ProcessTree.Move.staysReady (move : t.Move after) {pid : UInt64} {process : Process}
    (here : t.entries pid = some process) (ready : process.state = .ready) {runner : UInt64}
    (busy : t.running = some runner) (distinct : pid ≠ runner) :
    ∃ later, after.entries pid = some later ∧ later.state = .ready := by
  -- Only the process that runs changes its own entry,
  have other : ∀ {changed : Process}, t.running = some changed.pid → pid ≠ changed.pid := by
    rintro changed runs rfl
    rw [busy, Option.some.injEq] at runs
    exact distinct runs.symm
  have kept : ∀ {changed : UInt64} {value : Option Process}, pid ≠ changed →
      ∃ later, Function.update t.entries changed value pid = some later ∧ later.state = .ready := by
    intro changed value isOther
    exact ⟨process, (Function.update_of_ne isOther ..).trans here, ready⟩
  -- and a process that exits changes others only in their parent.
  have terminated : ∀ {self : Process} (code : UInt64), pid ≠ self.pid →
      ∃ later, (t.terminated self code).entries pid = some later ∧ later.state = .ready := by
    intro self code isOther
    rw [ProcessTree.terminated_entries, if_neg isOther, here, Option.map_some]
    refine ⟨_, rfl, ?_⟩
    rw [Process.reparent_eq]
    exact ready
  -- No other process stops being ready when one process moves.
  cases move with
  | save runs _ pctx => exact kept (other runs)
  | @wakeup channel proper =>
    refine ⟨process.wakeup channel, ?_, ?_⟩
    · rw [ProcessTree.mapAll_entries, here]
      rfl
    · unfold Process.wakeup
      split
      · rfl
      · -- A wakeup may make processes ready, and none of them stops being so.
        exact ready
  | preempt runs _ saved => exact kept (other runs)
  | exec runs _ pctx name => exact kept (other runs)
  | @fork self child runs _ room childPid parent readyChild awake =>
    by_cases isChild : pid = child.pid
    · refine ⟨child, ?_, readyChild⟩
      rw [isChild]
      exact Function.update_self ..
    · exact kept isChild
  | exit runs _ code unheard => exact terminated code (other runs)
  | @exitDelivered self parent runs _ code above waits =>
    rw [ProcessTree.delivered_entries, if_neg (other runs)]
    split
    · exact ⟨_, rfl, rfl⟩
    · exact terminated code (other runs)
  | @reap self child runs _ target there awaited ended =>
    refine kept ?_
    -- A child that is reaped has terminated, so it is not the ready one.
    rintro rfl
    rw [there, Option.some.injEq] at here
    rw [← here, ended] at ready
    cases ready
  | notFound runs _ target none => exact ⟨process, here, ready⟩
  | await runs _ saved there awaited alive => exact kept (other runs)
  | sleep runs _ proper reason pctx => exact kept (other runs)
  -- The scheduler does not run while a process does.
  | load idle _ _ =>
    rw [busy] at idle
    cases idle

/-- A step takes an exception or makes an idle pass, and so calls `awake_common_chans`. -/
def Action.Looks (action : Action) (next : Machine) : Prop :=
  match action with
  | .trap _ _ | .sleep _ _ => True
  | .acquire _ _ _ | .schedule _ => ∃ frame lockHeld, next.control = .scheduling frame lockHeld
  | _ => False

/-- Whoever sleeps for input is ready once `awake_common_chans` has found a byte. -/
theorem Kernel.awakeCommonChans_ready {k : Kernel} {slot : Fin maxProcesses} {process : Process}
    (there : k.processTable slot = some process) (blocked : process.state = .blocked)
    (forInput : process.chan = awaitingUartRead) :
    ∃ later, (k.awakeCommonChans true).processTable slot = some later ∧ later.pid = process.pid ∧
      later.state = .ready := by
  refine ⟨process.wakeup awaitingUartRead, modifyAll_eq_some _ |>.mpr ⟨process, there, rfl⟩,
    Process.wakeup_pid .., ?_⟩
  rw [Process.wakeup, if_pos ⟨blocked, forInput⟩]

/-- A step that finds a byte makes everybody ready who sleeps for input. -/
theorem Machine.Outcome.wakesReaders (outcome : m.Outcome files action (.ok next))
    (hears : action.uartReady = some true) (looks : action.Looks next) {slot : Fin maxProcesses}
    {process : Process} (there : m.kernel.processTable slot = some process)
    (blocked : process.state = .blocked) (forInput : process.chan = awaitingUartRead) :
    ∃ other later, next.kernel.processTable other = some later ∧ later.pid = process.pid ∧
      later.state = .ready := by
  obtain ⟨woken, isWoken, samePid, ready⟩ :=
    Kernel.awakeCommonChans_ready there blocked forInput
  -- The sleeper is not the process that runs.
  have notRunning : ∀ {self : Process}, m.kernel.Runs m.inKernel self →
      slot ≠ m.kernel.currentProcess := by
    rintro self runs rfl
    rw [runs.current, Option.some.injEq] at there
    rw [← there, runs.state] at blocked
    cases blocked
  -- Even when the running process goes to sleep, the entry of the woken one stays.
  have asleep : ∀ {self : Process} (channel : UInt64) (reason : BlockReason) (pctx : ProcessContext),
      m.kernel.Runs m.inKernel self →
      (m.kernel.asleep self channel reason pctx true).processTable slot = some woken := by
    intro self channel reason pctx runs
    exact (put_of_ne _ _ _ (notRunning runs)).trans isWoken
  generalize goesOn : (.ok next : Except Stop Machine) = result at outcome
  cases outcome with
  | @trap frame ctx devices self mid running runs fromUser stack table entered leads reports =>
    rw [Action.uartReady, Option.some.injEq] at hears
    have here := runs.distinct.entriesOf_slot there
    -- The woken process is blocked, so it is another one than the process that runs.
    have distinct : process.pid ≠ self.pid := by
      intro same
      have isSelf := runs.distinct.entriesOf_slot runs.current
      rw [← same, here, Option.some.injEq] at isSelf
      rw [isSelf, runs.state] at blocked
      cases blocked
    -- The entry of the exception has woken it, and the handler leaves it ready.
    have awake : (mid.tree m.inKernel (some self.pid)).entries process.pid =
        some (process.wakeup awaitingUartRead) := by
      rw [entered.tree, hears]
      show Option.map _ (Function.update (entriesOf m.kernel.processTable) self.pid _ process.pid) = _
      rw [Function.update_of_ne distinct]
      exact congrArg (Option.map _) here
    have isReady : (process.wakeup awaitingUartRead).state = .ready := by
      rw [Process.wakeup, if_pos ⟨blocked, forInput⟩]
    -- The handler makes a move of the tree,
    have moved : ∀ {k : Kernel} {running : Option UInt64},
        (mid.tree m.inKernel (some self.pid)).Move (k.tree m.inKernel running) →
        ∃ other later, k.processTable other = some later ∧ later.pid = process.pid ∧
          later.state = .ready := by
      intro k running move
      obtain ⟨later, found, stillReady⟩ := move.staysReady awake isReady rfl distinct
      obtain ⟨other, inSlot, same⟩ := slot_of_entriesOf found
      exact ⟨other, later, inSlot, same, stillReady⟩
    -- or it leaves the tree as it is.
    have unmoved : ∀ {k : Kernel}, k.tree m.inKernel (some self.pid) =
        mid.tree m.inKernel (some self.pid) →
        ∃ other later, k.processTable other = some later ∧ later.pid = process.pid ∧
          later.state = .ready := by
      intro k same
      rw [← same] at awake
      obtain ⟨other, inSlot, samePid⟩ := slot_of_entriesOf awake
      exact ⟨other, _, inSlot, samePid, isReady⟩
    -- Wherever the handler ends, it came there from the entry.
    generalize m.kernel.handleExceptionEl1 files devices ctx = handled at goesOn leads
    cases handled with
    | returned k frame =>
      cases goesOn
      obtain ⟨-, _, -, -, same | move⟩ := leads
      · exact unmoved same
      · exact moved move
    | scheduling k frame lockHeld =>
      cases goesOn
      exact moved leads.2.2
    | inSyscall k frame =>
      cases goesOn
      cases leads
      exact unmoved rfl
    | stopped stop => cases goesOn
  | @sleep outer ctx devices self inside runs isFrame =>
    rw [Action.uartReady, Option.some.injEq] at hears
    rw [hears] at goesOn
    cases goesOn
    exact ⟨slot, woken, asleep _ _ _ runs, samePid, ready⟩
  | acquireSleeps isMutex inside runs sought isFrame guard lock =>
    rw [Action.uartReady, Option.some.injEq] at hears
    rw [hears] at goesOn
    cases goesOn
    exact ⟨slot, woken, asleep _ _ _ runs, samePid, ready⟩
  | idle uartReady looping idles notReady isBlocked =>
    rw [Action.uartReady, Option.some.injEq] at hears
    rw [hears] at goesOn
    cases goesOn
    exact ⟨slot, woken, isWoken, samePid, ready⟩
  -- The other steps do not look at the UART.
  | acquired isMutex inside runs sought guard lock =>
    cases goesOn
    obtain ⟨_, _, impossible⟩ := looks
    cases impossible
  | @loaded frame lockHeld found second uartReady looping idles isThere isReady =>
    cases goesOn
    obtain ⟨_, _, impossible⟩ := looks
    unfold Machine.loaded at impossible
    dsimp only at impossible
    split at impossible <;> cases impossible
  | theEnd uartReady looping idles ended => cases goesOn
  | acquireFails isMutex guard => cases goesOn
  | releaseFails isMutex runs held improper panics => cases goesOn
  | released isMutex inside runs held guard lock owner => cases hears
  | finish result inside runs => cases hears
  | store byte low busy => cases hears
  | stackStore byte slot inside => cases hears

end Wakes

section Reads

variable {kernelIo mutex : UInt64} {outer : ExceptionContext} {self : Process}

/-- A call of `getch` returns a byte that is there, if nobody holds the mutex. -/
theorem ReaderMachine.Reachable.readsByte {r : ReaderMachine} (reached : r.Reachable files kernelIo)
    (isMutex : IsMutex kernelIo) (inside : r.machine.control = .syscall ⟨outer, none⟩)
    (current : r.machine.kernel.getCurrentProcess = some self) (outside : r.inGetch self.pid = none)
    (nobody : r.machine.holders kernelIo = []) {c result : UInt8} {rest : List UInt8}
    (pending : r.fifo = c :: rest) (isResult : getchResult c = some result) :
    ∃ next : ReaderMachine, next.Reachable files kernelIo ∧ next.fifo = rest ∧
      next.returned = r.returned ++ [(r.calls, result)] := by
  -- The reader takes the mutex, polls the byte, and gives the mutex back.
  have machineReached := reached.sound.reached
  obtain ⟨ctx, takes⟩ :=
    machineReached.takesMutex inside current isMutex nobody ⟨true, false, false⟩
  have takenReached := machineReached.step takes
  have held := r.machine.taken_holders kernelIo self outer
  have insideTaken : (r.machine.taken kernelIo self outer).control = .syscall ⟨outer, none⟩ := rfl
  have currentTaken : (r.machine.taken kernelIo self outer).kernel.getCurrentProcess = some self :=
    current
  obtain ⟨next, gives⟩ := takenReached.givesMutex insideTaken currentTaken isMutex held
  obtain ⟨start, boot, fifo, booted, run⟩ := reached
  have called := run.tail (.calls inside current outside (by rw [nobody]; nofun))
  -- The mutex is free, so it is acquired at the first try.
  have acquired := called.tail (.acquires current (Function.update_self ..) rfl ?_ takes)
  · rw [if_pos held] at acquired
    have polled := acquired.tail (.polls insideTaken currentTaken (Function.update_self ..) rfl)
    unfold ReaderMachine.pollByte at polled
    dsimp only at polled
    rw [pending] at polled
    have returned := polled.tail
      (.returns currentTaken (Function.update_self ..) rfl isResult gives)
    exact ⟨_, ⟨start, boot, fifo, booted, returned⟩, rfl, rfl⟩
  · -- The byte is there, so the poll does not find the UART empty.
    rintro uartReady ⟨⟩
    simp [pending]

end Reads

section Input

variable {kernelIo : UInt64} {r : ReaderMachine}

/-- What `getch` returns: all but raw newlines, with newlines for carriage returns. -/
theorem filterMap_getchResult (bytes : List UInt8) :
    bytes.filterMap getchResult =
      (bytes.filter (· ≠ newlineByte)).map fun c => if c = returnByte then newlineByte else c := by
  induction bytes with
  | nil => rfl
  | cons c rest ih =>
    rw [List.filterMap_cons, ih]
    by_cases isNewline : c = newlineByte
    · subst isNewline
      rw [List.filter_cons_of_neg (by decide)]
      rfl
    · rw [List.filter_cons_of_pos (by simpa using isNewline), List.map_cons]
      by_cases isReturn : c = returnByte
      · subst isReturn
        rfl
      · rw [if_neg isReturn, getchResult, if_neg isReturn, if_neg isNewline, ite_self]

/--
Readers of the console lose no input, and return no byte twice.

The bytes that came are those taken and those still in the FIFO. Those taken, without raw newlines,
are what the calls have returned one after the other, up to one that the reader that runs holds.
Nobody sleeps for input with the mutex, and a step that calls `awake_common_chans` while the FIFO
has a byte makes ready everybody who slept for it.
-/
theorem ReaderMachine.Reachable.losesNoInput (reached : r.Reachable files kernelIo) :
    r.arrived = r.taken ++ r.fifo ∧
    ((r.taken.filter (· ≠ newlineByte)).map fun c => if c = returnByte then newlineByte else c) =
      r.returned.map Prod.snd ++ r.held ∧
    ((∀ suspension, r.machine.control ≠ .syscall suspension) → r.held = []) ∧
    (r.returned.map Prod.fst).Nodup ∧
    (∀ slot process, r.machine.kernel.processTable slot = some process →
      process.state = .blocked → process.chan = awaitingUartRead →
        process.pid ∉ r.machine.holders kernelIo) ∧
    ∀ action next, r.machine.Step files action (.ok next) → r.Hears action → r.fifo ≠ [] →
      action.Looks next → ∀ slot process, r.machine.kernel.processTable slot = some process →
        process.state = .blocked → process.chan = awaitingUartRead →
          ∃ other later, next.kernel.processTable other = some later ∧ later.pid = process.pid ∧
            later.state = .ready := by
  -- All six are parts of what holds in every state.
  have sound := reached.sound
  have valid := sound.reached.valid
  refine ⟨sound.fifo, ?_, ?_, sound.numbered.once, ?_, ?_⟩
  · rw [← filterMap_getchResult]
    exact sound.order
  · -- Outside of the kernel nobody is between taking a byte and returning it.
    intro outside
    refine ReaderMachine.held_nil fun pid call reads => ?_
    by_cases early : call.point = .acquiring
    · rw [early]
      rfl
    · obtain ⟨-, outer, inside⟩ := (sound.placed pid).busy call reads early
      exact absurd inside (outside _)
  · intro slot process there blocked forInput
    -- A sleeper waits for the channel of the UART, so it has released the mutex before.
    have asleep := (sound.reached.channelsKnown.sleepsOn valid there (by decide)).mp
      ⟨blocked, forInput⟩
    obtain ⟨-, suspension, inside, channel⟩ := asleep
    obtain ⟨call, reads, here⟩ := (sound.placed process.pid).asleep suspension inside channel
    exact (sound.placed process.pid).free call reads (Or.inl here)
  · intro action next step hears pending looks slot process there blocked forInput
    -- The action looks at the UART, and hears that a byte is pending.
    have ready : action.uartReady = some true := by
      cases heard : action.uartReady with
      | none => cases action <;> first | exact False.elim looks | cases heard
      | some uartReady => rw [(hears uartReady heard).mpr pending]
    exact (step.outcome valid).wakesReaders ready looks there blocked forInput

/-- In the system of the small program, a call of `getch` returns the byte that comes. -/
theorem losesNoInput_words : ∃ r : ReaderMachine, r.Reachable wordsFiles 0x1000 ∧
    r.returned = [(0, 97)] ∧ r.fifo = [] ∧
    ((r.taken.filter (· ≠ newlineByte)).map fun c => if c = returnByte then newlineByte else c) =
      r.returned.map Prod.snd ++ r.held := by
  -- The small program is scheduled, and asks to read one byte.
  obtain ⟨boot, booted⟩ := wordsStart_boots
  obtain ⟨_, _, frame, step, running, -⟩ := booted.schedules
  have reached : Machine.Reachable wordsFiles _ := ⟨_, boot, booted, .single ⟨_, trivial, step⟩⟩
  have isRead := frame.isSyscall_calling 2 (by decide) (argumentRegisters 1 1 0)
  obtain ⟨self, mid, traps, -, trapped⟩ :=
    reached.valid.calls running isRead rfl rfl wordsFiles ⟨false, false, false⟩
  have inSyscall : mid.handleSyscall wordsFiles (frame.calling 2 (argumentRegisters 1 1 0)) =
      .inSyscall mid (frame.calling 2 (argumentRegisters 1 1 0)) := by
    rw [Kernel.handleSyscall, isRead.immediate]
    rfl
  rw [inSyscall] at trapped
  -- Nobody holds a mutex after boot.
  have nobody : boot.holders = fun _ => [] := by
    obtain ⟨_, _, _, -, -, rfl⟩ := booted.started
    rfl
  have run : Relation.ReflTransGen (ReaderMachine.Step wordsFiles 0x1000) (.start boot []) _ :=
    .single (.other (by exact trivial) (by rintro _ ⟨⟩; simp [ReaderMachine.start]) step)
  have run := run.tail (.other (by exact trivial) (by rintro _ ⟨⟩; simp [ReaderMachine.start]) trapped)
  -- The byte arrives while the program is in its system call.
  have run := run.tail (.arrives 97)
  have reading : ReaderMachine.Reachable wordsFiles 0x1000 _ := ⟨_, boot, [], booted, run⟩
  obtain ⟨r, reached, empty, returned⟩ := reading.readsByte ⟨by decide, by decide, by decide⟩ rfl
    traps.entered.runs.current rfl (congrFun nobody 0x1000) rfl (show getchResult 97 = some 97 from rfl)
  exact ⟨r, reached, returned, empty, reached.losesNoInput.2.1⟩

end Input

end AtOS
