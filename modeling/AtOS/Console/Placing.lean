import AtOS.Console.Readers

/-! Where the calls of `getch` are while the machine takes its steps. -/

namespace AtOS

open SlotTable

variable {files : String → Option (List UInt8)} {m next : Machine} {action : Action}

section Steps

/-- A step changes which mutexes are held by the process that runs only. -/
theorem Machine.Outcome.holders_other (outcome : m.Outcome files action (.ok next)) {pid : UInt64}
    (idle : m.running ≠ some pid) (mutex : UInt64) :
    pid ∈ next.holders mutex ↔ pid ∈ m.holders mutex := by
  generalize goesOn : (.ok next : Except Stop Machine) = result at outcome
  cases outcome with
  | @trap frame ctx devices self mid running runs fromUser stack table entered leads reports =>
    -- A trap changes no mutex.
    generalize m.kernel.handleExceptionEl1 files devices ctx = handled at goesOn
    cases handled <;> cases goesOn <;> exact Iff.rfl
  | @acquired outer ctx devices other retry self isMutex inside runs sought guard lock =>
    cases goesOn
    -- Whoever takes a mutex runs, so it is another process.
    have distinct : pid ≠ self.pid := by
      rintro rfl
      exact idle (m.running_eq runs (by simp [inside]))
    show pid ∈ Function.update m.holders other _ mutex ↔ _
    rw [Function.update_apply]
    split
    · rename_i same
      rw [List.mem_cons, same, or_iff_right distinct]
    · exact Iff.rfl
  | @released outer other self isMutex inside runs held guard lock owner =>
    cases goesOn
    -- Whoever gives back a mutex runs, so it is another process.
    have distinct : pid ≠ self.pid := by
      rintro rfl
      exact idle (m.running_eq runs (by simp [inside]))
    show pid ∈ Function.update m.holders other _ mutex ↔ _
    rw [Function.update_apply]
    split
    · rename_i same
      rw [List.mem_erase_of_ne distinct, same]
    · exact Iff.rfl
  -- These steps stop the machine.
  | theEnd uartReady looping idles ended => cases goesOn
  | acquireFails isMutex guard => cases goesOn
  | releaseFails isMutex runs held improper panics => cases goesOn
  -- And these change no mutex.
  | sleep inside runs isFrame => cases goesOn; exact Iff.rfl
  | acquireSleeps isMutex inside runs sought isFrame guard lock => cases goesOn; exact Iff.rfl
  | finish result inside runs => cases goesOn; exact Iff.rfl
  | loaded uartReady looping idles there ready => cases goesOn; exact Iff.rfl
  | idle uartReady looping idles notReady blocked => cases goesOn; exact Iff.rfl
  | store byte low busy => cases goesOn; exact Iff.rfl
  | stackStore byte slot inside => cases goesOn; exact Iff.rfl

/-- Whoever was put to sleep stays so, or is taken up where it was. -/
theorem Machine.Outcome.suspended_kept (outcome : m.Outcome files action (.ok next)) {pid : UInt64}
    {suspension : Suspension} (before : m.suspended pid = some suspension) :
    next.suspended pid = some suspension ∨
      (next.running = some pid ∧ next.control = .syscall suspension) := by
  generalize goesOn : (.ok next : Except Stop Machine) = result at outcome
  -- Who is suspended does not run, so going to sleep suspends another one.
  have others : ∀ {self : Process} (changed : Option Suspension), m.kernel.Runs m.inKernel self →
      Function.update m.suspended self.pid changed pid = some suspension := by
    intro self changed runs
    rw [Function.update_of_ne, before]
    rintro rfl
    rw [m.suspended_running runs] at before
    cases before
  cases outcome with
  | @trap frame ctx devices self mid running runs fromUser stack table entered leads reports =>
    generalize m.kernel.handleExceptionEl1 files devices ctx = handled at goesOn
    cases handled <;> cases goesOn <;> exact Or.inl before
  | sleep inside runs isFrame =>
    cases goesOn
    exact Or.inl (others _ runs)
  | acquireSleeps isMutex inside runs sought isFrame guard lock =>
    cases goesOn
    exact Or.inl (others _ runs)
  | @loaded frame lockHeld slot process uartReady looping idles there ready =>
    cases goesOn
    -- The one that is loaded goes on where it was suspended, and the others stay.
    by_cases same : pid = process.pid
    · subst same
      refine Or.inr ⟨?_, ?_⟩
      · simp only [Machine.running, Machine.loaded, before]
        rfl
      · simp only [Machine.loaded, before]
    · refine Or.inl ?_
      show Function.update m.suspended process.pid none pid = _
      rw [Function.update_of_ne same, before]
  -- These steps stop the machine.
  | theEnd uartReady looping idles ended => cases goesOn
  | acquireFails isMutex guard => cases goesOn
  | releaseFails isMutex runs held improper panics => cases goesOn
  -- And these suspend nobody, and load nobody.
  | acquired isMutex inside runs sought guard lock => cases goesOn; exact Or.inl before
  | released isMutex inside runs held guard lock owner => cases goesOn; exact Or.inl before
  | finish result inside runs => cases goesOn; exact Or.inl before
  | idle uartReady looping idles notReady blocked => cases goesOn; exact Or.inl before
  | store byte low busy => cases goesOn; exact Or.inl before
  | stackStore byte slot inside => cases goesOn; exact Or.inl before

/-- Whoever is asleep for input after a step was so before, unless the step put it to sleep. -/
theorem Machine.Outcome.suspended_back (outcome : m.Outcome files action (.ok next)) {pid : UInt64}
    {suspension : Suspension} (after : next.suspended pid = some suspension)
    (forInput : suspension.channel = awaitingUartRead) :
    m.suspended pid = some suspension ∨
      (m.running = some pid ∧ ∃ ctx devices, action = .sleep ctx devices) := by
  generalize goesOn : (.ok next : Except Stop Machine) = result at outcome
  cases outcome with
  | @trap frame ctx devices self mid running runs fromUser stack table entered leads reports =>
    generalize m.kernel.handleExceptionEl1 files devices ctx = handled at goesOn
    cases handled <;> cases goesOn <;> exact Or.inl after
  | @sleep outer ctx devices self inside runs isFrame =>
    cases goesOn
    -- Only the process that goes to sleep is suspended by this step.
    by_cases same : pid = self.pid
    · exact Or.inr ⟨same ▸ m.running_eq runs (by simp [inside]), _, _, rfl⟩
    · refine Or.inl ?_
      change Function.update m.suspended self.pid _ pid = _ at after
      rwa [Function.update_of_ne same] at after
  | @acquireSleeps outer ctx devices mutex retry self isMutex inside runs sought isFrame guard lock =>
    cases goesOn
    change Function.update m.suspended self.pid _ pid = _ at after
    rw [Function.update_apply] at after
    split at after
    · -- A mutex has another channel than the UART.
      rw [Option.some.injEq] at after
      rw [← after] at forInput
      exact absurd forInput isMutex.ne_uart
    · exact Or.inl after
  | @loaded frame lockHeld slot process uartReady looping idles there ready =>
    cases goesOn
    change Function.update m.suspended process.pid _ pid = _ at after
    rw [Function.update_apply] at after
    -- The one that is loaded is suspended no more.
    split at after
    · cases after
    · exact Or.inl after
  -- These steps stop the machine.
  | theEnd uartReady looping idles ended => cases goesOn
  | acquireFails isMutex guard => cases goesOn
  | releaseFails isMutex runs held improper panics => cases goesOn
  -- And these change nothing that is suspended.
  | acquired isMutex inside runs sought guard lock => cases goesOn; exact Or.inl after
  | released isMutex inside runs held guard lock owner => cases goesOn; exact Or.inl after
  | finish result inside runs => cases goesOn; exact Or.inl after
  | idle uartReady looping idles notReady blocked => cases goesOn; exact Or.inl after
  | store byte low busy => cases goesOn; exact Or.inl after
  | stackStore byte slot inside => cases goesOn; exact Or.inl after

/-- What a release leaves behind. -/
theorem Machine.Outcome.releases {mutex : UInt64} (outcome : m.Outcome files (.release mutex) (.ok next))
    (safe : m.MutexesSafe) : ∃ self, m.kernel.Runs m.inKernel self ∧
      m.running = some self.pid ∧ next.running = m.running ∧ next.control = m.control ∧
      next.suspended = m.suspended ∧ self.pid ∉ next.holders mutex := by
  generalize goesOn : (.ok next : Except Stop Machine) = result at outcome
  cases outcome with
  | @released outer mutex self isMutex inside runs held guard lock owner =>
    cases goesOn
    refine ⟨self, runs, m.running_eq runs (by simp [inside]), rfl, rfl, rfl, ?_⟩
    obtain ⟨pid, only, -⟩ := (safe.consistent mutex isMutex).taken lock
    rw [only, List.mem_singleton] at held
    show self.pid ∉ Function.update m.holders mutex _ mutex
    rw [Function.update_self, only, held]
    simp
  | releaseFails isMutex runs held improper panics => cases goesOn

/-- What an attempt to take a mutex leaves behind. -/
theorem Machine.Outcome.acquires {mutex : UInt64} {ctx : ExceptionContext} {devices : Devices}
    (outcome : m.Outcome files (.acquire mutex ctx devices) (.ok next)) :
    ∃ self, m.kernel.Runs m.inKernel self ∧ m.running = some self.pid ∧
      ((self.pid ∈ next.holders mutex ∧ next.running = m.running ∧ next.suspended = m.suspended ∧
          ∃ outer, next.control = .syscall ⟨outer, none⟩) ∨
        (next.holders = m.holders ∧
          ∃ outer, next.suspended = Function.update m.suspended self.pid (some ⟨outer, some mutex⟩))) := by
  generalize goesOn : (.ok next : Except Stop Machine) = result at outcome
  cases outcome with
  | @acquired outer ctx devices mutex retry self isMutex inside runs sought guard lock =>
    cases goesOn
    -- The process holds the mutex now, and runs on.
    refine ⟨self, runs, m.running_eq runs (by simp [inside]), Or.inl ⟨?_, ?_, rfl, outer, rfl⟩⟩
    · show self.pid ∈ Function.update m.holders mutex _ mutex
      rw [Function.update_self]
      exact List.mem_cons_self
    · rw [m.running_eq runs (by simp [inside])]
      exact runs.currentPid
  | @acquireSleeps outer ctx devices mutex retry self isMutex inside runs sought isFrame guard lock =>
    cases goesOn
    -- The process sleeps until the mutex is free.
    exact ⟨self, runs, m.running_eq runs (by simp [inside]), Or.inr ⟨rfl, outer, rfl⟩⟩
  | acquireFails isMutex guard => cases goesOn

/-- What going to sleep for input leaves behind. -/
theorem Machine.Outcome.sleeps {ctx : ExceptionContext} {devices : Devices}
    (outcome : m.Outcome files (.sleep ctx devices) (.ok next)) :
    ∃ self, m.kernel.Runs m.inKernel self ∧ m.running = some self.pid ∧ next.holders = m.holders ∧
      ∃ outer, next.suspended = Function.update m.suspended self.pid (some ⟨outer, none⟩) := by
  generalize goesOn : (.ok next : Except Stop Machine) = result at outcome
  cases outcome with
  | @sleep outer ctx devices self inside runs isFrame =>
    cases goesOn
    exact ⟨self, runs, m.running_eq runs (by simp [inside]), rfl, outer, rfl⟩

/-- A store changes neither who runs nor what it is in. -/
theorem Machine.Outcome.stores (outcome : m.Outcome files action (.ok next))
    (isStore : (∃ va byte, action = .store va byte) ∨ ∃ va byte, action = .stackStore va byte) :
    next.running = m.running ∧ next.control = m.control ∧ next.suspended = m.suspended ∧
      next.holders = m.holders := by
  have same : ∀ {k : Kernel}, m.kernel.SameProcesses k →
      ({ m with kernel := k } : Machine).running = m.running := by
    rintro _ ⟨_, _, rfl⟩
    rfl
  generalize goesOn : (.ok next : Except Stop Machine) = result at outcome
  cases outcome with
  | store byte low busy =>
    cases goesOn
    exact ⟨same (m.kernel.storeByte_same ..), rfl, rfl, rfl⟩
  | stackStore byte slot inside =>
    cases goesOn
    exact ⟨same (m.kernel.storeByte_same ..), rfl, rfl, rfl⟩
  | _ => rcases isStore with ⟨_, _, impossible⟩ | ⟨_, _, impossible⟩ <;> cases impossible

end Steps

section Places

variable {kernelIo pid : UInt64} {reads : Option GetchCall}

/-- A process is where its call of `getch` says, and sleeps for input only inside of one. -/
structure Machine.Places (m : Machine) (kernelIo pid : UInt64) (reads : Option GetchCall) : Prop where
  busy : ∀ call ∈ reads, call.point ≠ .acquiring →
    m.running = some pid ∧ ∃ outer, m.control = .syscall ⟨outer, none⟩
  inside : ∀ call ∈ reads, (∃ suspension, m.suspended pid = some suspension) ∨
    (m.running = some pid ∧ ∃ suspension, m.control = .syscall suspension)
  free : ∀ call ∈ reads, call.point = .acquiring ∨ call.point = .sleeping →
    pid ∉ m.holders kernelIo
  asleep : ∀ suspension, m.suspended pid = some suspension → suspension.channel = awaitingUartRead →
    ∃ call ∈ reads, call.point = .acquiring

/-- A step of another process leaves a reader where it is, or takes it up. -/
theorem Machine.Places.idle (placed : m.Places kernelIo pid reads)
    (outcome : m.Outcome files action (.ok next)) (idle : m.running ≠ some pid) :
    next.Places kernelIo pid reads where
  busy := fun call reading late => absurd (placed.busy call reading late).1 idle
  inside := by
    intro call reading
    rcases placed.inside call reading with ⟨suspension, asleep⟩ | ⟨runs, -⟩
    · rcases outcome.suspended_kept asleep with still | ⟨runs, control⟩
      · exact Or.inl ⟨_, still⟩
      · exact Or.inr ⟨runs, _, control⟩
    · exact absurd runs idle
  free := fun call reading point held =>
    placed.free call reading point ((outcome.holders_other idle kernelIo).mp held)
  asleep := by
    intro suspension after forInput
    rcases outcome.suspended_back after forInput with before | ⟨runs, -⟩
    · exact placed.asleep suspension before forInput
    · exact absurd runs idle

/-- What runs outside of `getch` does not sleep for input. -/
theorem Machine.Places.outside (valid : m.Valid) (outcome : m.Outcome files action (.ok next))
    (runs : m.running = some pid) (awake : ∀ ctx devices, action ≠ .sleep ctx devices) :
    next.Places kernelIo pid none where
  busy := fun call reading => by cases reading
  inside := fun call reading => by cases reading
  free := fun call reading => by cases reading
  asleep := by
    intro suspension after forInput
    rcases outcome.suspended_back after forInput with before | ⟨-, ctx, devices, sleeps⟩
    · exact absurd runs (valid.suspended_idle before)
    · exact absurd sleeps (awake ctx devices)

/-- A reader that is at a place of a process that runs inside of a system call. -/
theorem Machine.Places.running (valid : m.Valid) (runs : m.running = some pid) {outer : ExceptionContext}
    (inside : m.control = .syscall ⟨outer, none⟩) {call : GetchCall}
    (free : call.point = .acquiring ∨ call.point = .sleeping → pid ∉ m.holders kernelIo) :
    m.Places kernelIo pid (some call) where
  busy := fun _ _ _ => ⟨runs, outer, inside⟩
  inside := fun _ _ => Or.inr ⟨runs, _, inside⟩
  free := by
    rintro _ ⟨⟩
    exact free
  asleep := fun suspension before _ => absurd runs (valid.suspended_idle before)

/-- A reader that was put to sleep takes the mutex next. -/
theorem Machine.Places.slept {suspension : Suspension} (asleep : m.suspended pid = some suspension)
    (free : pid ∉ m.holders kernelIo) {call : GetchCall} (here : call.point = .acquiring) :
    m.Places kernelIo pid (some call) where
  busy := by
    rintro _ ⟨⟩ late
    exact absurd here late
  inside := fun _ _ => Or.inl ⟨suspension, asleep⟩
  free := by
    rintro _ ⟨⟩ -
    exact free
  asleep := fun _ _ _ => ⟨call, rfl, here⟩

end Places

end AtOS
