import AtOS.Processes.Channels

/-! Mutexes exclude, know who holds them, and are not slept for while they are free. -/

namespace AtOS

open SlotTable

variable {files : String → Option (List UInt8)} {m next : Machine} {mutex : UInt64}

/-- A mutex between two steps: its flag, its owner and who holds it agree. -/
structure Machine.Consistent (m : Machine) (mutex : UInt64) : Prop where
  guard : (m.kernel.mutexes mutex).guard = false
  free : (m.kernel.mutexes mutex).lock = false → m.holders mutex = []
  taken : (m.kernel.mutexes mutex).lock = true →
    ∃ pid, m.holders mutex = [pid] ∧ (m.kernel.mutexes mutex).pid = some pid
  awake : (m.kernel.mutexes mutex).lock = false → ∀ pid, ¬ m.tree.AsleepOn pid mutex

/-- All mutexes are consistent. -/
structure Machine.MutexesSafe (m : Machine) : Prop where
  consistent : ∀ mutex, IsMutex mutex → m.Consistent mutex

/-- The channel of the input is not a mutex. -/
theorem IsMutex.ne_uart (isMutex : IsMutex mutex) : mutex ≠ awaitingUartRead := by
  rintro rfl
  exact absurd isMutex.aligned (by decide)

/-- A process that runs, and does not go to sleep, is asleep on nothing afterwards. -/
theorem Machine.Valid.notAsleep (valid : m.Valid) {pid channel : UInt64} (proper : channel ≠ 0)
    (outside : m.suspended pid = none) : ¬ m.tree.AsleepOn pid channel := by
  rintro ⟨process, here, -, rfl⟩
  obtain ⟨slot, there, samePid⟩ := Machine.slot_of_entries here
  have inside := ((valid.sleepsProperly there).channel.mp proper).2
  rw [samePid, outside] at inside
  cases inside

/-- A step that leaves a mutex alone keeps it consistent, if nobody goes to sleep for it in vain. -/
theorem Machine.Consistent.keep (consistent : m.Consistent mutex) (turn : m.tree.Turn next.tree)
    (mutexes : next.kernel.mutexes mutex = m.kernel.mutexes mutex)
    (holders : next.holders mutex = m.holders mutex)
    (awake : (m.kernel.mutexes mutex).lock = false → ∀ pid, m.running = some pid →
      ¬ next.tree.AsleepOn pid mutex) : next.Consistent mutex := by
  -- Nothing about the mutex has changed, so only a new sleeper has to be excluded.
  constructor
  case guard => rw [mutexes, consistent.guard]
  case free =>
    rw [mutexes, holders]
    exact consistent.free
  case taken =>
    rw [mutexes, holders]
    exact consistent.taken
  case awake =>
    intro free pid asleep
    rw [mutexes] at free
    by_cases runs : m.running = some pid
    · exact awake free pid runs asleep
    · exact consistent.awake free pid (turn.asleep_back asleep runs)

/-- Whoever runs is asleep on nothing after a step that puts nobody to sleep. -/
theorem Machine.Valid.awakeAfter (valid : m.Valid) (validNext : next.Valid)
    (isMutex : IsMutex mutex)
    (suspended : ∀ pid, m.suspended pid = none → next.suspended pid = none) {pid : UInt64}
    (runs : m.running = some pid) : ¬ next.tree.AsleepOn pid mutex := by
  apply validNext.notAsleep isMutex.ne_zero
  apply suspended
  by_contra inside
  obtain ⟨suspension, isInside⟩ := Option.ne_none_iff_exists'.mp inside
  exact valid.suspended_idle isInside runs

/-- Going to sleep keeps all mutexes consistent, but a free one that it is for. -/
theorem Machine.Consistent.slept (consistent : m.Consistent mutex) {self : Process}
    (runs : m.kernel.Runs m.inKernel self)
    (busy : ∀ frame lockHeld, m.control ≠ .scheduling frame lockHeld) {channel : UInt64}
    {reason : BlockReason} {ctx : ExceptionContext} {uartReady : Bool} {suspension : Suspension}
    (stepped : (m.slept self channel reason ctx uartReady suspension).Valid ∧
      m.tree.Turn (m.slept self channel reason ctx uartReady suspension).tree)
    (locked : channel = mutex → (m.kernel.mutexes mutex).lock = true) :
    (m.slept self channel reason ctx uartReady suspension).Consistent mutex := by
  obtain ⟨valid, turn⟩ := stepped
  -- Waking UART sleepers changes no mutex.
  have mutexes : (m.slept self channel reason ctx uartReady suspension).kernel.mutexes =
      m.kernel.mutexes := m.kernel.awakeCommonChans_mutexes uartReady
  refine consistent.keep turn (by rw [mutexes]) rfl fun free pid isRunning asleep => ?_
  rw [m.running_eq runs busy, Option.some.injEq] at isRunning
  subst isRunning
  -- If the process sleeps on the mutex itself, the mutex was taken, and it is not free.
  obtain ⟨process, here, -, onMutex⟩ := asleep
  have there : (m.slept self channel reason ctx uartReady suspension).kernel.processTable
      m.kernel.currentProcess = some (self.asleep channel reason (.fromEctx ctx)) := put_self ..
  have found := valid.entries_slot there
  rw [show (self.asleep channel reason (.fromEctx ctx)).pid = self.pid from rfl, here,
    Option.some.injEq] at found
  rw [found] at onMutex
  rw [locked onMutex] at free
  cases free

/-- Every step keeps all mutexes consistent. -/
theorem Machine.Outcome.mutexesSafe {action : Action} {result : Except Stop Machine}
    (outcome : m.Outcome files action result) (valid : m.Valid) (goesOn : result = .ok next)
    (safe : m.MutexesSafe) : next.MutexesSafe := by
  have stepped := outcome.turn valid goesOn
  obtain ⟨validNext, turn⟩ := stepped
  refine ⟨fun mutex isMutex => ?_⟩
  have consistent := safe.consistent mutex isMutex
  -- Most steps leave the mutex alone and suspend nobody new.
  have same : next.kernel.mutexes mutex = m.kernel.mutexes mutex →
      next.holders mutex = m.holders mutex →
      (∀ pid, m.suspended pid = none → next.suspended pid = none) → next.Consistent mutex :=
    fun mutexes holders suspended => consistent.keep turn mutexes holders fun _ _ runs =>
      valid.awakeAfter validNext isMutex suspended runs
  cases outcome with
  | @trap frame ctx devices self mid running runs fromUser stack table entered leads reports =>
    -- The machine's part of an exception touches neither the holders nor the frames.
    have suspended : ∀ handled : Handled, m.after handled = .ok next →
        next.suspended = m.suspended ∧ next.holders = m.holders := by
      intro handled after
      cases handled <;> cases after <;> exact ⟨rfl, rfl⟩
    obtain ⟨sameSuspended, sameHolders⟩ := suspended _ goesOn
    refine same ?_ (by rw [sameHolders]) (by rw [sameSuspended]; exact fun _ => id)
    generalize m.kernel.handleExceptionEl1 files devices ctx = handled at goesOn leads
    cases handled with
    | returned k frame =>
      cases goesOn
      rw [leads.1, entered.mutexes]
    | scheduling k frame lockHeld =>
      cases goesOn
      rw [leads.1, entered.mutexes]
    | inSyscall k frame =>
      cases goesOn
      cases leads
      rw [entered.mutexes]
    | stopped stop => cases goesOn
  -- The UART's channel is no mutex.
  | @sleep outer ctx devices self inside runs isFrame =>
    cases goesOn
    refine consistent.slept runs (by simp [inside]) ⟨validNext, turn⟩ fun onInput => ?_
    exact absurd onInput.symm isMutex.ne_uart
  | @acquired outer ctx devices other retry self isOther inside runs sought guard lock =>
    cases goesOn
    -- The mutex that is taken had no holder before, and it has exactly one now.
    by_cases isSame : mutex = other
    · subst isSame
      have nobody := consistent.free lock
      constructor
      case guard => rw [Kernel.setMutex_self]
      case free =>
        rw [Kernel.setMutex_self]
        intro free
        cases free
      case taken =>
        rw [Kernel.setMutex_self]
        exact fun _ => ⟨self.pid, by simp [nobody], rfl⟩
      case awake =>
        rw [Kernel.setMutex_self]
        intro free
        cases free
    · refine same ?_ ?_ fun _ => id
      · exact Function.update_of_ne isSame ..
      · exact Function.update_of_ne isSame ..
  | @acquireSleeps outer ctx devices other retry self isOther inside runs sought isFrame guard lock =>
    cases goesOn
    -- A process sleeps on a mutex only where it found it taken.
    exact consistent.slept runs (by simp [inside]) ⟨validNext, turn⟩ fun same => same ▸ lock
  | acquireFails isOther guard => cases goesOn
  | @released outer other self isOther inside runs held guard lock owner =>
    cases goesOn
    -- The mutex that is released had one holder, which lets go of it.
    by_cases isSame : mutex = other
    · subst isSame
      obtain ⟨pid, only, -⟩ := consistent.taken lock
      rw [only, List.mem_singleton] at held
      constructor
      case guard => rw [Kernel.setMutex_self]
      case free =>
        intro _
        show Function.update m.holders mutex _ mutex = []
        rw [Function.update_self, only, held]
        simp
      case taken =>
        rw [Kernel.setMutex_self]
        intro taken
        cases taken
      case awake =>
        -- Everyone who slept for the mutex was woken.
        rintro - other ⟨process, here, blocked, onMutex⟩
        obtain ⟨slot, there, -⟩ := Machine.slot_of_entries here
        obtain ⟨before, -, woken⟩ := (modifyAll_eq_some m.kernel.processTable).mp there
        unfold Process.wakeup at woken
        split at woken
        · rw [← woken] at blocked
          cases blocked
        · rename_i awake
          exact awake ⟨woken ▸ blocked, woken ▸ onMutex⟩
    · refine same ?_ ?_ fun _ => id
      · exact Function.update_of_ne isSame ..
      · exact Function.update_of_ne isSame ..
  | releaseFails isOther runs held improper panics => cases goesOn
  | finish result inside runs =>
    cases goesOn
    exact same rfl rfl fun _ => id
  | @loaded frame lockHeld slot process uartReady looping idles there ready =>
    cases goesOn
    -- The process that is loaded was suspended before or not at all.
    refine same rfl rfl fun pid outside => ?_
    show Function.update m.suspended process.pid none pid = none
    rw [Function.update_apply]
    split
    · rfl
    · exact outside
  | idle uartReady looping idles notReady blocked =>
    cases goesOn
    exact same (by rw [Kernel.awakeCommonChans_mutexes]) rfl fun _ => id
  | theEnd uartReady looping idles ended => cases goesOn
  | store byte low busy =>
    cases goesOn
    refine same ?_ rfl fun _ => id
    obtain ⟨_, _, kernel⟩ := m.kernel.storeByte_same m.control.ttbr0.toNat _ byte
    rw [show (m.kernel.storeByte _ _ _).mutexes = _ from congrArg Kernel.mutexes kernel]
  | stackStore byte slot inside =>
    cases goesOn
    refine same ?_ rfl fun _ => id
    obtain ⟨_, _, kernel⟩ := m.kernel.storeByte_same m.kernel.kernelL1 _ byte
    rw [show (m.kernel.storeByte _ _ _).mutexes = _ from congrArg Kernel.mutexes kernel]

/-- In every reachable machine all mutexes are consistent. -/
theorem Machine.Reachable.mutexesSafe (reached : m.Reachable files) : m.MutexesSafe := by
  -- At boot every mutex is free and nobody is asleep, and every step keeps it so.
  obtain ⟨start, boot, booted, run⟩ := reached
  have fresh := booted.fresh
  have free : boot.MutexesSafe := by
    have valid := booted.tree.1
    obtain ⟨k, init, frame, -, spawned, rfl⟩ := booted.started
    refine ⟨fun mutex isMutex => ?_⟩
    -- The fresh kernel has taken no mutex, and spawning init takes none.
    have state : k.mutexes mutex = ⟨false, false, none⟩ := by
      rw [spawned.mutexes, fresh.mutexes]
    constructor
    case guard => rw [state]
    case free => exact fun _ => rfl
    case taken =>
      rw [state]
      intro taken
      cases taken
    case awake => exact fun _ pid => valid.notAsleep isMutex.ne_zero rfl
  exact (run.induction booted.tree.1 free fun valid safe _ outcome _ =>
    outcome.mutexesSafe valid rfl safe).2

/-- The panics about a mutex or its guard. -/
def KernelPanic.isMisuse : KernelPanic → Bool
  | .acquire name => name == "guard"
  | .release name => name == "guard"
  | .nullGuard => true
  | .mutexUnlocked _ => true
  | .mutexOwner _ _ _ => true
  | _ => false

/-- What a system call can stop with is not about a mutex. -/
theorem Stop.Excused.notMisuse {panic : KernelPanic} (excused : (Stop.failed panic).Excused) :
    panic.isMisuse = false := by
  rcases excused with (⟨_, memory⟩ | memory) | overflow | ⟨_, unwrapped⟩ | ⟨_, unwrapped⟩
  · cases memory
  · cases memory
  · cases overflow
    rfl
  · cases unwrapped
    rfl
  · cases unwrapped
    rfl

end AtOS
