import AtOS.Console.Placing

/-! What holds of all readers of the console after every step. -/

namespace AtOS

open SlotTable

variable {files : String → Option (List UInt8)} {m next : Machine} {action : Action}

section Numbers

variable {calls : Nat} {inGetch : UInt64 → Option GetchCall} {returned : List Nat} {pid : UInt64}
  {call : GetchCall}

/-- Calls have different numbers, and each of them returns once. -/
structure CallsNumbered (calls : Nat) (inGetch : UInt64 → Option GetchCall) (returned : List Nat) :
    Prop where
  pending : ∀ {pid call}, inGetch pid = some call → call.number < calls ∧ call.number ∉ returned
  distinct : ∀ {pid other call second}, inGetch pid = some call → inGetch other = some second →
    call.number = second.number → pid = other
  before : ∀ number ∈ returned, number < calls
  once : returned.Nodup

/-- A new call has a new number. -/
theorem CallsNumbered.begins (numbered : CallsNumbered calls inGetch returned) (pid : UInt64)
    (point : GetchPoint) : CallsNumbered (calls + 1)
      (Function.update inGetch pid (some ⟨calls, point⟩)) returned where
  pending := by
    intro other call reading
    rw [Function.update_apply] at reading
    -- The new call has a number that no call before it has.
    split at reading
    · rw [Option.some.injEq] at reading
      rw [← reading]
      exact ⟨Nat.lt_succ_self _, fun member => absurd (numbered.before _ member) (Nat.lt_irrefl _)⟩
    · obtain ⟨below, notReturned⟩ := numbered.pending reading
      exact ⟨Nat.lt_succ_of_lt below, notReturned⟩
  distinct := by
    intro first second call other reading reading' same
    rw [Function.update_apply] at reading reading'
    -- Two calls of one number are one, since numbers are given out in order.
    split at reading <;> split at reading'
    · rename_i isFirst isSecond
      rw [isFirst, isSecond]
    · rw [Option.some.injEq] at reading
      have below := (numbered.pending reading').1
      rw [← same, ← reading] at below
      exact absurd below (Nat.lt_irrefl _)
    · rw [Option.some.injEq] at reading'
      have below := (numbered.pending reading).1
      rw [same, ← reading'] at below
      exact absurd below (Nat.lt_irrefl _)
    · exact numbered.distinct reading reading' same
  before := fun number member => Nat.lt_succ_of_lt (numbered.before number member)
  once := numbered.once

/-- A call that goes on keeps its number. -/
theorem CallsNumbered.goOn (numbered : CallsNumbered calls inGetch returned)
    (reads : inGetch pid = some call) (point : GetchPoint) :
    CallsNumbered calls (Function.update inGetch pid (some { call with point })) returned := by
  -- The call is the same as before, but for its point.
  have back : ∀ {other found}, Function.update inGetch pid (some { call with point }) other =
      some found → ∃ before, inGetch other = some before ∧ before.number = found.number := by
    intro other found reading
    rw [Function.update_apply] at reading
    split at reading
    · rename_i same
      rw [Option.some.injEq] at reading
      exact ⟨call, same ▸ reads, by rw [← reading]⟩
    · exact ⟨found, reading, rfl⟩
  constructor
  case pending =>
    intro other found reading
    obtain ⟨before, there, same⟩ := back reading
    exact same ▸ numbered.pending there
  case distinct =>
    intro first second found other reading reading' same
    obtain ⟨before, there, sameFirst⟩ := back reading
    obtain ⟨before', there', sameSecond⟩ := back reading'
    exact numbered.distinct there there' (by rw [sameFirst, sameSecond, same])
  case before => exact numbered.before
  case once => exact numbered.once

/-- A call that returns is no longer pending. -/
theorem CallsNumbered.returns (numbered : CallsNumbered calls inGetch returned)
    (reads : inGetch pid = some call) :
    CallsNumbered calls (Function.update inGetch pid none) (returned ++ [call.number]) := by
  -- The call that returns is the only one that is gone.
  have back : ∀ {other found}, Function.update inGetch pid none other = some found →
      other ≠ pid ∧ inGetch other = some found := by
    intro other found reading
    rw [Function.update_apply] at reading
    split at reading
    · cases reading
    · exact ⟨‹_›, reading⟩
  constructor
  case pending =>
    intro other found reading
    obtain ⟨distinct, there⟩ := back reading
    obtain ⟨below, notReturned⟩ := numbered.pending there
    refine ⟨below, fun member => ?_⟩
    -- A call that is still pending has not returned, before or now.
    rcases List.mem_append.mp member with earlier | now
    · exact notReturned earlier
    · exact distinct (numbered.distinct there reads (List.mem_singleton.mp now))
  case distinct =>
    intro first second found other reading reading' same
    exact numbered.distinct (back reading).2 (back reading').2 same
  case before =>
    intro number member
    rcases List.mem_append.mp member with earlier | now
    · exact numbered.before number earlier
    · exact List.mem_singleton.mp now ▸ (numbered.pending reads).1
  case once =>
    refine List.nodup_append.mpr ⟨numbered.once, List.nodup_singleton _, ?_⟩
    -- The number was pending, so it had not returned yet.
    rintro number earlier _ now rfl
    exact (numbered.pending reads).2 (List.mem_singleton.mp now ▸ earlier)

end Numbers

section Sound

variable {kernelIo pid : UInt64} {r after : ReaderMachine} {call : GetchCall}

/-- What the reader that runs has polled. -/
theorem ReaderMachine.held_running (runs : r.machine.running = some pid)
    (reads : r.inGetch pid = some call) : r.held = call.point.held := by
  simp only [ReaderMachine.held, runs, Option.bind_some, reads]

/-- Nothing is held if no reader has polled a byte. -/
theorem ReaderMachine.held_nil (nothing : ∀ pid call, r.inGetch pid = some call →
    call.point.held = []) : r.held = [] := by
  unfold ReaderMachine.held
  split
  · rename_i found
    obtain ⟨pid, -, reads⟩ := Option.bind_eq_some_iff.mp found
    exact nothing pid _ reads
  · rfl

/-- What holds of a machine with readers after every step. -/
structure ReaderMachine.Sound (files : String → Option (List UInt8)) (kernelIo : UInt64)
    (r : ReaderMachine) : Prop where
  reached : r.machine.Reachable files
  placed : ∀ pid, r.machine.Places kernelIo pid (r.inGetch pid)
  fifo : r.arrived = r.taken ++ r.fifo
  order : r.taken.filterMap getchResult = r.returned.map Prod.snd ++ r.held
  numbered : CallsNumbered r.calls r.inGetch (r.returned.map Prod.fst)

/-- While one process runs, all other readers wait for the mutex or sleep. -/
theorem ReaderMachine.Sound.others (sound : r.Sound files kernelIo)
    (runs : r.machine.running = some pid) {other : UInt64} (distinct : other ≠ pid)
    (reads : r.inGetch other = some call) : call.point = .acquiring := by
  by_contra late
  have busy := ((sound.placed other).busy call reads late).1
  rw [runs, Option.some.injEq] at busy
  exact distinct busy.symm

/-- Every process is in its place after a step of the one that runs, if that one is. -/
theorem ReaderMachine.Sound.placedAfter (sound : r.Sound files kernelIo)
    (outcome : r.machine.Outcome files action (.ok next)) (runs : r.machine.running = some pid)
    {reads : Option GetchCall} (here : next.Places kernelIo pid reads) (other : UInt64) :
    next.Places kernelIo other (Function.update r.inGetch pid reads other) := by
  by_cases same : other = pid
  · rw [same, Function.update_self]
    exact here
  · rw [Function.update_of_ne same]
    refine (sound.placed other).idle outcome ?_
    rw [runs, Ne, Option.some.injEq]
    exact fun isPid => same isPid.symm

/-- Nothing is held once the process that runs holds nothing. -/
theorem ReaderMachine.Sound.heldAfter (sound : r.Sound files kernelIo)
    (runs : r.machine.running = some pid) {reads : Option GetchCall}
    (changed : after.inGetch = Function.update r.inGetch pid reads)
    (nothing : ∀ call ∈ reads, call.point.held = []) : after.held = [] := by
  refine ReaderMachine.held_nil fun other call reading => ?_
  rw [changed, Function.update_apply] at reading
  split at reading
  · exact nothing call reading
  · rename_i distinct
    rw [sound.others runs distinct reading]
    rfl

/-- A reader that gives the mutex back goes on without it. -/
theorem ReaderMachine.Sound.released (sound : r.Sound files kernelIo) {self : Process}
    (current : r.machine.kernel.getCurrentProcess = some self)
    (reads : r.inGetch self.pid = some call) (late : call.point ≠ .acquiring)
    (step : r.machine.Step files (.release kernelIo) (.ok next)) :
    r.machine.running = some self.pid ∧ r.held = call.point.held ∧
      r.machine.Outcome files (.release kernelIo) (.ok next) ∧
      next.Places kernelIo self.pid none ∧
      ∀ point, next.Places kernelIo self.pid (some { call with point }) := by
  have valid := sound.reached.valid
  have outcome := step.outcome valid
  have validNext := (sound.reached.step step).valid
  -- The process that releases the mutex is the one that runs, and it holds what its point says.
  obtain ⟨other, runs, running, sameRunning, sameControl, sameSuspended, free⟩ :=
    outcome.releases sound.reached.mutexesSafe
  have same : other = self := Option.some.inj (runs.current.symm.trans current)
  subst same
  obtain ⟨-, outer, inside⟩ := (sound.placed other.pid).busy call reads late
  exact ⟨running, ReaderMachine.held_running running reads, outcome,
    .outside valid outcome running (fun _ _ impossible => by cases impossible),
    fun point => .running validNext (sameRunning.trans running) (sameControl.trans inside)
      fun _ => free⟩

/-- What the step of a machine does to its readers, if none of them takes it. -/
theorem ReaderMachine.Sound.other (sound : r.Sound files kernelIo) (elsewhere : r.Elsewhere action)
    (step : r.machine.Step files action (.ok next)) :
    ({ r with machine := next } : ReaderMachine).Sound files kernelIo := by
  have valid := sound.reached.valid
  have outcome := step.outcome valid
  have reached := sound.reached.step step
  by_cases isStore : (∃ va byte, action = .store va byte) ∨ ∃ va byte, action = .stackStore va byte
  · -- A store may come at any point of a call.
    obtain ⟨running, control, suspended, holders⟩ := outcome.stores isStore
    refine ⟨reached, fun pid => ?_, sound.fifo, ?_, sound.numbered⟩
    · have placed := sound.placed pid
      constructor
      case busy => rw [running, control]; exact placed.busy
      case inside => rw [running, control, suspended]; exact placed.inside
      case free => rw [holders]; exact placed.free
      case asleep => rw [suspended]; exact placed.asleep
    · -- Nothing that a call knows about is in memory.
      have held : ({ r with machine := next } : ReaderMachine).held = r.held := by
        simp only [ReaderMachine.held, running]
      rw [held]
      exact sound.order
  · -- Otherwise whoever runs is in no call.
    have outside : ∀ pid, r.machine.running = some pid → r.inGetch pid = none := by
      intro pid runs
      rw [Option.eq_none_iff_forall_ne_some]
      intro call reads
      have inKernel : ∃ suspension, r.machine.control = .syscall suspension := by
        rcases (sound.placed pid).inside call reads with ⟨suspension, asleep⟩ | ⟨-, inside⟩
        · exact absurd runs (valid.suspended_idle asleep)
        · exact inside
      obtain ⟨suspension, inside⟩ := inKernel
      obtain ⟨self, runsSelf⟩ := valid.syscall inside
      have isSelf := r.machine.running_eq runsSelf (by simp [inside])
      rw [runs, Option.some.injEq] at isSelf
      subst isSelf
      have free : (∀ self, r.machine.kernel.getCurrentProcess = some self →
          r.inGetch self.pid = none) → False := by
        intro free
        rw [free self runsSelf.current] at reads
        cases reads
      have taken := step
      generalize (.ok next : Except Stop Machine) = result at taken
      cases taken with
      | trap running fromUser stack table => rw [inside] at running; cases running
      -- The step is none of the program that runs, or it comes to nothing here.
      | sleep insideToo isFrame unmarked noted => exact elsewhere
      | sleepFails insideToo failed => exact elsewhere
      | acquire isMutex insideToo sought isFrame marked => exact free elsewhere
      | release isMutex insideToo current held => exact free elsewhere
      | finish result insideToo => exact free elsewhere
      | schedule uartReady looping => rw [inside] at looping; cases looping
      | store byte low busy => exact isStore (Or.inl ⟨_, _, rfl⟩)
      | stackStore byte slot within => exact isStore (Or.inr ⟨_, _, rfl⟩)
    -- A call of a process that does not run has not yet taken a byte.
    have waiting : ∀ pid call, r.inGetch pid = some call → call.point = .acquiring := by
      intro pid call reads
      by_contra late
      rw [outside pid ((sound.placed pid).busy call reads late).1] at reads
      cases reads
    have nothing : ∀ pid call, r.inGetch pid = some call → call.point.held = [] := by
      intro pid call reads
      rw [waiting pid call reads]
      rfl
    refine ⟨reached, fun pid => ?_, sound.fifo, ?_, sound.numbered⟩
    · -- Who runs is in no call, and who does not run stays where it is.
      by_cases runs : r.machine.running = some pid
      · show next.Places kernelIo pid (r.inGetch pid)
        rw [outside pid runs]
        refine .outside valid outcome runs ?_
        rintro ctx devices rfl
        exact elsewhere
      · exact (sound.placed pid).idle outcome runs
    · have before := sound.order
      rw [ReaderMachine.held_nil nothing] at before
      rw [ReaderMachine.held_nil (r := { r with machine := next }) nothing]
      exact before

/-- Every step keeps the readers sound. -/
theorem ReaderMachine.Step.sound (step : r.Step files kernelIo after)
    (sound : r.Sound files kernelIo) : after.Sound files kernelIo := by
  have valid := sound.reached.valid
  cases step with
  | arrives c =>
    -- A byte that arrives joins those that are not taken.
    refine ⟨sound.reached, sound.placed, ?_, sound.order, sound.numbered⟩
    show r.arrived ++ [c] = r.taken ++ (r.fifo ++ [c])
    rw [sound.fifo, List.append_assoc]
  | @calls outer self inside current outside free =>
    obtain ⟨other, runs⟩ := valid.syscall inside
    have same : other = self := Option.some.inj (runs.current.symm.trans current)
    subst same
    have running := r.machine.running_eq runs (by simp [inside])
    -- A call that begins has taken no byte.
    have held : r.held = [] := by
      simp only [ReaderMachine.held, running, Option.bind_some, outside]
    refine ⟨sound.reached, fun pid => ?_, sound.fifo, ?_, sound.numbered.begins _ _⟩
    · show r.machine.Places kernelIo pid (Function.update r.inGetch other.pid _ pid)
      by_cases isSelf : pid = other.pid
      · rw [isSelf, Function.update_self]
        exact .running valid running inside fun _ => free
      · rw [Function.update_of_ne isSelf]
        exact sound.placed pid
    · have before := sound.order
      rw [held] at before
      rw [sound.heldAfter running rfl (by rintro _ ⟨⟩; rfl)]
      exact before
  | @acquires self call ctx devices next current reads here hears taken =>
    have outcome := taken.outcome valid
    have reached := sound.reached.step taken
    obtain ⟨other, runs, running, ends⟩ := outcome.acquires
    have same : other = self := Option.some.inj (runs.current.symm.trans current)
    subst same
    -- So the bytes that are held are none, before and after.
    have notHeld := (sound.placed other.pid).free call reads (Or.inl here)
    have before := sound.order
    rw [ReaderMachine.held_running running reads, here] at before
    refine ⟨reached, sound.placedAfter outcome running ?_, sound.fifo, ?_, sound.numbered.goOn reads _⟩
    · -- The process has the mutex now, or it sleeps without it.
      rcases ends with ⟨isHeld, sameRunning, -, outer, inside⟩ | ⟨sameHolders, outer, suspended⟩
      · rw [if_pos isHeld]
        exact .running reached.valid (sameRunning.trans running) inside
          (by rintro (impossible | impossible) <;> cases impossible)
      · rw [sameHolders, if_neg notHeld]
        have asleep : next.suspended other.pid = some ⟨outer, some kernelIo⟩ := by
          rw [suspended, Function.update_self]
        exact .slept asleep (sameHolders ▸ notHeld) rfl
    · rw [sound.heldAfter running rfl (by rintro _ ⟨⟩; split <;> rfl)]
      exact before
  | @polls outer self call inside current reads here =>
    -- The reader polls the UART while it holds the lock, so the byte it takes is the oldest pending
    -- one.
    obtain ⟨other, runs⟩ := valid.syscall inside
    have same : other = self := Option.some.inj (runs.current.symm.trans current)
    subst same
    have running := r.machine.running_eq runs (by simp [inside])
    have placed : ∀ point, (point ≠ .acquiring ∧ point ≠ .sleeping) → ∀ pid, r.machine.Places
        kernelIo pid (r.goOn other.pid call point pid) := by
      intro point late pid
      by_cases isSelf : pid = other.pid
      · rw [isSelf, ReaderMachine.goOn, Function.update_self]
        refine .running valid running inside ?_
        rintro (early | early)
        · exact absurd early late.1
        · exact absurd early late.2
      · rw [ReaderMachine.goOn, Function.update_of_ne isSelf]
        exact sound.placed pid
    have before := sound.order
    rw [ReaderMachine.held_running running reads, here] at before
    unfold ReaderMachine.pollByte
    split
    · -- An empty UART takes nothing and returns nothing.
      rename_i empty
      refine ⟨sound.reached, placed .empty (by decide), sound.fifo, ?_, sound.numbered.goOn reads _⟩
      rw [sound.heldAfter running rfl (by rintro _ ⟨⟩; rfl)]
      exact before
    · rename_i c fifo pending
      -- A polled byte leaves the FIFO at its head and counts as taken by this reader.
      refine ⟨sound.reached, placed (.polled c) ⟨nofun, nofun⟩, ?_, ?_, sound.numbered.goOn reads _⟩
      · show r.arrived = r.taken ++ [c] ++ fifo
        rw [sound.fifo, pending, List.append_assoc]
        rfl
      · -- The held byte is the one the poll has just taken, so the order gains it on both sides.
        have held := ReaderMachine.held_running (r := { r with
          fifo
          taken := r.taken ++ [c]
          inGetch := r.goOn other.pid call (.polled c) }) running (Function.update_self ..)
        rw [held]
        show (r.taken ++ [c]).filterMap getchResult = _ ++ (getchResult c).toList
        rw [List.filterMap_append, before, show GetchPoint.polling.held = [] from rfl,
          List.append_nil, List.filterMap_cons]
        cases getchResult c <;> rfl
  | @givesUp self call next current reads here taken =>
    -- An empty poll lets go of the lock with nothing held, so the order is the one before.
    obtain ⟨running, held, outcome, -, placed⟩ := sound.released current reads (by rw [here]; nofun) taken
    have before := sound.order
    rw [held, here] at before
    refine ⟨sound.reached.step taken, sound.placedAfter outcome running (placed _), sound.fifo, ?_,
      sound.numbered.goOn reads _⟩
    rw [sound.heldAfter running rfl (by rintro _ ⟨⟩; rfl)]
    exact before
  | @sleeps self call ctx devices next current reads here hears taken =>
    -- `sleep` switches to another process. The reader holds nothing while it sleeps.
    have outcome := taken.outcome valid
    obtain ⟨other, runs, running, sameHolders, outer, suspended⟩ := outcome.sleeps
    have same : other = self := Option.some.inj (runs.current.symm.trans current)
    subst same
    have notHeld := (sound.placed other.pid).free call reads (Or.inr here)
    have before := sound.order
    rw [ReaderMachine.held_running running reads, here] at before
    refine ⟨sound.reached.step taken, sound.placedAfter outcome running ?_, sound.fifo, ?_,
      sound.numbered.goOn reads _⟩
    · -- A sleeper does not hold the lock, since it let it go before it called `sleep`.
      have asleep : next.suspended other.pid = some ⟨outer, none⟩ := by
        rw [suspended, Function.update_self]
      exact .slept asleep (sameHolders ▸ notHeld) rfl
    · rw [sound.heldAfter running rfl (by rintro _ ⟨⟩; rfl)]
      exact before
  | @returns self call c result next current reads here isResult taken =>
    -- The held byte moves to the end of what the readers have returned.
    obtain ⟨running, held, outcome, placed, -⟩ := sound.released current reads (by rw [here]; nofun) taken
    have before := sound.order
    rw [held, here] at before
    refine ⟨sound.reached.step taken, sound.placedAfter outcome running placed, sound.fifo, ?_, ?_⟩
    · rw [sound.heldAfter running rfl (by rintro _ ⟨⟩), before, GetchPoint.held, isResult]
      simp
    · -- The returned bytes are numbered by the call that returned them.
      rw [List.map_append]
      exact sound.numbered.returns reads
  | @drops self call c next current reads here noResult taken =>
    -- A byte `getch` drops was held, and it adds nothing to either side of the order.
    obtain ⟨running, held, outcome, -, placed⟩ := sound.released current reads (by rw [here]; nofun) taken
    have before := sound.order
    rw [held, here, GetchPoint.held, noResult] at before
    refine ⟨sound.reached.step taken, sound.placedAfter outcome running (placed _), sound.fifo, ?_,
      sound.numbered.goOn reads _⟩
    rw [sound.heldAfter running rfl (by rintro _ ⟨⟩; rfl)]
    exact before
  -- A step of any other process leaves the reader's bookkeeping alone.
  | other elsewhere hears taken => exact sound.other elsewhere taken

/-- Every reachable machine with readers is sound. -/
theorem ReaderMachine.Reachable.sound (reached : r.Reachable files kernelIo) :
    r.Sound files kernelIo := by
  obtain ⟨start, boot, fifo, booted, run⟩ := reached
  induction run with
  | refl =>
    have nobody : boot.suspended = fun _ => none := by
      obtain ⟨k, init, frame, -, -, rfl⟩ := booted.started
      rfl
    refine ⟨⟨start, boot, booted, .refl⟩, fun pid => ?_, rfl, ?_, ?_⟩
    · refine ⟨nofun, nofun, nofun, fun suspension asleep => ?_⟩
      rw [show (ReaderMachine.start boot fifo).machine = boot from rfl, nobody] at asleep
      cases asleep
    · rw [ReaderMachine.held_nil fun pid call reads => (by cases reads)]
      rfl
    · exact ⟨nofun, nofun, nofun, List.nodup_nil⟩
  | tail _ last ih => exact last.sound ih

end Sound

end AtOS
