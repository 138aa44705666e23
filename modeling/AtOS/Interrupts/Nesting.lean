import AtOS.Interrupts.Spinlock
import Mathlib.Data.Set.Card
import Mathlib.Logic.Relation

/-! Spinlocks mask IRQs while one of them is held, and then leave IRQs as they found them. -/

namespace AtOS

variable {Lock : Type} [DecidableEq Lock] {n next : Nesting Lock}

/-- The locks that `push_off` has counted and `acquire` has not yet taken, or `release` given back. -/
def LockPc.pending : LockPc Lock → Nat
  | .pushed _ => 1
  | .cleared => 1
  | _ => 0

/-- What is known inside `acquire` and `release` of a nest that was begun with IRQs masked or not. -/
def LockPc.Knows (held : Set Lock) (count : Nat) (irqMasked maskedBefore : Bool) :
    LockPc Lock → Prop
  | .acquiring _ => count = 0 → maskedBefore = irqMasked
  | .read _ enabled => count = 0 → maskedBefore = irqMasked ∧ enabled = !irqMasked
  | .masked _ enabled => irqMasked = true ∧ (count = 0 → enabled = !maskedBefore)
  | .releasing lock => lock ∈ held
  | .outside => True
  | .pushed _ => True
  | .cleared => True

/-- What an interrupt left behind: no lock was held, and IRQs were not masked. -/
structure Interrupted.Resumes (top : Interrupted Lock) : Prop where
  unlocked : ∀ lock, top.flags lock = false
  pending : top.pc.pending = 0
  knows : top.pc.Knows ∅ 0 false top.maskedBefore

/-- The counter counts the locks that are held, and what the CPU remembers is of the present nest. -/
structure Nesting.Balanced (n : Nesting Lock) : Prop where
  finite : n.state.held.Finite
  count : n.state.cpu.ncli = n.state.held.ncard + n.pc.pending
  masked : 0 < n.state.cpu.ncli → n.state.irqMasked = true
  remembers : 0 < n.state.cpu.ncli → n.state.cpu.interruptsEnabled = !n.maskedBefore
  knows : n.pc.Knows n.state.held n.state.cpu.ncli n.state.irqMasked n.maskedBefore
  interrupted : ∀ top ∈ n.interrupted, top.Resumes

section Steps

omit [DecidableEq Lock] in
/-- No lock is held exactly if the counter is zero, outside of `acquire` and `release`. -/
theorem Nesting.Balanced.held_empty (balanced : n.Balanced) (pending : n.pc.pending = 0) :
    n.state.held = ∅ ↔ n.state.cpu.ncli = 0 := by
  rw [balanced.count, pending, Nat.add_zero, Set.ncard_eq_zero balanced.finite]

/-- Setting the flag of a lock adds it to those that are held. -/
theorem LockState.held_take {s after : LockState Lock} {lock : Lock}
    (taken : s.take lock = .ok (some after)) :
    lock ∉ s.held ∧ after.held = insert lock s.held ∧ after.cpu = s.cpu ∧
      after.irqMasked = s.irqMasked := by
  -- The flag was clear, and setting it is all that happens.
  unfold LockState.take at taken
  dsimp only at taken
  split at taken
  · cases taken
  split at taken
  · cases taken
  rename_i free
  simp only [Except.ok.injEq, Option.some.injEq] at taken
  subst taken
  refine ⟨free, ?_, rfl, rfl⟩
  -- The set of locks that are held gains the one that was taken.
  ext other
  simp only [LockState.held, LockState.setLock, Set.mem_ofPred_eq, Set.mem_insert_iff,
    Function.update_apply]
  split
  · rename_i same
    simp [same]
  · rename_i distinct
    simp [distinct]

/-- Clearing the flag of a lock takes it out of those that are held. -/
theorem LockState.held_clear (s : LockState Lock) (lock : Lock) :
    (s.clear lock).held = s.held \ {lock} := by
  ext other
  simp only [LockState.held, LockState.clear, LockState.setLock, Set.mem_ofPred_eq, Set.mem_sdiff,
    Set.mem_singleton_iff, Function.update_apply]
  split
  · rename_i same
    simp [same]
  · rename_i distinct
    simp [distinct]

omit [DecidableEq Lock] in
/-- A lock that may be released is held. -/
theorem LockState.held_release {s : LockState Lock} {lock : Lock}
    (allowed : s.mayRelease lock = .ok ()) : lock ∈ s.held := by
  unfold LockState.mayRelease at allowed
  dsimp only at allowed
  split at allowed
  · cases allowed
  · rename_i held
    simpa [LockState.held] using held

omit [DecidableEq Lock] in
/-- What `pop_off` does when it does not panic. -/
theorem LockState.popOff_ok {s after : LockState Lock} (popped : s.popOff = .ok after) :
    after.locks = s.locks ∧ after.cpu = { s.cpu with ncli := s.cpu.ncli - 1 } ∧
      after.irqMasked =
        (s.irqMasked && !(s.cpu.ncli - 1 == 0 && s.cpu.interruptsEnabled)) := by
  -- Both panics of `pop_off` are excluded: unmasked IRQs, and a counter of zero.
  unfold LockState.popOff LockState.isIrqEnabled at popped
  split at popped
  · cases popped
  rename_i masked
  have isMasked : s.irqMasked = true := by simpa using masked
  split at popped
  · cases popped
  dsimp only at popped
  -- IRQs are unmasked only by the last `pop_off` of a nest that found them so.
  split at popped
  · rename_i last
    cases popped
    simp [LockState.irqEnable, isMasked, last.1, last.2]
  · rename_i inner
    cases popped
    refine ⟨rfl, rfl, ?_⟩
    rw [isMasked]
    -- Otherwise the nest goes on, or it began with IRQs masked.
    cases enabled : s.cpu.interruptsEnabled with
    | false => simp
    | true =>
      have deeper : s.cpu.ncli - 1 ≠ 0 := fun zero => inner ⟨zero, enabled⟩
      simp [deeper]

omit [DecidableEq Lock] in
/-- A new CPU is balanced. -/
theorem Nesting.Initial.balanced (initial : n.Initial) : n.Balanced := by
  have none := initial.count
  constructor
  case finite =>
    rw [initial.unlocked]
    exact Set.finite_empty
  case count =>
    rw [initial.unlocked, initial.outside, none, Set.ncard_empty]
    rfl
  case masked => omega
  case remembers => omega
  case knows =>
    rw [initial.outside]
    trivial
  case interrupted =>
    rw [initial.started]
    exact fun top member => absurd member List.not_mem_nil

/-- Every step keeps the balance. -/
theorem Nesting.Step.balanced (step : n.Step next) (balanced : n.Balanced) : next.Balanced := by
  have finite := balanced.finite
  have count := balanced.count
  have knows := balanced.knows
  -- Each case is a step of `acquire`, of `release`, or of an interrupt.
  cases step with
  | acquire lock before outside first inner =>
    -- Only a nest that begins now is given a new flag; an inner one goes on with the old one.
    rw [outside] at count
    refine ⟨finite, count, balanced.masked, fun some => ?_, fun none => ?_, balanced.interrupted⟩
    · have held : n.state.held ≠ ∅ := by
        rw [Ne, balanced.held_empty (by rw [outside]; rfl)]
        exact Nat.ne_of_gt some
      show _ = !before
      rw [inner held]
      exact balanced.remembers some
    · exact first ((balanced.held_empty (by rw [outside]; rfl)).mpr none)
  | read called =>
    -- What is read of the mask is right as long as no lock is held, so `ncli` is still zero.
    rw [called] at count knows
    exact ⟨finite, count, balanced.masked, balanced.remembers, fun none => ⟨knows none, rfl⟩,
      balanced.interrupted⟩
  | @mask lock enabled read =>
    -- IRQs are masked from here on, and what has been read is the negation of the old mask.
    rw [read] at count knows
    refine ⟨finite, count, fun _ => rfl, balanced.remembers, ⟨rfl, fun none => ?_⟩,
      balanced.interrupted⟩
    obtain ⟨same, isRead⟩ := knows none
    rw [isRead, same]
  | @count lock enabled masked =>
    rw [masked] at count knows
    -- The counter runs ahead of the locks by one until the flag is set.
    obtain ⟨isMasked, outermost⟩ := knows
    have counted : n.state.cpu.ncli = n.state.held.ncard := count
    refine ⟨finite, ?_, fun _ => isMasked, fun _ => ?_, trivial, balanced.interrupted⟩
    · show n.state.cpu.ncli + 1 = n.state.held.ncard + 1
      rw [counted]
    · -- The first `push_off` of a nest remembers what it has read, and the others keep it.
      show (if n.state.cpu.ncli = 0 then enabled else n.state.cpu.interruptsEnabled) = _
      split
      · rename_i none
        exact outermost none
      · rename_i some
        exact balanced.remembers (Nat.pos_of_ne_zero some)
  | @take lock state pushed taken =>
    -- Setting the flag makes the set of locks catch up with the counter.
    rw [pushed] at count
    obtain ⟨free, held, cpu, irqMasked⟩ := LockState.held_take taken
    refine ⟨?_, ?_, ?_, ?_, trivial, balanced.interrupted⟩
    · show state.held.Finite
      rw [held]
      exact finite.insert lock
    · show state.cpu.ncli = state.held.ncard + 0
      rw [cpu, held, Set.ncard_insert_of_notMem free finite]
      exact count
    · show 0 < state.cpu.ncli → state.irqMasked = true
      rw [cpu, irqMasked]
      exact balanced.masked
    · show 0 < state.cpu.ncli → state.cpu.interruptsEnabled = _
      rw [cpu]
      exact balanced.remembers
  | release outside allowed =>
    -- Only a lock that is held is released.
    rw [outside] at count
    exact ⟨finite, count, balanced.masked, balanced.remembers, LockState.held_release allowed,
      balanced.interrupted⟩
  | @clear lock releasing =>
    -- Now the counter is ahead again, as the flag is cleared first.
    rw [releasing] at count knows
    have isHeld : lock ∈ n.state.held := knows
    have counted : n.state.cpu.ncli = n.state.held.ncard := count
    refine ⟨?_, ?_, balanced.masked, balanced.remembers, trivial, balanced.interrupted⟩
    · show (n.state.clear lock).held.Finite
      rw [LockState.held_clear]
      exact finite.sdiff
    · show n.state.cpu.ncli = (n.state.clear lock).held.ncard + 1
      rw [LockState.held_clear, Set.ncard_sdiff_singleton_add_one isHeld finite, counted]
  | @pop state cleared popped =>
    -- `pop_off` lets the counter catch up, and IRQs stay masked unless it comes to zero.
    rw [cleared] at count
    obtain ⟨locks, cpu, irqMasked⟩ := LockState.popOff_ok popped
    have counted : n.state.cpu.ncli = n.state.held.ncard + 1 := count
    have held : state.held = n.state.held := by
      unfold LockState.held
      rw [locks]
    refine ⟨?_, ?_, ?_, ?_, trivial, balanced.interrupted⟩
    · show state.held.Finite
      rw [held]
      exact finite
    · show state.cpu.ncli = state.held.ncard + 0
      rw [cpu, held, counted]
      rfl
    · show 0 < state.cpu.ncli → state.irqMasked = true
      rw [cpu, irqMasked, balanced.masked (by omega)]
      intro some
      have deeper : n.state.cpu.ncli - 1 ≠ 0 := Nat.ne_of_gt some
      simp [deeper]
    · show 0 < state.cpu.ncli → state.cpu.interruptsEnabled = _
      rw [cpu]
      exact fun _ => balanced.remembers (by omega)
  | interrupt unmasked =>
    -- IRQs are not masked, so no lock is held, and nothing has been counted.
    have none : n.state.cpu.ncli = 0 := by
      by_contra some
      rw [balanced.masked (Nat.pos_of_ne_zero some)] at unmasked
      cases unmasked
    rw [none] at count knows
    have pending : n.pc.pending = 0 := by omega
    have empty : n.state.held = ∅ := (balanced.held_empty pending).mpr none
    rw [unmasked, empty] at knows
    refine ⟨finite, ?_, fun _ => rfl, fun some => ?_, trivial, fun top member => ?_⟩
    · show n.state.cpu.ncli = n.state.held.ncard + 0
      rw [none, empty, Set.ncard_empty]
    · have impossible : 0 < n.state.cpu.ncli := some
      omega
    · rcases List.mem_cons.mp member with rfl | earlier
      · refine ⟨fun lock => ?_, pending, knows⟩
        have free : lock ∉ n.state.held := by
          rw [empty]
          exact Set.notMem_empty lock
        simpa [LockState.held] using free
      · exact balanced.interrupted top earlier
  | @resume top rest outside inside isBalanced =>
    -- An interrupt that returns has released what it took, so no lock is held, as before it.
    have resumes := balanced.interrupted top (by rw [inside]; exact List.mem_cons_self)
    have empty : n.state.held = ∅ := by
      ext lock
      simp [LockState.held, isBalanced lock, resumes.unlocked lock]
    have none := (balanced.held_empty (by rw [outside]; rfl)).mp empty
    refine ⟨finite, ?_, fun some => ?_, fun some => ?_, ?_, fun other member => ?_⟩
    · show n.state.cpu.ncli = n.state.held.ncard + top.pc.pending
      rw [none, empty, resumes.pending, Set.ncard_empty]
    · have impossible : 0 < n.state.cpu.ncli := some
      omega
    · have impossible : 0 < n.state.cpu.ncli := some
      omega
    · show top.pc.Knows n.state.held n.state.cpu.ncli false top.maskedBefore
      rw [none, empty]
      exact resumes.knows
    · exact balanced.interrupted other (by rw [inside]; exact List.mem_cons_of_mem _ member)

end Steps

/-- What a CPU comes to that starts without a lock. -/
def Nesting.Reachable (n : Nesting Lock) : Prop :=
  ∃ start : Nesting Lock, start.Initial ∧ Relation.ReflTransGen Nesting.Step start n

/-- The counter is right in every state that can be reached. -/
theorem Nesting.Reachable.balanced (reached : n.Reachable) : n.Balanced := by
  obtain ⟨start, initial, run⟩ := reached
  induction run with
  | refl => exact initial.balanced
  | tail _ step ih => exact step.balanced ih

/--
The counter is the number of locks that are held, and IRQs are masked while there is one.

When the last one is released, IRQs are as they were before the first `acquire` of the nest.
-/
theorem Nesting.Reachable.restoresIrqs (reached : n.Reachable) :
    (n.pc = .outside → n.state.held.Finite ∧ n.state.cpu.ncli = n.state.held.ncard) ∧
    (n.state.held.Nonempty → n.state.irqMasked = true) ∧
    ∀ next, n.Step next → n.pc = .cleared → next.pc = .outside → next.state.held = ∅ →
      next.state.irqMasked = next.maskedBefore := by
  -- All three are read off the invariant, the last one at the step that ends a nest.
  have balanced := reached.balanced
  have count := balanced.count
  refine ⟨fun outside => ⟨balanced.finite, ?_⟩, fun some => balanced.masked ?_,
    fun next step cleared outside empty => ?_⟩
  · rw [count, outside]
    rfl
  · have positive := (Set.ncard_pos balanced.finite).mpr some
    omega
  · rw [cleared] at count
    have counted : n.state.cpu.ncli = n.state.held.ncard + 1 := count
    cases step with
    | @pop state _ popped =>
      obtain ⟨locks, -, irqMasked⟩ := LockState.popOff_ok popped
      -- No lock is held after the step, which is a `pop_off`, so none was held before it.
      have last : n.state.held = ∅ := by
        have same : state.held = n.state.held := by
          unfold LockState.held
          rw [locks]
        exact same ▸ empty
      rw [last, Set.ncard_empty] at counted
      show state.irqMasked = n.maskedBefore
      rw [irqMasked, balanced.masked (by omega), balanced.remembers (by omega), counted]
      cases n.maskedBefore <;> rfl
    -- The counter is not zero yet, so IRQs are masked, and no interrupt comes in between.
    | interrupt unmasked =>
      rw [balanced.masked (by omega)] at unmasked
      cases unmasked
    -- All other steps start elsewhere.
    | acquire _ _ impossible => simp [cleared] at impossible
    | read impossible => simp [cleared] at impossible
    | mask impossible => simp [cleared] at impossible
    | count impossible => simp [cleared] at impossible
    | take impossible => simp [cleared] at impossible
    | release impossible => simp [cleared] at impossible
    | clear impossible => simp [cleared] at impossible
    | resume impossible => simp [cleared] at impossible

/-- A CPU with one spinlock, and with IRQs unmasked. -/
def oneLock : Nesting Unit where
  state := ⟨fun _ => ⟨false, none, "process_table"⟩, ⟨0, 0, false⟩, false⟩
  pc := .outside
  maskedBefore := false
  interrupted := []

/-- A single lock that nobody has taken is a start. -/
theorem oneLock_initial : oneLock.Initial where
  unlocked := by
    ext lock
    simp [oneLock, LockState.held]
  count := rfl
  outside := rfl
  started := rfl

/-- The lock is taken after an interrupt has come in between, and given back again. -/
theorem restoresIrqs_oneLock : ∃ held cleared next : Nesting Unit,
    held.Reachable ∧ () ∈ held.state.held ∧ held.state.irqMasked = true ∧
      held.state.cpu.ncli = held.state.held.ncard ∧
      cleared.Reachable ∧ cleared.Step next ∧
      next.state.held = ∅ ∧ next.maskedBefore = false ∧
      next.state.irqMasked = next.maskedBefore := by
  have free : oneLock.state.held = ∅ := oneLock_initial.unlocked
  have acquired : Nesting.Step oneLock _ :=
    .acquire () false rfl (fun _ => rfl) fun held => absurd free held
  -- The interrupt comes after `push_off` has read, and before it masks.
  have run := Relation.ReflTransGen.single acquired
    |>.tail (.read rfl) |>.tail (.interrupt rfl) |>.tail (.resume rfl rfl fun _ => rfl)
    |>.tail (.mask rfl) |>.tail (.count rfl) |>.tail (.take rfl rfl)
  have reached : Nesting.Reachable _ := ⟨oneLock, oneLock_initial, run⟩
  obtain ⟨counts, masks, -⟩ := reached.restoresIrqs
  have back := run |>.tail (@Nesting.Step.release _ _ _ () rfl rfl) |>.tail (.clear rfl)
  have reachedBack : Nesting.Reachable _ := ⟨oneLock, oneLock_initial, back⟩
  obtain ⟨-, -, restores⟩ := reachedBack.restoresIrqs
  refine ⟨_, _, _, reached, rfl, masks ⟨(), rfl⟩, (counts rfl).2, reachedBack, .pop rfl rfl, ?_, rfl,
    restores _ (.pop rfl rfl) rfl rfl ?_⟩
  -- The flag of the only lock has been cleared.
  all_goals exact Set.eq_empty_of_forall_notMem fun _ held => Bool.false_ne_true held

end AtOS
