import AtOS.Processes.Delivery

/-! Who comes into the table, and who stays there: only `fork` adds, and orphans stay with pid 1. -/

namespace AtOS

open SlotTable

variable {t next : ProcessTree} {pid : UInt64}

section Tree

/-- Nobody but pid 1 is in the tree. -/
def ProcessTree.OnlyInit (t : ProcessTree) : Prop :=
  ∀ pid process, t.entries pid = some process → pid = 1

/-- The process that an event gives birth to. -/
def Event.born : Event → Option UInt64
  | .created pid _ => some pid
  | _ => none

/-- Whoever is there after a move was there before, unless the move is its birth. -/
theorem ProcessTree.Move.newcomer (move : t.Move next) (formed : t.WellFormed) {later : Process}
    (here : next.entries pid = some later) :
    (∃ before, t.entries pid = some before) ∨
      next.log.filterMap Event.born = pid :: t.log.filterMap Event.born := by
  -- A process that is put in the place of another one.
  have replaced : ∀ {self changed : Process}, t.entries self.pid = some self →
      Function.update t.entries self.pid (some changed) pid = some later →
      ∃ before, t.entries pid = some before := by
    intro self changed there found
    rw [Function.update_apply] at found
    split at found
    · rename_i same
      exact ⟨self, same ▸ there⟩
    · exact ⟨later, found⟩
  -- A process that is changed along with all others.
  have mapped : ∀ {change : Process → Process}, (t.mapAll change).entries pid = some later →
      ∃ before, t.entries pid = some before := by
    intro change found
    rw [ProcessTree.mapAll_entries, Option.map_eq_some_iff] at found
    obtain ⟨before, there, -⟩ := found
    exact ⟨before, there⟩
  -- An exit leaves those who were there.
  have exits : ∀ {self found : Process} {code : UInt64}, t.entries self.pid = some self →
      (t.terminated self code).entries pid = some found →
      ∃ before, t.entries pid = some before := by
    intro self found code there isFound
    rw [ProcessTree.terminated_entries, Option.map_eq_some_iff] at isFound
    obtain ⟨before, isBefore, -⟩ := isFound
    split at isBefore
    · rename_i same
      exact ⟨self, same ▸ there⟩
    · exact ⟨before, isBefore⟩
  cases move with
  | save runs there pctx => exact Or.inl (replaced there here)
  | wakeup proper => exact Or.inl (mapped here)
  | preempt runs there saved => exact Or.inl (replaced there here)
  | exec runs there pctx name => exact Or.inl (replaced there here)
  -- Only `fork` adds an entry, and it writes the birth to the log.
  | @fork self child runs there room isNew parent ready awake =>
    rw [show _ = (t.set child.pid child).entries from rfl, ProcessTree.set_entries] at here
    split at here
    · rename_i same
      exact Or.inr (by simp [Event.born, same])
    · exact Or.inl ⟨later, here⟩
  | exit runs there code unheard => exact Or.inl (exits there here)
  | @exitDelivered self parent runs there code above waits =>
    rw [ProcessTree.delivered_entries] at here
    split at here
    · cases here
    · split at here
      · rename_i same
        -- The parent that is handed the exit was there, since the exit keeps the tree.
        have key := (formed.rooted.terminated there code).key above
        rw [← key, ← same] at above
        exact Or.inl (exits there above)
      · exact Or.inl (exits there here)
  | @reap self child runs there target childThere awaited ended =>
    rw [show _ = (t.set child.pid none).entries from rfl, ProcessTree.set_entries] at here
    -- Whoever is left after a child has gone was there before.
    split at here
    · cases here
    · exact Or.inl ⟨later, here⟩
  | notFound runs there target none => exact Or.inl ⟨later, here⟩
  | await runs there saved childThere awaited alive => exact Or.inl (replaced there here)
  | sleep runs there proper other pctx => exact Or.inl (replaced there here)
  | load idle there ready => exact Or.inl (replaced there here)

/-- The prelude of a turn is nobody's birth. -/
theorem ProcessTree.Prelude.births {mid : ProcessTree} (prelude : t.Prelude mid) :
    mid.log.filterMap Event.born = t.log.filterMap Event.born := by
  have awoken : ∀ (before : ProcessTree) (uartReady : Bool),
      (before.awoken uartReady).log = before.log := by
    intro before uartReady
    unfold ProcessTree.awoken
    split <;> rfl
  cases prelude with
  | nothing => rfl
  | awoken uartReady => rw [awoken]
  | saved runs here pctx uartReady =>
    rw [awoken]
    rfl

/-- Whoever is there after a turn was there before, unless it is born in the turn. -/
theorem ProcessTree.Turn.newcomer (turn : t.Turn next) (invariant : t.Invariant) {later : Process}
    (here : next.entries pid = some later) :
    (∃ before, t.entries pid = some before) ∨
      next.log.filterMap Event.born = pid :: t.log.filterMap Event.born := by
  cases turn with
  | rest prelude =>
    obtain ⟨before, there, -⟩ := prelude.samePlaces.back here
    exact Or.inl ⟨before, there⟩
  | move prelude move =>
    have places := prelude.samePlaces
    rcases move.newcomer (prelude.invariant invariant).formed here with ⟨before, there⟩ | born
    · obtain ⟨earlier, isEarlier, -⟩ := places.back there
      exact Or.inl ⟨earlier, isEarlier⟩
    · rw [prelude.births] at born
      exact Or.inr born

/-- A child of pid 1 stays one in a move, unless its exit is reported. -/
theorem ProcessTree.Move.keeps_orphan (move : t.Move next) (formed : t.WellFormed)
    {child : Process} (there : t.entries pid = some child) (isOrphan : child.parentPid = 1) :
    (∃ later, next.entries pid = some later ∧ later.parentPid = 1) ∨
      pid ∈ next.log.filterMap Event.settled := by
  -- A process that is replaced keeps its parent.
  have replaced : ∀ {self changed : Process}, t.entries self.pid = some self →
      changed.parentPid = self.parentPid →
      ∃ later, Function.update t.entries self.pid (some changed) pid = some later ∧
        later.parentPid = 1 := by
    intro self changed here sameParent
    by_cases same : pid = self.pid
    · subst same
      rw [here, Option.some.injEq] at there
      exact ⟨changed, Function.update_self .., sameParent.trans (there ▸ isOrphan)⟩
    · exact ⟨child, (Function.update_of_ne same ..).trans there, isOrphan⟩
  -- After an exit, the orphans of the process that exits are children of pid 1 as well.
  have exits : ∀ {self : Process} {code : UInt64}, t.entries self.pid = some self →
      ∃ later, (t.terminated self code).entries pid = some later ∧ later.parentPid = 1 := by
    intro self code here
    rw [ProcessTree.terminated_entries]
    have reparented : ∀ {process : Process}, process.parentPid = 1 →
        (process.reparent self.pid 1).parentPid = 1 := by
      intro process orphan
      rw [Process.reparent_eq]
      simp [orphan]
    by_cases same : pid = self.pid
    · subst same
      rw [here, Option.some.injEq] at there
      rw [if_pos rfl]
      exact ⟨_, rfl, reparented (there ▸ isOrphan)⟩
    · rw [if_neg same, there]
      exact ⟨_, rfl, reparented isOrphan⟩
  cases move with
  | save runs here pctx => exact Or.inl (replaced here rfl)
  -- A wakeup changes the state of an orphan and not its parent.
  | @wakeup channel proper =>
    refine Or.inl ⟨child.wakeup channel, ?_, ?_⟩
    · rw [ProcessTree.mapAll_entries, there, Option.map_some]
    · have place := Process.wakeup_place channel child
      rw [(Process.place_eq.mp place).2.1]
      exact isOrphan
  | preempt runs here saved => exact Or.inl (replaced here rfl)
  | exec runs here pctx name => exact Or.inl (replaced here rfl)
  | @fork self born runs here room isNew parent ready awake =>
    -- The new pid is not in use.
    have below := formed.rooted.below there
    have distinct : pid ≠ born.pid := by
      rintro rfl
      rw [isNew] at below
      exact absurd below (Nat.lt_irrefl _)
    exact Or.inl ⟨child, (Function.update_of_ne distinct ..).trans there, isOrphan⟩
  | exit runs here code unheard => exact Or.inl (exits here)
  | @exitDelivered self parent runs here code above waits =>
    -- An orphan that exits itself leaves with its exit settled.
    by_cases same : pid = self.pid
    · exact Or.inr (by simp [ProcessTree.delivered, Event.settled, same])
    · obtain ⟨later, isLater, orphan⟩ := @exits self code here
      refine Or.inl ?_
      rw [ProcessTree.delivered_entries, if_neg same]
      split
      · -- The parent that is handed the exit may itself be a child of pid 1.
        rename_i isParent
        have key := (formed.rooted.terminated here code).key above
        rw [← key, ← isParent, isLater, Option.some.injEq] at above
        exact ⟨_, rfl, above ▸ orphan⟩
      · exact ⟨later, isLater, orphan⟩
  | @reap self gone runs here target goneThere awaited ended =>
    -- An orphan leaves the table when it is reaped, and its exit is settled then.
    by_cases same : pid = gone.pid
    · exact Or.inr (by simp [Event.settled, same])
    · exact Or.inl ⟨child, (Function.update_of_ne same ..).trans there, isOrphan⟩
  | notFound runs here target none => exact Or.inl ⟨child, there, isOrphan⟩
  | await runs here saved childThere awaited alive => exact Or.inl (replaced here rfl)
  | sleep runs here proper other pctx => exact Or.inl (replaced here rfl)
  | load idle here ready => exact Or.inl (replaced here rfl)

/-- A child of pid 1 stays one through a turn, unless its exit is reported. -/
theorem ProcessTree.Turn.keeps_orphan (turn : t.Turn next) (invariant : t.Invariant)
    {child : Process} (there : t.entries pid = some child) (isOrphan : child.parentPid = 1) :
    (∃ later, next.entries pid = some later ∧ later.parentPid = 1) ∨
      pid ∈ next.log.filterMap Event.settled := by
  -- The prelude changes nobody's parent.
  have before : ∀ {mid : ProcessTree}, t.Prelude mid →
      ∃ later, mid.entries pid = some later ∧ later.parentPid = 1 := by
    intro mid prelude
    obtain ⟨later, here, place⟩ := prelude.samePlaces.symm.back there
    exact ⟨later, here, (Process.place_eq.mp place).2.1.symm.trans isOrphan⟩
  cases turn with
  | rest prelude => exact Or.inl (before prelude)
  | move prelude move =>
    obtain ⟨later, here, orphan⟩ := before prelude
    exact move.keeps_orphan (prelude.invariant invariant).formed here orphan

/-- Where anybody but pid 1 is in the tree, pid 1 has a child. -/
theorem ProcessTree.Rooted.has_orphan (rooted : t.Rooted) (room : Nat) :
    ∀ {pid process}, t.entries pid = some process → pid ≠ 1 → pid.toNat < room →
      ∃ child, t.entries child.pid = some child ∧ child.parentPid = 1 := by
  -- The induction climbs from a process to its parent, which is older.
  induction room with
  | zero =>
    intro pid process here other below
    omega
  | succ room hyp =>
    intro pid process here other below
    by_cases isOrphan : process.parentPid = 1
    · exact ⟨process, (rooted.key here).symm ▸ here, isOrphan⟩
    · obtain ⟨above, isAbove, -⟩ := rooted.parent here other
      have older := rooted.older here other
      exact hyp isAbove isOrphan (by omega)

/-- When pid 1 finds no child, nobody else is in the tree. -/
theorem ProcessTree.Rooted.onlyInit (rooted : t.Rooted)
    (none : ∀ pid child, t.entries pid = some child → child.isAwaited 1 0 = false) :
    t.OnlyInit := by
  intro pid process here
  by_contra other
  obtain ⟨child, isChild, orphan⟩ := rooted.has_orphan (pid.toNat + 1) here other (by omega)
  have found := none child.pid child isChild
  rw [Process.isAwaited, orphan] at found
  simp at found

end Tree

section Births

variable {files : String → Option (List UInt8)} {k after : Kernel} {inKernel : UInt64 → Bool}
  {self : Process} {ctx : ExceptionContext}

/-- `exec` records nothing. -/
theorem Kernel.sysExec_log (done : (k.sysExec files ctx).kernel = some after) :
    after.log = k.log := by
  -- `exec` writes nothing to the log, whatever becomes of it.
  unfold Kernel.sysExec at done
  split at done
  · cases done
  · cases done
    rfl
  dsimp only at done
  split at done
  · rename_i self bytes current file
    unfold Kernel.execFile at done
    split at done
    · cases done
    · rename_i error last failed
      cases done
      -- The entry may have been replaced before the failure, and nothing is recorded for that.
      rcases Kernel.exec_ok failed with ⟨mid, pctx, ⟨_, _, rfl⟩, rfl⟩ | ⟨⟨_, _, rfl⟩, -⟩
      · rfl
      · rfl
    · rename_i last executed
      -- The new entry has been written, and the log has not.
      have log : last.log = k.log := by
        rcases Kernel.exec_ok executed with ⟨mid, pctx, ⟨_, _, rfl⟩, rfl⟩ | ⟨⟨_, _, rfl⟩, -⟩
        · rfl
        · rfl
      split at done
      · cases done
        exact log
      · cases done
        exact log
  · cases done
    rfl

/-- Of the system calls, only `fork` records a birth. -/
theorem Kernel.Runs.handleSyscall_births (runs : k.Runs inKernel self)
    (isSyscall : ctx.IsSyscall (ctx.esr.toNat % 2 ^ 16))
    (done : (k.handleSyscall files ctx).kernel = some after) :
    after.log.filterMap Event.born = k.log.filterMap Event.born ∨ ctx.IsSyscall 4 := by
  -- Each call writes what it writes, and only `fork` writes a birth.
  unfold Kernel.handleSyscall at done
  split at done
  case h_1 number =>
    unfold Kernel.sysExit Kernel.getCurrentProcess at done
    rw [runs.current] at done
    rcases runs.exitProcess (ctx.x.get 0) with ⟨-, error, result⟩ | ⟨last, result, exited⟩
    · simp only [result] at done
      cases done
    · simp only [result] at done
      cases done
      -- The exit is recorded, and that it was handed to the parent.
      rcases exited.exits with tree | ⟨parent, above, waits, tree⟩
      · have log : after.log = _ := congrArg ProcessTree.log tree
        rw [log]
        exact Or.inl rfl
      · have log : after.log = _ := congrArg ProcessTree.log tree
        rw [log]
        exact Or.inl rfl
  case h_2 number => exact Or.inr (number ▸ isSyscall)
  -- The other calls write no birth.
  case h_3 number =>
    rw [Kernel.sysExec_log done]
    exact Or.inl rfl
  case h_4 number =>
    rcases runs.sysWait_cases ctx with ⟨slot, child, there, isChild, ended, result⟩ |
      ⟨none, result⟩ | ⟨slot, child, there, isChild, alive, result⟩
    · rw [result] at done
      cases done
      exact Or.inl rfl
    · rw [result] at done
      cases done
      exact Or.inl rfl
    · rw [result] at done
      cases done
      exact Or.inl rfl
  case h_5 =>
    cases done
    exact Or.inl rfl
  case h_6 =>
    unfold Kernel.sysPInfo Kernel.getCurrentProcess at done
    rw [runs.current] at done
    cases done
    exact Or.inl rfl
  case h_7 =>
    cases done
    exact Or.inl rfl

/-- Interrupts record nothing. -/
theorem Kernel.handleIrqException_log {timer other : Bool}
    (done : (k.handleIrqException timer other ctx).kernel = some after) : after.log = k.log := by
  -- Neither the timer nor the UART writes to the log.
  unfold Kernel.handleIrqException Kernel.timesliceUp at done
  split at done
  · split at done
    · rename_i woken
      split at woken
      · split at done
        · cases done
        · cases woken
          cases done
          rfl
      · cases woken
    · cases done
  · split at done
    · cases done
    · cases done
      rfl

variable {m next : Machine} {action : Action}

/-- Nobody is born in a step but by a `fork`. -/
theorem Machine.Outcome.births (outcome : m.Outcome files action (.ok next)) :
    next.kernel.log.filterMap Event.born = m.kernel.log.filterMap Event.born ∨
      ∃ self ctx, m.Calls action self ctx 4 := by
  -- A birth is written by a kernel entry, so the other steps are out of the question.
  generalize goesOn : (.ok next : Except Stop Machine) = result at outcome
  cases outcome with
  | @trap frame ctx devices self mid running runs fromUser stack table entered leads reports =>
    obtain ⟨mid, -, entered, ⟨isSyscall, result⟩ | ⟨-, result | result | result⟩⟩ :=
      runs.handleExceptionEl1_cases files devices fromUser
    · have kernel := m.after_kernel goesOn.symm
      rw [result] at kernel
      rcases entered.runs.handleSyscall_births isSyscall kernel with same | isFork
      · rw [same, entered.log]
        exact Or.inl rfl
      · exact Or.inr ⟨self, ctx, ⟨devices, rfl⟩, runs.current, isFork⟩
    · -- An interrupt and a fault leave the log with what the entry has saved.
      have kernel := m.after_kernel goesOn.symm
      rw [result] at kernel
      rw [Kernel.handleIrqException_log kernel, entered.log]
      exact Or.inl rfl
    · have kernel := m.after_kernel goesOn.symm
      rw [result] at kernel
      cases kernel
      rw [entered.log]
      exact Or.inl rfl
    · rw [result] at goesOn
      cases goesOn
  -- A process that goes to sleep writes its context, which is no birth.
  | sleep inside runs isFrame =>
    cases goesOn
    rw [Machine.slept_log]
    exact Or.inl rfl
  | acquireSleeps isMutex inside runs sought isFrame guard lock =>
    cases goesOn
    rw [Machine.slept_log]
    exact Or.inl rfl
  | loaded uartReady looping idles there ready =>
    cases goesOn
    exact Or.inl rfl
  | acquired isMutex inside runs sought guard lock =>
    cases goesOn
    exact Or.inl rfl
  | released isMutex inside runs held guard lock owner =>
    cases goesOn
    exact Or.inl rfl
  | finish result inside runs =>
    cases goesOn
    exact Or.inl rfl
  | idle uartReady looping idles notReady blocked =>
    cases goesOn
    rw [Kernel.awakeCommonChans_log]
    exact Or.inl rfl
  -- A store writes memory and nothing else.
  | store byte low busy =>
    cases goesOn
    rw [(m.kernel.storeByte_same ..).log]
    exact Or.inl rfl
  | stackStore byte slot inside =>
    cases goesOn
    rw [(m.kernel.storeByte_same ..).log]
    exact Or.inl rfl
  | acquireFails isMutex guard => cases goesOn
  | releaseFails isMutex runs held improper panics => cases goesOn
  | theEnd uartReady looping idles ended => cases goesOn

end Births

end AtOS
