import AtOS.Resources.Start

/-! In every run in which no `exec` fails, processes own their resources, and nobody else's. -/

namespace AtOS

open ByteMemory RadixForest SlotTable

variable {files : String → Option (List UInt8)} {k : Kernel} {m : Machine} {self : Process}

/-- What the processes of a table own: pids, kernel stacks and page tables. -/
structure Kernel.Owning (k : Kernel) : Prop where
  distinct : ∀ {slot other process second}, k.processTable slot = some process →
    k.processTable other = some second → process.pid = second.pid → slot = other
  below : ∀ {slot process}, k.processTable slot = some process → process.pid < k.nextPid
  stack : ∀ {slot process}, k.processTable slot = some process → process.state ≠ .terminated →
    ∃! stack, k.kernelStacks stack = .allocated process.pid
  owner : ∀ {stack pid}, k.kernelStacks stack = .allocated pid →
    ∃ slot process, k.processTable slot = some process ∧ process.pid = pid ∧
      process.state ≠ .terminated
  alone : ∀ {slot other process second}, k.processTable slot = some process →
    process.state ≠ .terminated → k.processTable other = some second →
    second.state ≠ .terminated → process.pctx.ttbr0 = second.pctx.ttbr0 → slot = other
  /-- The free list has no frame twice, and no page table of a process that is alive. -/
  live : ∃ free, FreeChain k.alloc.mem k.alloc.freeFrameList free ∧ free.Nodup ∧
    ∀ {slot process}, k.processTable slot = some process → process.state ≠ .terminated →
      process.pctx.ttbr0.toNat ∉ free

/-- Processes own what they have, at each step and at each trap, and the kernel takes none of it. -/
structure Machine.OwnsResources (files : String → Option (List UInt8)) (m : Machine) : Prop where
  now : m.kernel.Owning
  /-- The handler of a trap finds them so, before it frees a page table. -/
  entered : ∀ {frame ctx devices mid}, m.control = .user frame → wasFromUserEl0 ctx = true →
    ctx.spEl1 = frame.spEl1 → ctx.ttbr0 = frame.ttbr0 → m.kernel.entered devices ctx = .ok mid →
    mid.Owning
  /-- The slot that a process that is alive will trap onto is not freed. -/
  trapsOnto : ∀ {pid base}, m.base pid = some base →
    ∃ stack, base.spEl1 = UInt64.ofNat (kernelStackTop stack) ∧
      m.kernel.kernelStacks stack = .allocated pid ∧
      ∀ {freed}, m.kernel.freeQueuedStacks = .ok freed → freed.kernelStacks stack = .allocated pid
  /-- `terminate` unwraps no error. -/
  unwraps : ∀ {action error}, ¬ m.Step files action (.error (.failed (.terminateUnwrap error)))

/-- No `exec` that a step gets to fails. -/
def Machine.ExecsWell (files : String → Option (List UInt8)) (m : Machine) (action : Action) :
    Prop :=
  ∀ {self ctx devices mid}, action = .trap ctx devices → m.kernel.getCurrentProcess = some self →
    m.kernel.entered devices ctx = .ok mid →
    mid.ExecsWell files { self with pctx := .fromEctx ctx } ctx

section Owning

variable {roots : Set Nat} {free : List Nat} {managed : Set Nat}

/-- Sound resources are those of processes that own them. -/
theorem Resources.Sound.owning (sound : k.resources.Sound roots free managed)
    (distinct : Distinct k.processTable)
    (below : ∀ {slot process}, k.processTable slot = some process → process.pid < k.nextPid) :
    k.Owning := by
  have owned : Owned k.alloc (insert k.kernelL1 roots) free managed := sound.accounted.owned
  -- Each part is read off the resources, by the entry that holds them.
  constructor
  case distinct => exact distinct.slot_eq
  case below => exact below
  case stack =>
    intro slot process there alive
    have holds := Kernel.holding_slot distinct there alive
    obtain ⟨stack, active⟩ := sound.assigned.backed (Option.isSome_iff_exists.mpr ⟨_, holds⟩)
    exact ⟨stack, active, fun other also => sound.assigned.slots.alone also active⟩
  case owner =>
    intro stack pid active
    obtain ⟨held, holds⟩ := Option.isSome_iff_exists.mp (sound.assigned.slots.alive active)
    obtain ⟨slot, process, there, same, alive, -⟩ := Kernel.slot_of_holding holds
    exact ⟨slot, process, there, same, alive⟩
  case alone =>
    intro slot other process second here alive there aliveToo same
    exact distinct.slot_eq here there (sound.assigned.alone (Kernel.holding_slot distinct here alive)
      (Kernel.holding_slot distinct there aliveToo) same)
  case live =>
    refine ⟨free, owned.chain, owned.nodup, fun {slot process} there alive => ?_⟩
    have live := sound.assigned.live (Kernel.holding_slot distinct there alive)
    exact owned.apart _ (Set.mem_insert_of_mem _ live) _ (root_mem_nodes _)

/-- All pids of a tree are below the one that is given out next. -/
theorem ProcessTree.Invariant.below {inKernel : UInt64 → Bool} {running : Option UInt64}
    (invariant : (k.tree inKernel running).Invariant) (distinct : Distinct k.processTable)
    {slot : Fin maxProcesses} {process : Process} (there : k.processTable slot = some process) :
    process.pid < k.nextPid :=
  UInt64.lt_iff_toNat_lt.mpr (invariant.formed.rooted.below (distinct.entriesOf_slot there))

/-- A stack that is allocated is not freed. -/
theorem Kernel.freeQueuedStack_allocated {freed : Kernel} {slot stack : Fin maxProcesses}
    {pid : UInt64} (active : k.kernelStacks stack = .allocated pid)
    (done : k.freeQueuedStack slot = .ok freed) : freed.kernelStacks stack = .allocated pid := by
  unfold Kernel.freeQueuedStack at done
  split at done
  · rename_i owner queued
    -- A queued stack is not the one that is allocated.
    have distinct : stack ≠ slot := by
      rintro rfl
      rw [active] at queued
      cases queued
    split at done
    · cases done
    · split at done
      · cases done
        exact active
      · unfold Kernel.freeStack at done
        rw [queued] at done
        cases done
        exact (Function.update_of_ne distinct ..).trans active
  · cases done
    exact active

/-- Freeing what is queued leaves an allocated stack alone. -/
theorem Kernel.freeQueuedStacks_allocated {stack : Fin maxProcesses} {pid : UInt64}
    (slots : List (Fin maxProcesses)) : ∀ {k freed : Kernel},
      k.kernelStacks stack = .allocated pid → slots.foldlM Kernel.freeQueuedStack k = .ok freed →
      freed.kernelStacks stack = .allocated pid := by
  induction slots with
  | nil =>
    intro k freed active done
    cases done
    exact active
  | cons slot rest ih =>
    intro k freed active done
    rw [List.foldlM_cons] at done
    cases first : k.freeQueuedStack slot with
    | error stop =>
      rw [first] at done
      cases done
    | ok mid =>
      rw [first] at done
      exact ih (Kernel.freeQueuedStack_allocated active first) done

/-- The machine stops where its handler does. -/
theorem Machine.after_stopped {handled : Handled} {stop : Stop}
    (stopped : m.after handled = .error stop) : handled = .stopped stop := by
  cases handled <;> cases stopped
  rfl

/-- A trap whose process has its stack stops with no unwrapped error of `terminate`. -/
theorem Machine.Traps.no_unwrap {ctx : ExceptionContext} {devices : Devices} {mid : Kernel}
    {handled : Handled} (traps : m.Traps files self ctx devices mid handled)
    (owns : m.Owns roots free managed) (error : String) :
    handled ≠ .stopped (.failed (.terminateUnwrap error)) := by
  intro stopped
  obtain ⟨stack, onTop⟩ := traps.onTop owns
  have uses := traps.uses
  rw [stopped] at uses
  cases uses with
  | stopped unwraps =>
    exact Kernel.getActiveStackIndex_none.mp (unwraps error rfl) stack onTop.allocated

/-- A machine whose processes own what they hold takes nothing of it away. -/
theorem Machine.Owns.resources (owns : m.Owns roots free managed) (valid : m.Valid) :
    m.OwnsResources files := by
  constructor
  case now =>
    exact owns.sound.owning valid.distinct fun {slot process} there =>
      ProcessTree.Invariant.below valid.invariant valid.distinct there
  case entered =>
    intro frame ctx devices mid running fromUser stack table entry
    -- The traps of a process enter the kernel in a state that owns what it has.
    obtain ⟨self, runs⟩ := valid.user running
    have step : m.Step files (.trap ctx devices) _ := .trap running fromUser stack table
    obtain ⟨process, other, handled, traps, -⟩ := (step.outcome valid).traps
    have same := traps.entry
    rw [entry, Except.ok.injEq] at same
    subst same
    obtain ⟨freed, sound, -⟩ := traps.sound owns
    have runsMid := traps.entered.runs
    exact sound.owning runsMid.distinct fun {slot process} there =>
      ProcessTree.Invariant.below runsMid.invariant runsMid.distinct there
  case trapsOnto =>
    intro pid base goesOn
    obtain ⟨stack, active, top⟩ := (owns.based goesOn).stack
    exact ⟨stack, top, active, fun {freed} done => Kernel.freeQueuedStacks_allocated _ active done⟩
  case unwraps =>
    intro action error step
    have outcome := step.outcome valid
    generalize failed : (Except.error (.failed (.terminateUnwrap error)) : Except Stop Machine) = result
      at outcome
    -- Only a trap can have failed to find a stack, and it finds one.
    cases outcome with
    | trap running runs fromUser stack table entered leads reports =>
      obtain ⟨self, mid, handled, traps, same⟩ :=
        Machine.Outcome.traps (.trap running runs fromUser stack table entered leads reports)
      exact traps.no_unwrap owns error (Machine.after_stopped (same.symm.trans failed.symm))
    | releaseFails isMutex runs held improper panics =>
      cases failed
      rcases panics with impossible | impossible | impossible <;> cases impossible
    | _ => cases failed

end Owning

section Run

variable {start : Kernel} {boot : Machine} {first limit : Nat}

/-- A step in which no `exec` fails keeps that processes own what they hold. -/
theorem Machine.Outcome.owns {action : Action} {roots : Set Nat} {free : List Nat}
    {managed : Set Nat} {next : Machine} (outcome : m.Outcome files action (.ok next))
    (valid : m.Valid) (loadsFresh : ∀ path bytes, files path = some bytes → LoadsFresh bytes)
    (execsWell : m.ExecsWell files action) (owns : m.Owns roots free managed) :
    ∃ roots free, next.Owns roots free managed := by
  by_cases trap : ∃ ctx devices, action = .trap ctx devices
  · obtain ⟨ctx, devices, rfl⟩ := trap
    obtain ⟨self, mid, handled, traps, done⟩ := outcome.traps
    exact traps.owns owns loadsFresh (execsWell rfl traps.runs.current traps.entry) done.symm
  · obtain ⟨base, rests⟩ := outcome.rests valid fun ctx devices same => trap ⟨ctx, devices, same⟩
    exact ⟨roots, free, rests.owns base owns⟩

/-- A run in which no `exec` fails keeps that processes own what they hold. -/
theorem Machine.Runs.owns (run : Machine.Runs files (Machine.ExecsWell files) boot m)
    (booted : Machine.Booted files start boot) (prepared : start.Prepared first limit)
    (loadsFresh : ∀ path bytes, files path = some bytes → LoadsFresh bytes) :
    m.Valid ∧ ∃ roots free, m.Owns roots free (start.knownFrames first limit) := by
  refine run.induction
    (motive := fun m => ∃ roots free, m.Owns roots free (start.knownFrames first limit))
    booted.tree.1 (booted.owns prepared loadsFresh) ?_
  rintro before next action valid ⟨roots, free, owns⟩ execsWell outcome -
  exact outcome.owns valid loadsFresh execsWell owns

/--
In every run from boot in which no `exec` fails, each process that is alive owns one kernel stack
and one page table, and the kernel frees neither.
-/
theorem Machine.Booted.ownsResources (booted : Machine.Booted files start boot)
    (prepared : start.Prepared first limit)
    (loadsFresh : ∀ path bytes, files path = some bytes → LoadsFresh bytes)
    (run : Machine.Runs files (Machine.ExecsWell files) boot m) : m.OwnsResources files := by
  obtain ⟨valid, roots, free, owns⟩ := run.owns booted prepared loadsFresh
  exact owns.resources valid

/-- The small program owns its resources when it runs. -/
theorem ownsResources_words : ∃ m frame, Machine.Reachable wordsFiles m ∧
    m.control = .user frame ∧ m.OwnsResources wordsFiles := by
  obtain ⟨boot, booted⟩ := wordsStart_boots
  obtain ⟨_, _, frame, step, running, -⟩ := booted.schedules
  have noExec : boot.ExecsWell wordsFiles (.schedule false) := fun same => nomatch same
  exact ⟨_, frame, ⟨_, boot, booted, .single ⟨_, trivial, step⟩⟩, running,
    booted.ownsResources wordsStart_prepared wordsFiles_loadsFresh (.single ⟨_, noExec, step⟩)⟩

end Run

end AtOS
