import AtOS.Processes.Turns

/-! The machine as `_rust_main` starts it: one process, which is ready, and nobody who runs. -/

namespace AtOS

open SlotTable

variable {files : String → Option (List UInt8)} {start k : Kernel} {m next : Machine}

/-- The tree with only `init`, which has not run yet. -/
def ProcessTree.initial (init : Process) : ProcessTree where
  entries := Function.update (fun _ => none) 1 (some init)
  nextPid := 2
  running := none
  inKernel := fun _ => false
  log := [.created 1 init.pctx]

/-- `init` as it is spawned: ready, without a parent, and asleep on no channel. -/
structure Process.IsInit (process : Process) : Prop where
  pid : process.pid = 1
  parentPid : process.parentPid = 0
  ready : process.state = .ready
  chan : process.chan = 0

section Initial

variable {init : Process}

/-- The only process of the initial tree is `init`. -/
theorem ProcessTree.initial_entries {pid : UInt64} {process : Process}
    (here : (ProcessTree.initial init).entries pid = some process) : pid = 1 ∧ process = init := by
  have found : Function.update (fun _ => none) 1 (some init) pid = some process := here
  rw [Function.update_apply] at found
  split at found
  · rename_i first
    exact ⟨first, (Option.some.inj found).symm⟩
  · cases found

/-- The initial tree keeps all that the moves keep. -/
theorem Process.IsInit.invariant (isInit : init.IsInit) : (ProcessTree.initial init).Invariant := by
  have there : (ProcessTree.initial init).entries 1 = some init := by
    show Function.update (fun _ => none) (1 : UInt64) (some init) 1 = some init
    exact Function.update_self ..
  have notTerminated : init.state ≠ .terminated := by simp [isInit.ready]
  -- The only entry is init's, so each part of the invariant is about one process.
  constructor
  case formed =>
    constructor
    case rooted =>
      constructor
      case key =>
        intro pid process here
        obtain ⟨rfl, rfl⟩ := ProcessTree.initial_entries here
        exact isInit.pid
      case positive =>
        intro pid process here
        obtain ⟨rfl, rfl⟩ := ProcessTree.initial_entries here
        decide
      case below =>
        intro pid process here
        obtain ⟨rfl, rfl⟩ := ProcessTree.initial_entries here
        show (1 : UInt64).toNat < (2 : UInt64).toNat
        decide
      case init => exact ⟨init, there, isInit.parentPid⟩
      case older =>
        intro pid process here other
        exact absurd (ProcessTree.initial_entries here).1 other
      case parent =>
        intro pid process here other
        exact absurd (ProcessTree.initial_entries here).1 other
    case one =>
      constructor
      case running =>
        intro pid process here
        obtain ⟨rfl, rfl⟩ := ProcessTree.initial_entries here
        simp [isInit.ready, ProcessTree.initial]
      case present =>
        intro pid runs
        cases runs
  case blocking =>
    constructor
    case proper =>
      intro pid process here
      obtain ⟨rfl, rfl⟩ := ProcessTree.initial_entries here
      exact .ofActive isInit.chan (by simp [isInit.ready])
    case inside =>
      intro pid inside
      cases inside
  -- Init is ready, so it waits for nobody.
  case awaited =>
    refine ⟨fun {pid process} here waits => ?_⟩
    obtain ⟨rfl, rfl⟩ := ProcessTree.initial_entries here
    have blocked := waits.blocked
    rw [isInit.ready] at blocked
    cases blocked
  -- The log has one event, which is init's creation.
  case faithful =>
    constructor
    case saved =>
      intro pid process here _ _
      obtain ⟨rfl, rfl⟩ := ProcessTree.initial_entries here
      exact if_pos rfl
    case loaded =>
      intro pid pctx earlier suffix
      rcases List.suffix_cons_iff.mp suffix with same | inside
      · cases same
      · exact absurd (List.suffix_nil.mp inside) (by simp)
  case statuses =>
    constructor
    case once => exact List.nodup_nil
    case gone => exact fun member => absurd member (List.not_mem_nil)
    case exits => exact List.nodup_nil
    case exited => exact fun member => absurd member (List.not_mem_nil)
    case code =>
      intro pid process here ended
      obtain ⟨rfl, rfl⟩ := ProcessTree.initial_entries here
      exact absurd ended notTerminated
    case reported =>
      intro event child member settled
      have only : event = .created 1 init.pctx := List.mem_singleton.mp member
      subst only
      cases settled

/-- Nobody waits in the initial tree. -/
theorem Process.IsInit.prompt (isInit : init.IsInit) : (ProcessTree.initial init).Prompt := by
  refine ⟨fun {pid process child} here waits _ _ => ?_⟩
  obtain ⟨rfl, rfl⟩ := ProcessTree.initial_entries here
  have blocked := waits.blocked
  rw [isInit.ready] at blocked
  cases blocked

end Initial

/-- The kernel after `init` was spawned into the first slot of an empty table. -/
structure Kernel.Spawned (start k : Kernel) (init : Process) : Prop where
  isInit : init.IsInit
  table : k.processTable = put start.processTable ⟨0, by decide⟩ (some init)
  nextPid : k.nextPid = 2
  lock : k.processTableLock = start.processTableLock
  currentProcess : k.currentProcess = start.currentProcess
  currentPid : k.currentPid = start.currentPid
  mutexes : k.mutexes = start.mutexes
  log : k.log = .created 1 init.pctx :: start.log

/-- A new process is ready, and takes the next pid. -/
structure Kernel.Created (k : Kernel) (parentPid : UInt64) (process : Process) (next : Kernel) :
    Prop where
  pid : process.pid = k.nextPid
  parentPid : process.parentPid = parentPid
  ready : process.state = .ready
  chan : process.chan = 0
  same : { k with nextPid := k.nextPid + 1 }.SameProcesses next

/-- `Process::new` creates a process. -/
theorem Kernel.newProcess_ok {name : String} {parentPid entryPoint userSp ttbr0 : UInt64}
    {process : Process} {after : Kernel}
    (done : k.newProcess name parentPid entryPoint userSp ttbr0 = .ok (.ok process, after)) :
    k.Created parentPid process after := by
  unfold Kernel.newProcess at done
  split at done
  · cases done
  rename_i taken
  obtain ⟨-, rfl, rfl⟩ := Kernel.takePid_ok taken
  split at done
  · cases done
  · cases done
  rename_i allocated
  have same := Kernel.allocStack_same allocated
  simp only [Except.ok.injEq, Prod.mk.injEq] at done
  obtain ⟨rfl, rfl⟩ := done
  exact ⟨rfl, rfl, rfl, rfl, same⟩

/-- Spawning the first process. -/
theorem Kernel.Fresh.spawned (fresh : start.Fresh) {name : String} {bytes : List UInt8}
    {args : List String} {pid : UInt64}
    (done : start.spawnFromElf name 0 bytes args = .ok (.ok pid, k)) :
    ∃ init, start.Spawned k init := by
  -- Each way `spawn_from_elf` can fail is not the one at hand.
  unfold Kernel.spawnFromElf at done
  split at done
  · cases done
  · cases done
  rename_i loaded
  obtain ⟨alloc, states, rfl⟩ := Kernel.withAlloc_ok loaded
  split at done
  · cases done
  · cases done
  rename_i process mid created
  obtain ⟨pidSame, parent, ready, chan, alloc', states', rfl⟩ := Kernel.newProcess_ok created
  split at done
  · cases done
  rename_i pctx alloc'' args
  -- The table is empty, so init gets its first slot.
  have free : firstFree start.processTable = some ⟨0, by decide⟩ := by
    have empty : start.processTable = fun _ => none := funext fresh.table
    rw [empty]
    rfl
  simp only [Kernel.addProcessToPtable, free, Except.ok.injEq, Prod.mk.injEq] at done
  obtain ⟨-, rfl⟩ := done
  -- The fresh kernel gives out pid 1.
  have nextPid : process.pid = 1 := pidSame.trans fresh.nextPid
  refine ⟨{ process with pctx }, ⟨nextPid, parent, ready, chan⟩, rfl, ?_, rfl, rfl, rfl, rfl, ?_⟩
  · show start.nextPid + 1 = 2
    rw [fresh.nextPid]
    rfl
  · show Event.created process.pid pctx :: start.log = _
    rw [nextPid]

/-- The arguments of `init`. -/
def bootArgs : List String := ["init", "hi there", "this is test of args"]

/-- The first exception, by which the scheduler is started, changes nothing. -/
theorem Kernel.Spawned.firstException {init : Process} (spawned : start.Spawned k init)
    (fresh : start.Fresh) (files : String → Option (List UInt8)) (devices : Devices)
    {ctx : ExceptionContext} (isFrame : IsSleepFrame ctx ctx.ttbr0) :
    k.handleExceptionEl1 files devices ctx = .scheduling k ctx false := by
  have empty : start.processTable = fun _ => none := funext fresh.table
  -- Nobody is asleep, and the slot that is called the current one is empty.
  have awake : k.awakeCommonChans devices.uartReady = k := by
    unfold Kernel.awakeCommonChans
    split
    · have kept : modifyAll (Process.wakeup awaitingUartRead) k.processTable = k.processTable := by
        have same : init.wakeup awaitingUartRead = init := by
          rw [Process.wakeup, if_neg]
          rw [spawned.isInit.ready]
          rintro ⟨blocked, -⟩
          cases blocked
        rw [spawned.table, modifyAll_put, Option.map_some, same, empty]
        rfl
      simp only [Kernel.wakeup, kept]
    · rfl
  -- The current slot is the second one, and init is in the first.
  have vacant : k.getCurrentProcess = none := by
    have slot : k.currentProcess ≠ ⟨0, by decide⟩ := by
      intro first
      have one := fresh.currentProcess
      rw [← spawned.currentProcess, first] at one
      exact absurd one (by decide)
    rw [Kernel.getCurrentProcess, spawned.table, put_of_ne _ _ _ slot, empty]
  rw [Kernel.handleExceptionEl1_svc _ isFrame]
  simp only [awake, Kernel.putToSleep, vacant]

/-- Boot leaves the scheduler with `init`, which is ready. -/
theorem Machine.Booted.started {start : Kernel} (booted : Machine.Booted files start m) :
    ∃ k init frame, (∃ bytes pid, files "init" = some bytes ∧
        start.spawnFromElf "init" 0 bytes bootArgs = .ok (.ok pid, k)) ∧
      start.Spawned k init ∧ m = ⟨k, .scheduling frame false, fun _ => none, fun _ => []⟩ := by
  obtain ⟨fresh, bytes, k, pid, devices, ctx, file, spawns, isFrame, result⟩ := booted
  obtain ⟨init, spawned⟩ := fresh.spawned spawns
  rw [spawned.firstException fresh files devices isFrame] at result
  cases result
  exact ⟨k, init, ctx, ⟨bytes, pid, file, spawns⟩, spawned, rfl⟩

/-- The tree of a machine that has just been started. -/
theorem Machine.Booted.tree {start : Kernel} (booted : Machine.Booted files start m) :
    m.Valid ∧ ∃ init, init.IsInit ∧ m.tree = .initial init := by
  have fresh := booted.fresh
  obtain ⟨k, init, frame, -, spawned, rfl⟩ := booted.started
  -- The table has init as its only entry, so the tree is the initial one.
  have empty : start.processTable = fun _ => none := funext fresh.table
  obtain ⟨distinct, entries⟩ := @Distinct.put_new (fun _ => none) ⟨0, by decide⟩
    ⟨fun there => by cases there⟩ init rfl rfl
  rw [spawned.isInit.pid] at entries
  have tree : k.tree (fun _ => false) none = .initial init := by
    have log := spawned.log
    rw [fresh.log] at log
    simp only [Kernel.tree, ProcessTree.initial, spawned.table, empty, entries, spawned.nextPid, log]
    congr 1
  refine ⟨@Machine.Valid.ofIdles _ frame false ⟨?_, ?_, ?_⟩ rfl, init, spawned.isInit, tree⟩
  · rw [spawned.table, empty]
    exact distinct
  · show (k.tree (fun _ => false) none).Invariant
    rw [tree]
    exact spawned.isInit.invariant
  · exact spawned.lock.trans fresh.lock

end AtOS
