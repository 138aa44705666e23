import AtOS.Processes.Switching

/-! What taking a mutex and giving it back do for the process that runs. -/

namespace AtOS

open SlotTable

variable {k next : Kernel} {inKernel : UInt64 → Bool} {self : Process}

/-- Changing mutexes alone leaves the process running. -/
theorem Kernel.Runs.setMutex (runs : k.Runs inKernel self) (mutex : UInt64) (value : Mutex) :
    (k.setMutex mutex value).Runs inKernel self :=
  ⟨runs.distinct, runs.invariant, runs.current, runs.currentPid, runs.lock⟩

/-- Both ways to the current process lead to the slot of the process that runs. -/
theorem Kernel.Runs.getCurrent (runs : k.Runs inKernel self) :
    k.getCurrent = some k.currentProcess := by
  unfold Kernel.getCurrent Kernel.findById
  rw [runs.currentPid]
  exact runs.distinct.find_pid runs.current

/-- The entry that is found by the noted pid is that of the process that runs. -/
theorem Kernel.Runs.currentEntry (runs : k.Runs inKernel self) :
    k.getCurrent.bind k.processTable = some self := by
  rw [runs.getCurrent, Option.bind_some, runs.current]

/-- The guard of a mutex is taken unless it is taken already. -/
theorem Kernel.acquireGuard_free {mutex : UInt64} (free : (k.mutexes mutex).guard = false) :
    k.acquireGuard mutex = .ok (k.setMutex mutex { k.mutexes mutex with guard := true }) := by
  rw [Kernel.acquireGuard, free, if_neg Bool.false_ne_true]

/-- The mutex that was written is the one that is read. -/
@[simp] theorem Kernel.setMutex_self (k : Kernel) (mutex : UInt64) (value : Mutex) :
    (k.setMutex mutex value).mutexes mutex = value := Function.update_self ..

/-- Of two changes of a mutex the later one stays. -/
@[simp] theorem Kernel.setMutex_setMutex (k : Kernel) (mutex : UInt64) (value later : Mutex) :
    (k.setMutex mutex value).setMutex mutex later = k.setMutex mutex later := by
  simp only [Kernel.setMutex, Function.update_idem]

/-- Waking sleepers up touches no mutex. -/
@[simp] theorem Kernel.wakeup_mutexes (k : Kernel) (channel : UInt64) :
    (k.wakeup channel).mutexes = k.mutexes := rfl

/-- An attempt to take a mutex panics on a taken guard, and otherwise takes the mutex or sleeps. -/
theorem Kernel.Runs.attemptMutex (runs : k.Runs inKernel self) (mutex : UInt64) :
    k.attemptMutex mutex =
      if (k.mutexes mutex).guard then .error (.failed (.acquire "guard"))
      else if (k.mutexes mutex).lock then
        .ok (.mustSleep
          ((k.setMutex mutex { k.mutexes mutex with guard := true }).noted self mutex .mutex))
      else .ok (.acquired (k.setMutex mutex ⟨true, false, some self.pid⟩)) := by
  -- The guard is free or the attempt fails. Behind it the lock decides.
  unfold Kernel.attemptMutex
  cases guard : (k.mutexes mutex).guard with
  | true =>
    rw [Kernel.acquireGuard, guard, if_pos rfl]
    rfl
  | false =>
    rw [Kernel.acquireGuard_free guard]
    simp only [bind, Except.bind, Kernel.setMutex_self, Bool.false_eq_true, if_false]
    cases lock : (k.mutexes mutex).lock with
    | true =>
      rw [if_pos rfl, if_pos rfl, (runs.setMutex mutex _).noteSleep]
      rfl
    | false =>
      -- A free lock is taken in the name of the running process.
      have taken := (runs.setMutex mutex { lock := true, guard := true, pid := (k.mutexes mutex).pid })
      rw [if_neg Bool.false_ne_true, if_neg Bool.false_ne_true, Kernel.setMutex_setMutex,
        taken.currentEntry, Option.map_some]
      simp only [Kernel.setMutex_setMutex, Kernel.setMutex_self, Kernel.releaseGuard, if_true]
      rfl

/-- Giving back a mutex that is held properly wakes those who sleep for it. -/
theorem Kernel.Runs.releaseMutex (runs : k.Runs inKernel self) (mutex : UInt64) :
    k.releaseMutex mutex =
      if (k.mutexes mutex).guard then .error (.failed (.acquire "guard"))
      else if (k.mutexes mutex).lock = false then .error (.failed (.mutexUnlocked mutex))
      else if (k.mutexes mutex).pid ≠ some self.pid then
        .error (.failed (.mutexOwner mutex (k.mutexes mutex).pid self.pid))
      else .ok ((k.wakeup mutex).setMutex mutex ⟨false, false, none⟩) := by
  -- The guard is free or the release fails. Behind it the holder is checked.
  unfold Kernel.releaseMutex
  cases guard : (k.mutexes mutex).guard with
  | true =>
    rw [Kernel.acquireGuard, guard, if_pos rfl]
    rfl
  | false =>
    have taken := runs.setMutex mutex { k.mutexes mutex with guard := true }
    have current := taken.currentEntry
    rw [Kernel.acquireGuard_free guard]
    simp only [bind, Except.bind, Kernel.setMutex_self, Bool.false_eq_true, if_false]
    rw [current]
    cases lock : (k.mutexes mutex).lock with
    | false => rfl
    | true =>
      simp only [not_true_eq_false, if_false]
      -- The holder wakes every sleeper and leaves the mutex free.
      by_cases owned : (k.mutexes mutex).pid = some self.pid
      · simp only [owned, ne_eq, not_true_eq_false, if_false, Kernel.setMutex_setMutex,
          Kernel.releaseGuard, Kernel.wakeup_mutexes, Kernel.setMutex_self, if_true]
        show Except.ok _ = Except.ok _
        simp only [Kernel.wakeup, Kernel.setMutex, Function.update_idem]
      · simp only [owned, ne_eq, not_false_eq_true, if_true]
        rfl

end AtOS
