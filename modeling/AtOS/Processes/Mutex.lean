import AtOS.Processes.Scheduler

/-! Mutexes, whose guard is a spinlock, and the spinlock operations on that guard. -/

namespace AtOS

/-- The guard of a mutex follows its flag. -/
def guardOffset : UInt64 := 8

/-- The address of the guard of a mutex. -/
def guardOf (mutex : UInt64) : UInt64 := mutex + guardOffset

/-- Replace a mutex. -/
def Kernel.setMutex (k : Kernel) (mutex : UInt64) (value : Mutex) : Kernel :=
  { k with mutexes := Function.update k.mutexes mutex value }

/-- `Spinlock::acquire` on the guard of a mutex: the only CPU panics on a guard it holds itself. -/
def Kernel.acquireGuard (k : Kernel) (mutex : UInt64) : Except Stop Kernel :=
  if (k.mutexes mutex).guard then .error (.failed (.acquire "guard"))
  else .ok (k.setMutex mutex { k.mutexes mutex with guard := true })

/-- `Spinlock::release` on the guard of a mutex. -/
def Kernel.releaseGuard (k : Kernel) (mutex : UInt64) : Except Stop Kernel :=
  if (k.mutexes mutex).guard then .ok (k.setMutex mutex { k.mutexes mutex with guard := false })
  else .error (.failed (.release "guard"))

/-- Where an attempt to take a mutex ends. -/
inductive Attempt where
  | acquired (k : Kernel)
  /-- The mutex is taken, and the `svc` of `sleep_for_mutex` comes next, with the guard held. -/
  | mustSleep (k : Kernel)

/--
An attempt to take a mutex: the guard is acquired and the loop test of `Mutex::acquire` is made.

The first attempt and those after a wake-up are the same, as `sleep_for_mutex` reacquires the guard.
-/
def Kernel.attemptMutex (k : Kernel) (mutex : UInt64) : Except Stop Attempt := do
  let k ← k.acquireGuard mutex
  if (k.mutexes mutex).lock then
    let k ← k.noteSleep "sleep_for_mutex" mutex .mutex
    return .mustSleep k
  else
    let k := k.setMutex mutex { k.mutexes mutex with lock := true }
    let holder := (k.getCurrent.bind k.processTable).map Process.pid
    let k := match holder with
      | some pid => k.setMutex mutex { k.mutexes mutex with pid := some pid }
      | none => k
    return .acquired (← k.releaseGuard mutex)

/-- `Mutex::release`. -/
def Kernel.releaseMutex (k : Kernel) (mutex : UInt64) : Except Stop Kernel := do
  let k ← k.acquireGuard mutex
  if ¬ (k.mutexes mutex).lock then throw (.failed (.mutexUnlocked mutex))
  if let some current := k.getCurrent.bind k.processTable then
    if (k.mutexes mutex).pid ≠ some current.pid then
      throw (.failed (.mutexOwner mutex (k.mutexes mutex).pid current.pid))
  let k := k.setMutex mutex { k.mutexes mutex with lock := false, pid := none }
  let k := k.wakeup mutex
  k.releaseGuard mutex

end AtOS
