import BootMemory.Lock.Contention

/-!
# Mutexes

A mutex is a value behind a ticket lock.  Who holds the lock has a guard, and
reaches the value through it; dropping the guard gives up the lock.

Work under the lock may fail half way.  What it did to the value until then
remains, and the lock is given up all the same.
-/

namespace BootMemory

/-- A value that is reached under a lock. -/
structure Mutex (Value : Type) where
  lock : TicketLock
  value : Value

namespace Mutex

variable {Value : Type}

/-- A value behind a lock that nobody holds. -/
def new (value : Value) : Mutex Value := ⟨.free, value⟩

/-- Draw a ticket for the guard; it is served at once if the lock is free. -/
def acquire (mutex : Mutex Value) : Bool × Mutex Value :=
  let (ticket, lock) := mutex.lock.draw
  (lock.serves ticket, { mutex with lock })

/-- Take the guard if nobody holds it or waits for it. -/
def tryLock (mutex : Mutex Value) : Bool × Mutex Value :=
  let (taken, lock) := mutex.lock.tryLock
  (taken, { mutex with lock })

/-- Drop the guard. -/
def release (mutex : Mutex Value) : Mutex Value :=
  { mutex with lock := mutex.lock.unlock }

/-- Change the value, through the guard or with exclusive access. -/
def modify (mutex : Mutex Value) (change : Value → Value) : Mutex Value :=
  { mutex with value := change mutex.value }

/--
Work on the value under the lock.  The work yields an outcome, which may be a
failure, and the value as it leaves it.
-/
def withLock {Outcome : Type} (mutex : Mutex Value)
    (work : Value → Outcome × Value) : Outcome × Mutex Value :=
  let (_, held) := mutex.acquire
  let (outcome, value) := work held.value
  (outcome, { held with value }.release)

/--
The mutex in diagnostic output.  The value is shown if the guard can be taken
for it, which is dropped again afterwards.
-/
def describe (mutex : Mutex Value) (showValue : Value → String) :
    String × Mutex Value :=
  match mutex.tryLock with
  | (true, held) =>
      let shown := showValue held.value
      (s!"Mutex \x7b data: {shown}, .. \x7d", held.release)
  | (false, mutex) => ("Mutex \x7b data: <locked>, .. \x7d", mutex)

/-- Queue updates while the guard is held, in the order given. -/
def queueUpdates (mutex : Mutex Value) (updates : List (Value → Value)) :
    Contention (Value → Value) :=
  updates.foldl (fun contention update => (contention.join update).2)
    (Contention.around mutex.lock)

/--
Drop the guard and let every queued update have its turn: whoever is served
applies its update and drops the guard again.
-/
def settle : (most : Nat) → Contention (Value → Value) → Value → Mutex Value
  | 0, contention, value => ⟨contention.lock, value⟩
  | most + 1, contention, value =>
      match contention.unlock with
      | (some update, contention) => settle most contention (update value)
      | (none, contention) => ⟨contention.lock, value⟩

/--
Updates queue while the guard is held, then the guard is dropped and all of
them run.  The outcome is the length of the queue while the guard was held.
-/
def contend (mutex : Mutex Value) (updates : List (Value → Value)) :
    UInt64 × Mutex Value :=
  let contention := mutex.queueUpdates updates
  (contention.lock.queued,
    settle (contention.waiting.length + 1) contention mutex.value)

end Mutex

end BootMemory
