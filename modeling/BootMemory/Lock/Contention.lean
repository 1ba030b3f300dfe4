import BootMemory.Lock.Ticket

/-!
# Contention

Callers that wait for a ticket lock.  Each of them keeps the ticket that it
drew and looks whether it is served; nothing but the ticket decides whose turn
it is.
-/

namespace BootMemory

/-- A ticket lock and the callers that wait for it. -/
structure Contention (Caller : Type) where
  lock : TicketLock
  /-- Who waits, each with its ticket. -/
  waiting : List (UInt64 × Caller)

namespace Contention

variable {Caller : Type}

/-- A lock that nobody holds or waits for. -/
def quiet : Contention Caller := ⟨.free, []⟩

/-- The callers around a lock that is given. -/
def around (lock : TicketLock) : Contention Caller := ⟨lock, []⟩

/--
A caller draws a ticket; the outcome tells whether it is served at once.
Otherwise the caller waits.
-/
def join (contention : Contention Caller) (caller : Caller) :
    Bool × Contention Caller :=
  let (ticket, lock) := contention.lock.draw
  if lock.serves ticket then
    (true, { contention with lock })
  else
    (false, ⟨lock, contention.waiting ++ [(ticket, caller)]⟩)

/-- Take the lock if nobody holds it or waits for it. -/
def tryLock (contention : Contention Caller) : Bool × Contention Caller :=
  let (taken, lock) := contention.lock.tryLock
  (taken, { contention with lock })

/-- The caller among those who wait whose ticket is served, and the others. -/
def callNext (lock : TicketLock) :
    List (UInt64 × Caller) → Option (Caller × List (UInt64 × Caller))
  | [] => none
  | (ticket, caller) :: rest =>
      if lock.serves ticket then
        some (caller, rest)
      else
        (callNext lock rest).map fun (called, others) =>
          (called, (ticket, caller) :: others)

/-- Give up the lock; the outcome is the caller that is served now. -/
def unlock (contention : Contention Caller) :
    Option Caller × Contention Caller :=
  let lock := contention.lock.unlock
  match callNext lock contention.waiting with
  | some (caller, waiting) => (some caller, ⟨lock, waiting⟩)
  | none => (none, { contention with lock })

/--
Give up the lock until nobody holds it, at most a number of times.  The outcome
lists who is served at each turn.
-/
def drainUpTo : (most : Nat) → Contention Caller →
    List (Option Caller) × Contention Caller
  | 0, contention => ([], contention)
  | most + 1, contention =>
      if contention.lock.isLocked then
        let (served, contention) := contention.unlock
        let (others, contention) := drainUpTo most contention
        (served :: others, contention)
      else
        ([], contention)

/-- Give up the lock until nobody holds it. -/
def drain (contention : Contention Caller) :
    List (Option Caller) × Contention Caller :=
  drainUpTo contention.lock.queued.toNat contention

end Contention

end BootMemory
