/-!
# Ticket locks

A ticket lock is two counters.  Who wants the lock draws the next ticket, and
waits until that ticket is served; giving up the lock serves the ticket after.
The lock is held while a ticket is drawn that has not been given up, so callers
are served in the order in which they drew.

The counters are words and go on at zero after the last one.
-/

namespace BootMemory

/-- The counters of a ticket lock. -/
structure TicketLock where
  /-- The ticket that is drawn next. -/
  next : UInt64
  /-- The ticket that is served. -/
  owner : UInt64
  deriving DecidableEq

namespace TicketLock

/-- A lock that nobody holds. -/
def free : TicketLock := ⟨0, 0⟩

/-- Draw a ticket. -/
def draw (lock : TicketLock) : UInt64 × TicketLock :=
  (lock.next, { lock with next := lock.next + 1 })

/-- Whether a ticket is served. -/
def serves (lock : TicketLock) (ticket : UInt64) : Bool := lock.owner == ticket

/-- Whether somebody holds the lock. -/
def isLocked (lock : TicketLock) : Bool := lock.owner != lock.next

/-- How many tickets are drawn and not given up: the holder and who waits. -/
def queued (lock : TicketLock) : UInt64 := lock.next - lock.owner

/-- Take the lock if nobody holds it or waits for it. -/
def tryLock (lock : TicketLock) : Bool × TicketLock :=
  if lock.next == lock.owner then
    (true, { lock with next := lock.next + 1 })
  else
    (false, lock)

/-- Serve the next ticket; a lock that nobody holds stays as it is. -/
def unlock (lock : TicketLock) : TicketLock :=
  if lock.owner == lock.next then
    lock
  else
    { lock with owner := lock.owner + 1 }

theorem tryLock_eq_true_iff (lock : TicketLock) :
    lock.tryLock.1 = true ↔ lock.isLocked = false := by
  by_cases level : lock.next = lock.owner
  · simp [tryLock, isLocked, level]
  · simp [tryLock, isLocked, level, Ne.symm level]

end TicketLock

end BootMemory
