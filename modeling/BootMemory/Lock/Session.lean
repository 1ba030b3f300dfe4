import BootMemory.Lock.Mutex

/-!
# Sessions

One caller at work with a mutex.  It holds at most one guard, and keeps it from
one step to the next.  A step that would never end, because the caller waits
for its own guard, is refused, and so is one that needs a guard where there is
none or that must not have one.
-/

namespace BootMemory

/-- Why a step of a session is refused. -/
inductive Misuse where
  /-- The caller would wait for its own guard. -/
  | deadlock
  /-- The step works through the guard, and there is none. -/
  | noGuard
  /-- The step needs exclusive access, and there is a guard. -/
  | guardAlive
  deriving DecidableEq

/-- The line reported for a refused step. -/
def Misuse.message : Misuse → String
  | deadlock => "deadlock"
  | noGuard => "no guard"
  | guardAlive => "guard alive"

/-- A mutex and whether the caller holds its guard. -/
structure Session (Value : Type) where
  mutex : Mutex Value
  hasGuard : Bool

namespace Session

variable {Value : Type}

/-- A mutex that nobody has worked with. -/
def start (value : Value) : Session Value := ⟨.new value, false⟩

/-- Take the guard. -/
def lock (session : Session Value) : Except Misuse (Session Value) :=
  if session.mutex.lock.isLocked then
    .error .deadlock
  else
    .ok ⟨session.mutex.acquire.2, true⟩

/-- Take the guard if it is free. -/
def tryLock (session : Session Value) : Bool × Session Value :=
  match session.mutex.tryLock with
  | (true, mutex) => (true, ⟨mutex, true⟩)
  | (false, mutex) => (false, { session with mutex })

/-- Drop the guard; the outcome tells whether there was one. -/
def drop (session : Session Value) : Bool × Session Value :=
  if session.hasGuard then
    (true, ⟨session.mutex.release, false⟩)
  else
    (false, session)

/-- The value, through the guard. -/
def read (session : Session Value) : Except Misuse Value :=
  if session.hasGuard then
    .ok session.mutex.value
  else
    .error .noGuard

/-- Change the value, through the guard. -/
def modify (session : Session Value) (change : Value → Value) :
    Except Misuse (Session Value) :=
  if session.hasGuard then
    .ok { session with mutex := session.mutex.modify change }
  else
    .error .noGuard

/-- Change the value with exclusive access. -/
def modifyExclusive (session : Session Value) (change : Value → Value) :
    Except Misuse (Session Value) :=
  if session.hasGuard then
    .error .guardAlive
  else
    .ok { session with mutex := session.mutex.modify change }

/-- Work on the value under the lock. -/
def withLock {Outcome : Type} (session : Session Value)
    (work : Value → Outcome × Value) :
    Except Misuse (Outcome × Session Value) :=
  if session.mutex.lock.isLocked then
    .error .deadlock
  else
    let (outcome, mutex) := session.mutex.withLock work
    .ok (outcome, { session with mutex })

/-- The mutex in diagnostic output. -/
def describe (session : Session Value) (showValue : Value → String) :
    String × Session Value :=
  let (text, mutex) := session.mutex.describe showValue
  (text, { session with mutex })

/--
Other callers queue with their updates while the guard is held; then the guard
is dropped and all of them run.
-/
def contend (session : Session Value) (updates : List (Value → Value)) :
    Except Misuse (UInt64 × Session Value) :=
  if session.hasGuard then
    let (queued, mutex) := session.mutex.contend updates
    .ok (queued, ⟨mutex, false⟩)
  else
    .error .noGuard

end Session

end BootMemory
