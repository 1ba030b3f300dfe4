import BootMemory.Lock.Session
import BootMemory.Proofs.Lock.Updates
import BootMemory.Proofs.Simulation

/-!
# Sessions leak no ticket

A caller works with a mutex through calls that take the lock and give it up in
different ways: a guard that is kept, work that returns or fails under the lock,
diagnostic output that takes the guard for a moment, and attempts that come to
nothing.  `Cell` is what all of this amounts to: a value, and whether there is a
guard.  A call makes a change to the value, which `Call.change` names, and does
to the guard what `Call.guardAfter` says.

`Session.performAll_accounts` says that a session is such a cell after every
sequence of calls: the counters of its lock are one apart while there is a guard
and level otherwise, so the lock is held exactly as long as the guard lives, and
who comes next is served at once.  Calls that would wait for the caller's own
guard or work through one that is not there are answered with the misuse and
change nothing.
-/

namespace BootMemory

namespace Mutex

variable {Value : Type} {mutex : Mutex Value}

/-! ## A lock that is free or held once -/

theorem acquire_of_zero (counts : mutex.lock.Counts 0) :
    mutex.acquire = (true, ⟨mutex.lock.draw.2, mutex.value⟩) :=
  Prod.ext ((counts.serves_draw_iff (by decide)).mpr rfl) rfl

theorem counts_release (counts : mutex.lock.Counts 1) :
    mutex.release.lock.Counts 0 :=
  (counts.unlock_of_succ (by decide)).2

theorem counts_withLock
    {Outcome : Type} (counts : mutex.lock.Counts 0)
    (work : Value → Outcome × Value) :
    (mutex.withLock work).2.lock.Counts 0 :=
  (counts.draw.unlock_of_succ (by decide)).2

theorem describe_of_zero
    (counts : mutex.lock.Counts 0) (showValue : Value → String) :
    mutex.describe showValue =
      (s!"Mutex \x7b data: {showValue mutex.value}, .. \x7d",
        ⟨mutex.lock.draw.2.unlock, mutex.value⟩) := by
  simp only [describe, tryLock, counts.tryLock_of_zero, release]

theorem describe_of_one
    (counts : mutex.lock.Counts 1) (showValue : Value → String) :
    mutex.describe showValue =
      ("Mutex \x7b data: <locked>, .. \x7d", mutex) := by
  simp only [describe, tryLock,
    counts.tryLock_of_pos (by decide) (Nat.succ_pos 0)]

end Mutex

namespace Session

/-! ## Calls -/

/-- What a caller can ask of a mutex and of its guard. -/
inductive Call (Value Outcome Failure : Type) where
  | lock
  | tryLock
  | drop
  | read
  | modify (change : Value → Value)
  | modifyExclusive (change : Value → Value)
  /-- The work yields an outcome or fails, and leaves a value either way. -/
  | withLock (work : Value → Except Failure Outcome × Value)
  | describe
  | describeGuard

/-- What a call yields. -/
inductive Answer (Value Outcome Failure : Type) where
  | done
  | flag (value : Bool)
  | value (value : Value)
  | worked (outcome : Except Failure Outcome)
  | text (line : String)
  | refused (misuse : Misuse)

variable {Value Outcome Failure : Type} (showValue : Value → String)

/-- A step that is refused leaves the session as it is. -/
def settle
    (session : Session Value)
    (step :
      Except Misuse (Answer Value Outcome Failure × Session Value)) :
    Answer Value Outcome Failure × Session Value :=
  match step with
  | .ok result => result
  | .error misuse => (.refused misuse, session)

/-- Perform a call. -/
def perform :
    Call Value Outcome Failure → Session Value →
      Answer Value Outcome Failure × Session Value
  | .lock, session =>
      session.settle (session.lock.map fun later => (.done, later))
  | .tryLock, session =>
      let (taken, later) := session.tryLock
      (.flag taken, later)
  | .drop, session =>
      let (dropped, later) := session.drop
      (.flag dropped, later)
  | .read, session =>
      session.settle (session.read.map fun value => (.value value, session))
  | .modify change, session =>
      session.settle ((session.modify change).map fun later =>
        (.value later.mutex.value, later))
  | .modifyExclusive change, session =>
      session.settle ((session.modifyExclusive change).map fun later =>
        (.value later.mutex.value, later))
  | .withLock work, session =>
      session.settle ((session.withLock work).map fun (outcome, later) =>
        (.worked outcome, later))
  | .describe, session =>
      let (line, later) := session.describe showValue
      (.text line, later)
  | .describeGuard, session =>
      session.settle (session.read.map fun value =>
        (.text (showValue value), session))

/-- Perform calls in order. -/
def performAll
    (calls : List (Call Value Outcome Failure)) (session : Session Value) :
    List (Answer Value Outcome Failure) × Session Value :=
  answerAll (perform showValue) calls session

/-! ## Cells -/

/-- A value, and whether there is a guard for it. -/
structure Cell (Value : Type) where
  value : Value
  guarded : Bool

/-- The diagnostic line: the value is shown unless there is a guard. -/
def Cell.line (cell : Cell Value) : String :=
  let shown := if cell.guarded then "<locked>" else showValue cell.value
  s!"Mutex \x7b data: {shown}, .. \x7d"

/-- What a call makes of the value, told whether there is a guard. -/
def Call.change (guarded : Bool) :
    Call Value Outcome Failure → Value → Value
  | .modify change => if guarded then change else id
  | .modifyExclusive change => if guarded then id else change
  | .withLock work => if guarded then id else fun value => (work value).2
  | _ => id

/-- Whether there is a guard after a call. -/
def Call.guardAfter (guarded : Bool) : Call Value Outcome Failure → Bool
  | .lock | .tryLock => true
  | .drop => false
  | _ => guarded

/-- What a call on a cell yields. -/
def Call.answer (cell : Cell Value) :
    Call Value Outcome Failure → Answer Value Outcome Failure
  | .lock => if cell.guarded then .refused .deadlock else .done
  | .tryLock => .flag !cell.guarded
  | .drop => .flag cell.guarded
  | .read => if cell.guarded then .value cell.value else .refused .noGuard
  | .modify change =>
      if cell.guarded then .value (change cell.value) else .refused .noGuard
  | .modifyExclusive change =>
      if cell.guarded then .refused .guardAlive else .value (change cell.value)
  | .withLock work =>
      if cell.guarded then
        .refused .deadlock
      else
        .worked (work cell.value).1
  | .describe => .text (cell.line showValue)
  | .describeGuard =>
      if cell.guarded then
        .text (showValue cell.value)
      else
        .refused .noGuard

/-- Perform a call on a cell. -/
def Call.onCell
    (call : Call Value Outcome Failure) (cell : Cell Value) :
    Answer Value Outcome Failure × Cell Value :=
  (call.answer showValue cell,
    ⟨call.change cell.guarded cell.value, call.guardAfter cell.guarded⟩)

/-- The changes that calls make, in order. -/
def changes (guarded : Bool) :
    List (Call Value Outcome Failure) → List (Value → Value)
  | [] => []
  | call :: rest =>
      call.change guarded :: changes (call.guardAfter guarded) rest

/-! ## A session is a cell -/

/-- A session stands for a cell: a guard is one ticket that is out. -/
structure Stands (session : Session Value) (cell : Cell Value) : Prop where
  value_eq : session.mutex.value = cell.value
  guard_eq : session.hasGuard = cell.guarded
  counts : session.mutex.lock.Counts cell.guarded.toNat

theorem stands_start (value : Value) : (start value).Stands ⟨value, false⟩ :=
  ⟨rfl, rfl, TicketLock.counts_free⟩

variable {session : Session Value} {cell : Cell Value}

theorem Stands.isLocked_eq (stands : session.Stands cell) :
    session.mutex.lock.isLocked = cell.guarded := by
  have small : cell.guarded.toNat < wordCount :=
    Nat.lt_of_le_of_lt (Bool.toNat_le _) (by decide)
  rw [Bool.eq_iff_iff, stands.counts.isLocked_iff small]
  cases cell.guarded <;> decide

theorem Stands.queued_eq (stands : session.Stands cell) :
    session.mutex.lock.queued = if cell.guarded then 1 else 0 := by
  rw [TicketLock.counts_iff.mp stands.counts]
  cases cell.guarded <;> rfl

/-- Every call does to a session what it does to the cell. -/
theorem Stands.perform
    (stands : session.Stands cell) (call : Call Value Outcome Failure) :
    (perform showValue call session).1 = (call.onCell showValue cell).1 ∧
      (perform showValue call session).2.Stands
        (call.onCell showValue cell).2 := by
  have locked := stands.isLocked_eq
  rcases session with ⟨mutex, hasGuard⟩
  rcases cell with ⟨value, guarded⟩
  rcases stands with ⟨rfl, rfl, counts⟩
  dsimp only at locked counts
  cases hasGuard with
  | false =>
      cases call with
      | lock =>
          simp only [Session.perform, Session.lock, locked]
          exact ⟨rfl, rfl, rfl, counts.draw⟩
      | tryLock =>
          simp only [Session.perform, Session.tryLock, Mutex.tryLock,
            counts.tryLock_of_zero]
          exact ⟨rfl, rfl, rfl, counts.draw⟩
      | drop => exact ⟨rfl, rfl, rfl, counts⟩
      | read => exact ⟨rfl, rfl, rfl, counts⟩
      | modify change => exact ⟨rfl, rfl, rfl, counts⟩
      | modifyExclusive change => exact ⟨rfl, rfl, rfl, counts⟩
      | withLock work =>
          simp only [Session.perform, Session.withLock, locked]
          exact ⟨rfl, rfl, rfl, Mutex.counts_withLock counts work⟩
      | describe =>
          simp only [Session.perform, Session.describe,
            Mutex.describe_of_zero counts]
          exact ⟨rfl, rfl, rfl, (counts.draw.unlock_of_succ (by decide)).2⟩
      | describeGuard => exact ⟨rfl, rfl, rfl, counts⟩
  | true =>
      cases call with
      | lock =>
          simp only [Session.perform, Session.lock, locked]
          exact ⟨rfl, rfl, rfl, counts⟩
      | tryLock =>
          simp only [Session.perform, Session.tryLock, Mutex.tryLock,
            counts.tryLock_of_pos (by decide) (Nat.succ_pos 0)]
          exact ⟨rfl, rfl, rfl, counts⟩
      | drop => exact ⟨rfl, rfl, rfl, Mutex.counts_release counts⟩
      | read => exact ⟨rfl, rfl, rfl, counts⟩
      | modify change => exact ⟨rfl, rfl, rfl, counts⟩
      | modifyExclusive change => exact ⟨rfl, rfl, rfl, counts⟩
      | withLock work =>
          simp only [Session.perform, Session.withLock, locked]
          exact ⟨rfl, rfl, rfl, counts⟩
      | describe =>
          simp only [Session.perform, Session.describe,
            Mutex.describe_of_one counts]
          exact ⟨rfl, rfl, rfl, counts⟩
      | describeGuard => exact ⟨rfl, rfl, rfl, counts⟩

/-- So does every sequence of calls. -/
theorem Stands.performAll
    (stands : session.Stands cell)
    (calls : List (Call Value Outcome Failure)) :
    (performAll showValue calls session).1 =
        (answerAll (Call.onCell showValue) calls cell).1 ∧
      (performAll showValue calls session).2.Stands
        (answerAll (Call.onCell showValue) calls cell).2 := by
  refine @answerAll_alike _ _ _ _ Stands _ _ ?_ calls _ _ stands
  intro call session cell stands
  exact stands.perform showValue call

/-- A cell is left with the changes that its calls made, one after the other. -/
theorem answerAll_onCell
    (calls : List (Call Value Outcome Failure)) (cell : Cell Value) :
    (answerAll (Call.onCell showValue) calls cell).2 =
      ⟨Mutex.applyAll (changes cell.guarded calls) cell.value,
        calls.foldl Call.guardAfter cell.guarded⟩ := by
  induction calls generalizing cell with
  | nil => rfl
  | cons call rest inductionHypothesis =>
      exact inductionHypothesis (call.onCell showValue cell).2

/-- Nothing that can be asked tells two sessions apart. -/
structure Unnoticed
    (Outcome Failure : Type) (session later : Session Value) : Prop where
  value_eq : later.mutex.value = session.mutex.value
  guard_eq : later.hasGuard = session.hasGuard
  isLocked_eq : later.mutex.lock.isLocked = session.mutex.lock.isLocked
  queued_eq : later.mutex.lock.queued = session.mutex.lock.queued
  answers_eq : ∀ calls : List (Call Value Outcome Failure),
    (performAll showValue calls later).1 =
      (performAll showValue calls session).1

theorem Stands.unnoticed
    {later : Session Value} (stands : session.Stands cell)
    (same : later.Stands cell) :
    Unnoticed showValue Outcome Failure session later where
  value_eq := same.value_eq.trans stands.value_eq.symm
  guard_eq := same.guard_eq.trans stands.guard_eq.symm
  isLocked_eq := same.isLocked_eq.trans stands.isLocked_eq.symm
  queued_eq := same.queued_eq.trans stands.queued_eq.symm
  answers_eq calls :=
    (same.performAll showValue calls).1.trans
      (stands.performAll showValue calls).1.symm

/-- A mutex with a value, after a sequence of calls. -/
structure Accounts
    (value : Value) (calls : List (Call Value Outcome Failure))
    (answers : List (Answer Value Outcome Failure))
    (session : Session Value) : Prop where
  answers_eq :
    answers = (answerAll (Call.onCell showValue) calls ⟨value, false⟩).1
  guard_eq : session.hasGuard = calls.foldl Call.guardAfter false
  value_eq :
    session.mutex.value = Mutex.applyAll (changes false calls) value
  isLocked_eq : session.mutex.lock.isLocked = session.hasGuard
  queued_eq : session.mutex.lock.queued = if session.hasGuard then 1 else 0
  acquires : session.hasGuard = false → session.mutex.acquire.1 = true
  describe_eq :
    (session.describe showValue).1 =
      Cell.line showValue ⟨session.mutex.value, session.hasGuard⟩
  describe_unnoticed :
    Unnoticed showValue Outcome Failure session
      (session.describe showValue).2
  describeGuard_unnoticed :
    (perform showValue (.describeGuard : Call Value Outcome Failure)
      session).2 = session

theorem Stands.accounts
    {value : Value} {calls : List (Call Value Outcome Failure)}
    (stands :
      session.Stands
        (answerAll (Call.onCell showValue) calls ⟨value, false⟩).2) :
    Accounts showValue value calls
      (answerAll (Call.onCell showValue) calls ⟨value, false⟩).1 session := by
  have described :=
    stands.perform showValue (.describe : Call Value Outcome Failure)
  have last := answerAll_onCell showValue calls ⟨value, false⟩
  have guarded := stands.guard_eq
  refine
    { answers_eq := rfl
      guard_eq := ?_
      value_eq := ?_
      isLocked_eq := ?_
      queued_eq := ?_
      acquires := ?_
      describe_eq := ?_
      describe_unnoticed := ?_
      describeGuard_unnoticed := ?_ }
  · rw [guarded, last]
  · rw [stands.value_eq, last]
  · rw [guarded, stands.isLocked_eq]
  · rw [guarded, stands.queued_eq]
  · intro nobody
    have counts := stands.counts
    rw [← guarded, nobody] at counts
    rw [Mutex.acquire_of_zero counts]
  · rw [stands.value_eq, guarded]
    exact Answer.text.inj described.1
  · exact stands.unnoticed showValue described.2
  · rw [Session.perform, Session.read]
    split <;> rfl

/--
After every sequence of calls the lock is held exactly while there is a guard,
no ticket is left over, and the value is what the calls made of it.
-/
theorem performAll_accounts
    (value : Value) (calls : List (Call Value Outcome Failure)) :
    Accounts showValue value calls
      (performAll showValue calls (start value)).1
      (performAll showValue calls (start value)).2 := by
  rcases (stands_start value).performAll showValue calls with ⟨same, stands⟩
  rw [same]
  exact stands.accounts showValue

/-- Work that fails keeps what it did, and leaves the lock free. -/
example :
    (performAll toString
      [.withLock fun number => (.error "boom", number + 1), .describe, .lock,
        .describe]
      (start 122) : List (Answer Nat Unit String) × Session Nat).1 =
      [.worked (.error "boom"), .text "Mutex \x7b data: 123, .. \x7d", .done,
        .text "Mutex \x7b data: <locked>, .. \x7d"] := rfl

end Session

end BootMemory
