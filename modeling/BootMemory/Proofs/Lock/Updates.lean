import BootMemory.Lock.Mutex
import BootMemory.Proofs.Lock.Queue
import Mathlib.Logic.ExistsUnique
import Mathlib.Logic.Relation

/-!
# Updates under contention

Callers queue with an update each while a guard is held.  `Mutex.contend` says
what comes of it when they are let in one after the other.
`Mutex.contend_serialises` is the account of it: nobody gets in beside the
guard, and once it is dropped the value is what the updates make of it in the
order in which their callers queued.

That order is not a matter of the schedule.  In a `Crowd` any waiting caller may
look at any time whether its ticket is served, and any caller under the lock may
leave it; the lock alone keeps the others out.  As long as there is something
left to do, exactly one caller can move.  The moves are what the calls of a mutex
do: `Crowd.join_eq_acquire` is about coming, `Crowd.Moves.mutex_eq` about leaving,
and by `Crowd.alone_moves_iff` work under a free lock is a crowd of one.

The tickets that are out must be fewer than a word can count.
-/

namespace BootMemory

open Contention

namespace Mutex

variable {Value : Type}

/-- What updates make of a value, one after the other. -/
def applyAll (updates : List (Value → Value)) (value : Value) : Value :=
  updates.foldl (fun value update => update value) value

/-! ## Callers let in one after the other -/

theorem queues_foldl_join
    {contention : Contention (Value → Value)} {holder : Value → Value}
    {line updates : List (Value → Value)}
    (queues : contention.Queues (holder :: line))
    (small : line.length + updates.length + 1 < wordCount) :
    (updates.foldl (fun contention update => (contention.join update).2)
      contention).Queues (holder :: (line ++ updates)) := by
  induction updates generalizing contention line with
  | nil =>
      rw [List.append_nil]
      exact queues
  | cons update rest inductionHypothesis =>
      have room : (holder :: line).length < wordCount := by
        simp only [List.length_cons] at small ⊢
        omega
      have longer :
          (line ++ [update]).length + rest.length + 1 < wordCount := by
        simp only [List.length_append, List.length_cons, List.length_nil]
          at small ⊢
        omega
      have joined :
          (contention.join update).2.Queues (holder :: (line ++ [update])) :=
        (queues.join room update).2
      rw [List.append_cons]
      exact inductionHypothesis joined longer

/-- While a guard is held, updates queue behind it in the order given. -/
theorem queues_queueUpdates
    {mutex : Mutex Value} (held : mutex.lock.Counts 1)
    {updates : List (Value → Value)} (few : updates.length + 1 < wordCount) :
    (mutex.queueUpdates updates).Queues (id :: updates) := by
  have alone :
      (Contention.around mutex.lock : Contention (Value → Value)).Queues
        [id] := ⟨held, rfl⟩
  have small :
      ([] : List (Value → Value)).length + updates.length + 1 < wordCount := by
    rw [List.length_nil, Nat.zero_add]
    exact few
  exact queues_foldl_join alone small

/-- Whoever is served applies its update, until the queue is empty. -/
theorem settle_of_queues
    {contention : Contention (Value → Value)} {holder : Value → Value}
    {line : List (Value → Value)} {most : Nat}
    (queues : contention.Queues (holder :: line))
    (small : line.length + 1 < wordCount) (enough : line.length < most)
    (value : Value) :
    settle most contention value =
      ⟨⟨contention.lock.next, contention.lock.next⟩, applyAll line value⟩ := by
  induction line generalizing contention holder most value with
  | nil =>
      rcases most with _ | most
      · cases enough
      rcases queues.unlock small with ⟨nobody, later⟩
      have turn : contention.unlock = (none, contention.unlock.2) :=
        Prod.ext nobody rfl
      rw [settle, turn]
      dsimp only
      rw [later.counts.eq_of_zero, lock_unlock, TicketLock.next_unlock]
      rfl
  | cons update rest inductionHypothesis =>
      rcases most with _ | most
      · cases enough
      rcases queues.unlock small with ⟨called, later⟩
      have turn :
          contention.unlock = (some update, contention.unlock.2) :=
        Prod.ext called rfl
      rw [settle, turn]
      dsimp only
      rw [inductionHypothesis later (Nat.lt_of_succ_lt small)
        (Nat.lt_of_succ_lt_succ enough) (update value), lock_unlock,
        TicketLock.next_unlock]
      rfl

/-- Updates that contend are made one after the other in the order given. -/
theorem contend_eq
    {mutex : Mutex Value} (held : mutex.lock.Counts 1)
    {updates : List (Value → Value)} (few : updates.length + 1 < wordCount) :
    (mutex.contend updates).2 =
      ⟨⟨(mutex.queueUpdates updates).lock.next,
          (mutex.queueUpdates updates).lock.next⟩,
        applyAll updates mutex.value⟩ := by
  have queues := queues_queueUpdates held few
  have callers := congrArg List.length queues.waiting_callers
  rw [List.length_map] at callers
  exact
    settle_of_queues queues few
      (Nat.lt_succ_of_le (Nat.le_of_eq callers.symm)) mutex.value

/-! ## Callers that move on their own -/

/-- Callers around a mutex, each with an update. -/
structure Crowd (Value : Type) where
  /-- The lock and who waits for it. -/
  contention : Contention (Value → Value)
  /-- Who is under the lock and has still to make its update. -/
  working : List (Value → Value)
  value : Value

namespace Crowd

/-- The updates are queued, and who holds the guard has nothing more to do. -/
def held (mutex : Mutex Value) (updates : List (Value → Value)) : Crowd Value :=
  ⟨mutex.queueUpdates updates, [id], mutex.value⟩

/-- The updates are queued, and the guard is dropped. -/
def dropped (mutex : Mutex Value) (updates : List (Value → Value)) :
    Crowd Value :=
  let contention := mutex.queueUpdates updates
  ⟨{ contention with lock := contention.lock.unlock }, [], mutex.value⟩

/-- Nobody is left. -/
def settled (mutex : Mutex Value) : Crowd Value :=
  ⟨.around mutex.lock, [], mutex.value⟩

/-- A move of one caller. -/
inductive Moves (crowd : Crowd Value) : Crowd Value → Prop
  /-- Who waits finds its ticket served. -/
  | enter
      {before after : List (UInt64 × (Value → Value))}
      {ticket : UInt64} {update : Value → Value}
      (waits :
        crowd.contention.waiting = before ++ (ticket, update) :: after)
      (served : crowd.contention.lock.serves ticket = true) :
      Moves crowd
        ⟨⟨crowd.contention.lock, before ++ after⟩, update :: crowd.working,
          crowd.value⟩
  /-- Who is under the lock makes its update and drops the guard. -/
  | leave
      {before after : List (Value → Value)} {update : Value → Value}
      (works : crowd.working = before ++ update :: after) :
      Moves crowd
        ⟨{ crowd.contention with lock := crowd.contention.lock.unlock },
          before ++ after, update crowd.value⟩

/-- The updates to be made, in order: the first caller is under the lock. -/
structure Working
    (crowd : Crowd Value) (first : Value → Value)
    (rest : List (Value → Value)) : Prop where
  queues : crowd.contention.Queues (first :: rest)
  working : crowd.working = [first]

/-- The updates to be made, in order: the first caller is let in next. -/
structure Calling
    (crowd : Crowd Value) (line : List (Value → Value)) : Prop where
  counts : crowd.contention.lock.Counts line.length
  waiting :
    crowd.contention.waiting = ticketed crowd.contention.lock.owner line
  working : crowd.working = []

variable {crowd next : Crowd Value} {first : Value → Value}
  {rest : List (Value → Value)}

/-- Nobody gets in beside who is under the lock. -/
theorem Working.moves_iff
    (working : crowd.Working first rest) (small : rest.length + 1 < wordCount) :
    crowd.Moves next ↔
      next =
        ⟨{ crowd.contention with lock := crowd.contention.lock.unlock }, [],
          first crowd.value⟩ := by
  constructor
  · intro move
    cases move with
    | @enter before after ticket update waits served =>
        have member : (ticket, update) ∈ crowd.contention.waiting := by
          rw [waits]
          simp
        have unserved := working.queues.unserved small _ member
        rw [served] at unserved
        cases unserved
    | @leave before after update works =>
        rw [working.working] at works
        rcases List.cons_eq_append_iff.mp works with
          ⟨rfl, only⟩ | ⟨others, -, nobody⟩
        · cases only
          rfl
        · simp at nobody
  · rintro rfl
    exact @Moves.leave Value crowd [] [] first working.working

/-- The first waiting caller gets in, and no other one. -/
theorem Calling.moves_iff
    (calling : crowd.Calling (first :: rest))
    (small : rest.length + 1 < wordCount) :
    crowd.Moves next ↔
      next =
        ⟨⟨crowd.contention.lock,
            ticketed (crowd.contention.lock.owner + 1) rest⟩,
          [first], crowd.value⟩ := by
  have waiting := calling.waiting
  have others :
      (⟨crowd.contention.lock,
        ticketed (crowd.contention.lock.owner + 1) rest⟩ :
          Contention (Value → Value)).Queues (first :: rest) :=
    ⟨calling.counts, rfl⟩
  constructor
  · intro move
    cases move with
    | @enter before after ticket update waits served =>
        rw [waiting, ticketed] at waits
        rcases List.cons_eq_append_iff.mp waits with
          ⟨rfl, same⟩ | ⟨earlier, -, later⟩
        · cases same
          rw [calling.working]
          rfl
        · have member :
              (ticket, update) ∈
                ticketed (crowd.contention.lock.owner + 1) rest := by
            rw [later]
            simp
          have unserved := others.unserved small _ member
          rw [served] at unserved
          cases unserved
    | @leave before after update works =>
        rw [calling.working] at works
        simp at works
  · rintro rfl
    have turn :=
      @Moves.enter Value crowd []
        (ticketed (crowd.contention.lock.owner + 1) rest)
        crowd.contention.lock.owner first waiting
        (by simp [TicketLock.serves])
    rw [calling.working] at turn
    exact turn

theorem Calling.not_moves_nil (calling : crowd.Calling []) :
    ¬ crowd.Moves next := by
  intro move
  cases move with
  | @enter before after ticket update waits served =>
      rw [calling.waiting, ticketed] at waits
      simp at waits
  | @leave before after update works =>
      rw [calling.working] at works
      simp at works

theorem Working.left
    (working : crowd.Working first rest) (small : rest.length + 1 < wordCount)
    (value : Value) :
    Calling
      ⟨{ crowd.contention with lock := crowd.contention.lock.unlock }, [],
        value⟩ rest := by
  rcases working.queues.counts.unlock_of_succ small with ⟨advanced, counts⟩
  refine ⟨counts, ?_, rfl⟩
  have waiting := working.queues.waiting
  dsimp only at waiting ⊢
  rw [waiting, advanced]
  rfl

theorem Calling.entered (calling : crowd.Calling (first :: rest)) :
    Working
      ⟨⟨crowd.contention.lock,
          ticketed (crowd.contention.lock.owner + 1) rest⟩,
        [first], crowd.value⟩ first rest :=
  ⟨⟨calling.counts, rfl⟩, rfl⟩

/-- The updates still to be made, in order. -/
def Stands (crowd : Crowd Value) (line : List (Value → Value)) : Prop :=
  crowd.Calling line ∨
    ∃ first rest, line = first :: rest ∧ crowd.Working first rest

theorem Stands.callers_eq
    {line : List (Value → Value)} (stands : crowd.Stands line) :
    crowd.working ++ crowd.contention.waiting.map Prod.snd = line := by
  rcases stands with calling | ⟨first, rest, rfl, working⟩
  · rw [calling.working, calling.waiting, map_snd_ticketed]
    rfl
  · rw [working.working, working.queues.waiting_callers]
    rfl

theorem Stands.alone
    {line : List (Value → Value)} (stands : crowd.Stands line) :
    crowd.working.length ≤ 1 := by
  rcases stands with calling | ⟨first, rest, rfl, working⟩
  · rw [calling.working]
    exact Nat.zero_le 1
  · rw [working.working]
    exact Nat.le_refl 1

/-- As long as there is an update to be made, exactly one caller can move. -/
theorem Stands.existsUnique_move
    {line : List (Value → Value)} (stands : crowd.Stands line)
    (small : line.length < wordCount) (more : line ≠ []) :
    ∃! next, crowd.Moves next := by
  rcases stands with calling | ⟨first, rest, rfl, working⟩
  · cases line with
    | nil => exact (more rfl).elim
    | cons first rest =>
        exact
          ⟨_, (calling.moves_iff small).mpr rfl, fun other move =>
            (calling.moves_iff small).mp move⟩
  · exact
      ⟨_, (working.moves_iff small).mpr rfl, fun other move =>
        (working.moves_iff small).mp move⟩

theorem Stands.calling_nil (stands : crowd.Stands []) : crowd.Calling [] := by
  rcases stands with calling | ⟨first, rest, more, -⟩
  · exact calling
  · cases more

/-- Callers that are let in all get their turn. -/
theorem Calling.reaches
    {line : List (Value → Value)} (calling : crowd.Calling line)
    (small : line.length < wordCount) :
    Relation.ReflTransGen Moves crowd
      (.settled
        ⟨⟨crowd.contention.lock.next, crowd.contention.lock.next⟩,
          applyAll line crowd.value⟩) := by
  induction line generalizing crowd with
  | nil =>
      rcases crowd with ⟨⟨lock, waiting⟩, working, value⟩
      have free : lock = ⟨lock.next, lock.next⟩ := calling.counts.eq_of_zero
      cases calling.waiting
      cases calling.working
      rw [settled, ← free]
      exact .refl
  | cons first rest inductionHypothesis =>
      have entering := (calling.moves_iff small).mpr rfl
      have leaving := (calling.entered.moves_iff small).mpr rfl
      have others :=
        inductionHypothesis
          (calling.entered.left small (first crowd.value))
          (Nat.lt_of_succ_lt small)
      rw [TicketLock.next_unlock] at others
      exact .head entering (.head leaving others)

/-- Some updates are made, and the others stand in line. -/
structure Follows
    (crowd : Crowd Value) (mutex : Mutex Value)
    (updates done todo : List (Value → Value)) : Prop where
  updates_eq : updates = done ++ todo
  value_eq : crowd.value = applyAll done mutex.value
  next_eq :
    crowd.contention.lock.next = (mutex.queueUpdates updates).lock.next
  stands : crowd.Stands todo

variable {mutex : Mutex Value} {updates done todo : List (Value → Value)}

theorem Follows.length_le
    (follows : crowd.Follows mutex updates done todo) :
    todo.length ≤ updates.length := by
  rw [follows.updates_eq, List.length_append]
  exact Nat.le_add_left _ _

/-- A move keeps the line, or makes the first update of it. -/
theorem Follows.step
    (follows : crowd.Follows mutex updates done todo)
    (few : updates.length + 1 < wordCount) (move : crowd.Moves next) :
    ∃ done todo, next.Follows mutex updates done todo := by
  have small : todo.length < wordCount :=
    Nat.lt_of_le_of_lt follows.length_le (Nat.lt_of_succ_lt few)
  rcases follows.stands with calling | ⟨first, rest, rfl, working⟩
  · cases todo with
    | nil => exact (calling.not_moves_nil move).elim
    | cons first rest =>
        rw [calling.moves_iff small] at move
        subst move
        exact
          ⟨done, first :: rest, follows.updates_eq, follows.value_eq,
            follows.next_eq, .inr ⟨first, rest, rfl, calling.entered⟩⟩
  · rw [working.moves_iff small] at move
    subst move
    refine ⟨done ++ [first], rest, ?_, ?_, ?_, .inl (working.left small _)⟩
    · rw [follows.updates_eq, List.append_cons]
    · rw [follows.value_eq, applyAll, applyAll, List.foldl_append]
      rfl
    · rw [← follows.next_eq]
      exact TicketLock.next_unlock _

theorem Follows.run
    {later : Crowd Value}
    (follows : crowd.Follows mutex updates done todo)
    (few : updates.length + 1 < wordCount)
    (moves : Relation.ReflTransGen Moves crowd later) :
    ∃ done todo, later.Follows mutex updates done todo := by
  induction moves with
  | refl => exact ⟨done, todo, follows⟩
  | tail _ move inductionHypothesis =>
      rcases inductionHypothesis with ⟨_, _, middle⟩
      exact middle.step few move

/-- What is seen of a crowd at any moment after the guard was dropped. -/
structure InTurn
    (crowd : Crowd Value) (mutex : Mutex Value)
    (updates done todo : List (Value → Value)) : Prop where
  updates_eq : updates = done ++ todo
  value_eq : crowd.value = applyAll done mutex.value
  callers_eq :
    crowd.working ++ crowd.contention.waiting.map Prod.snd = todo
  alone : crowd.working.length ≤ 1
  moves : todo ≠ [] → ∃! next, crowd.Moves next
  settled :
    todo = [] →
      crowd = .settled (mutex.contend updates).2 ∧
        ∀ next, ¬ crowd.Moves next

/-- When all updates are made, the crowd is what callers in order leave. -/
theorem Follows.settled
    (follows : crowd.Follows mutex updates done [])
    (held : mutex.lock.Counts 1) (few : updates.length + 1 < wordCount) :
    crowd = .settled (mutex.contend updates).2 := by
  have calling := follows.stands.calling_nil
  have value := follows.value_eq
  have free := calling.counts.eq_of_zero
  rw [← List.append_nil done, ← follows.updates_eq] at value
  rw [follows.next_eq] at free
  rw [contend_eq held few, Crowd.settled, ← free, ← value]
  rcases crowd with ⟨⟨lock, waiting⟩, working, value⟩
  cases calling.waiting
  cases calling.working
  rfl

theorem Follows.inTurn
    (follows : crowd.Follows mutex updates done todo)
    (held : mutex.lock.Counts 1) (few : updates.length + 1 < wordCount) :
    crowd.InTurn mutex updates done todo where
  updates_eq := follows.updates_eq
  value_eq := follows.value_eq
  callers_eq := follows.stands.callers_eq
  alone := follows.stands.alone
  moves := follows.stands.existsUnique_move
    (Nat.lt_of_le_of_lt follows.length_le (Nat.lt_of_succ_lt few))
  settled := by
    rintro rfl
    exact
      ⟨follows.settled held few, fun next =>
        follows.stands.calling_nil.not_moves_nil⟩

end Crowd

/-! ## The calls of a mutex as moves -/

/-- Work under the lock goes by way of the guard. -/
theorem withLock_eq
    {Outcome : Type} (mutex : Mutex Value)
    (work : Value → Outcome × Value) :
    mutex.withLock work =
      ((work mutex.value).1,
        (mutex.acquire.2.modify fun value => (work value).2).release) := rfl

namespace Crowd

variable {crowd next : Crowd Value}

/-- The mutex that a crowd is around. -/
def mutex (crowd : Crowd Value) : Mutex Value :=
  ⟨crowd.contention.lock, crowd.value⟩

/-- Who joins a crowd draws a ticket for the guard, and is served or waits. -/
theorem join_eq_acquire (crowd : Crowd Value) (update : Value → Value) :
    (crowd.contention.join update).1 = crowd.mutex.acquire.1 ∧
      (crowd.contention.join update).2.lock = crowd.mutex.acquire.2.lock := by
  rw [Contention.join]
  dsimp only [acquire, mutex]
  split
  · rename_i served
    exact ⟨served.symm, rfl⟩
  · rename_i unserved
    exact ⟨(eq_false_of_ne_true unserved).symm, rfl⟩

/-- Who gets in finds the mutex as it is; who leaves has changed the value by
way of the guard and has dropped it. -/
theorem Moves.mutex_eq (move : crowd.Moves next) :
    next.mutex = crowd.mutex ∨
      ∃ update ∈ crowd.working,
        next.mutex = (crowd.mutex.modify update).release := by
  cases move with
  | enter waits served => exact .inl rfl
  | @leave before after update works =>
      refine .inr ⟨update, ?_, rfl⟩
      rw [works]
      simp

/-- One caller is under the lock, and nobody else is there. -/
def alone (mutex : Mutex Value) (update : Value → Value) : Crowd Value :=
  ⟨.around mutex.acquire.2.lock, [update], mutex.value⟩

/-- Who comes to a free lock is under it at once. -/
theorem join_of_free
    {mutex : Mutex Value} (free : mutex.lock.Counts 0)
    (update : Value → Value) :
    (Contention.around mutex.lock).join update =
      (true, (alone mutex update).contention) := by
  rw [Contention.join]
  exact if_pos ((free.serves_draw_iff (by decide)).mpr rfl)

/-- Where nobody else is, work under the lock is the one move there is. -/
theorem alone_moves_iff
    {Outcome : Type} {mutex : Mutex Value} (free : mutex.lock.Counts 0)
    (work : Value → Outcome × Value) :
    (alone mutex fun value => (work value).2).Moves next ↔
      next = .settled (mutex.withLock work).2 := by
  have working :
      (alone mutex fun value => (work value).2).Working
        (fun value => (work value).2) [] :=
    ⟨⟨free.draw, rfl⟩, rfl⟩
  exact working.moves_iff (show 1 < wordCount by decide)

end Crowd

/-! ## What comes of it -/

/-- What comes of updates that contend for a mutex. -/
structure Serialised
    (mutex : Mutex Value) (updates : List (Value → Value)) : Prop where
  callers_eq : (mutex.queueUpdates updates).waiting.map Prod.snd = updates
  queued_eq : (mutex.contend updates).1.toNat = updates.length + 1
  held_iff : ∀ next,
    (Crowd.held mutex updates).Moves next ↔
      next = .dropped mutex updates
  value_eq : (mutex.contend updates).2.value = applyAll updates mutex.value
  isLocked_eq : (mutex.contend updates).2.lock.isLocked = false
  queued_zero : (mutex.contend updates).2.lock.queued = 0
  settles :
    Relation.ReflTransGen Crowd.Moves (.dropped mutex updates)
      (.settled (mutex.contend updates).2)
  in_turn : ∀ crowd,
    Relation.ReflTransGen Crowd.Moves (.dropped mutex updates) crowd →
      ∃ done todo, crowd.InTurn mutex updates done todo

/--
Updates that queue while a guard is held are made in that order once it is
dropped, each of them once and alone, and leave the lock free.
-/
theorem contend_serialises
    (mutex : Mutex Value) (held : mutex.lock.queued = 1)
    (updates : List (Value → Value)) (few : updates.length + 1 < wordCount) :
    mutex.Serialised updates := by
  have counts : mutex.lock.Counts 1 := TicketLock.counts_iff.mpr held
  have queues := queues_queueUpdates counts few
  have working : (Crowd.held mutex updates).Working id updates :=
    ⟨queues, rfl⟩
  have calling : (Crowd.dropped mutex updates).Calling updates :=
    working.left few mutex.value
  have follows :
      (Crowd.dropped mutex updates).Follows mutex updates [] updates :=
    ⟨rfl, rfl, TicketLock.next_unlock _, .inl calling⟩
  have ended := contend_eq counts few
  refine
    { callers_eq := queues.waiting_callers
      queued_eq := queues.counts.toNat_queued few
      held_iff := fun next => working.moves_iff few
      value_eq := ?_
      isLocked_eq := ?_
      queued_zero := ?_
      settles := ?_
      in_turn := ?_ }
  · rw [ended]
  · rw [ended]
    simp [TicketLock.isLocked]
  · rw [ended]
    simp [TicketLock.queued]
  · rw [ended, ← TicketLock.next_unlock]
    exact calling.reaches (Nat.lt_of_succ_lt few)
  · intro crowd moves
    rcases follows.run few moves with ⟨done, todo, later⟩
    exact ⟨done, todo, later.inTurn counts few⟩

end Mutex

namespace Sample

/-- A list under a guard, close to where the tickets start over. -/
def guardedList : Mutex (List Nat) := ⟨⟨0, 18446744073709551615⟩, [7]⟩

/-- Three callers that each append their own number. -/
def appendUpdates : List (List Nat → List Nat) :=
  [(· ++ [0]), (· ++ [1]), (· ++ [2])]

/-- The sample's callers are served in order. -/
theorem appendUpdates_serialised :
    guardedList.lock.queued = 1 ∧ appendUpdates.length + 1 < wordCount ∧
      guardedList.Serialised appendUpdates ∧
      (guardedList.contend appendUpdates).2.value = [7, 0, 1, 2] :=
  ⟨rfl, by decide,
    Mutex.contend_serialises guardedList rfl appendUpdates (by decide), rfl⟩

end Sample

end BootMemory
