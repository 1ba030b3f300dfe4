import BootMemory.Lock.Contention
import BootMemory.Size
import Mathlib.Algebra.Group.Nat.Defs

/-!
# Ticket locks are first-in first-out queues

The queue that a ticket lock stands for is a list of callers.  The first of
them holds the lock, the others wait, and `Contention.queueStep` says what a
step does to the list.  `Attendance` follows a run of the counters and records
who drew a ticket, who was served, and who was served and has not left since.

Both are related by `Attendance.Follows`: the distance of the counters is the
length of the list, and the waiting callers have consecutive tickets.  The
relation is kept by every step while fewer than `wordCount` tickets are out, and
`Attendance.run_orderly` reads off it what callers can rely on.
-/

namespace BootMemory

/-! ## The counters -/

namespace TicketLock

/-- A number of tickets are drawn and not given up. -/
def Counts (lock : TicketLock) (count : Nat) : Prop :=
  lock.next = lock.owner + UInt64.ofNat count

theorem counts_free : free.Counts 0 := rfl

theorem counts_iff {lock : TicketLock} {count : Nat} :
    lock.Counts count ↔ lock.queued = UInt64.ofNat count := by
  rw [Counts, queued]
  constructor
  · intro ahead
    rw [ahead, UInt64.add_comm, UInt64.add_sub_cancel]
  · intro distance
    rw [← distance, UInt64.add_comm, UInt64.sub_add_cancel]

@[simp]
theorem next_unlock (lock : TicketLock) : lock.unlock.next = lock.next := by
  unfold unlock
  split <;> rfl

namespace Counts

variable {lock : TicketLock} {count : Nat}

/-- A ticket of those that are out is some way behind the one that is served. -/
theorem add_ofNat_eq_iff
    (owner : UInt64) (small : count < wordCount) :
    owner + UInt64.ofNat count = owner ↔ count = 0 := by
  rw [← UInt64.toNat_inj, UInt64.toNat_add, UInt64.toNat_ofNat']
  have bound := owner.toNat_lt
  simp only [wordCount] at small
  omega

/-- The counters are level only while no ticket is out. -/
theorem next_eq_owner_iff
    (counts : lock.Counts count) (small : count < wordCount) :
    lock.next = lock.owner ↔ count = 0 := by
  rw [counts]
  exact add_ofNat_eq_iff lock.owner small

/-- A lock that nobody holds is told by the ticket that is drawn next. -/
theorem eq_of_zero (counts : lock.Counts 0) :
    lock = ⟨lock.next, lock.next⟩ := by
  have level := (counts.next_eq_owner_iff (by decide)).mpr rfl
  cases lock
  cases level
  rfl

theorem toNat_queued
    (counts : lock.Counts count) (small : count < wordCount) :
    lock.queued.toNat = count := by
  rw [counts_iff.mp counts, UInt64.toNat_ofNat']
  exact Nat.mod_eq_of_lt small

theorem isLocked_iff
    (counts : lock.Counts count) (small : count < wordCount) :
    lock.isLocked = true ↔ 0 < count := by
  rw [isLocked, bne_iff_ne, ne_comm, Ne, counts.next_eq_owner_iff small,
    Nat.pos_iff_ne_zero]

/-- A ticket that is drawn is served at once only if no other one is out. -/
theorem serves_draw_iff
    (counts : lock.Counts count) (small : count < wordCount) :
    lock.draw.2.serves lock.draw.1 = true ↔ count = 0 := by
  rw [draw, serves, beq_iff_eq, eq_comm]
  exact counts.next_eq_owner_iff small

theorem draw (counts : lock.Counts count) :
    lock.draw.2.Counts (count + 1) := by
  change lock.next + 1 = lock.owner + UInt64.ofNat (count + 1)
  rw [counts, UInt64.add_assoc, UInt64.ofNat_add]
  rfl

theorem tryLock_of_zero (counts : lock.Counts 0) :
    lock.tryLock = (true, lock.draw.2) := by
  have level := (counts.next_eq_owner_iff (by decide)).mpr rfl
  simp only [tryLock, level, BEq.rfl, if_true, TicketLock.draw]

theorem tryLock_of_pos
    (counts : lock.Counts count) (small : count < wordCount)
    (positive : 0 < count) :
    lock.tryLock = (false, lock) := by
  have apart : lock.next ≠ lock.owner := by
    rw [Ne, counts.next_eq_owner_iff small]
    exact Nat.ne_of_gt positive
  simp only [tryLock, beq_eq_false_iff_ne.mpr apart, Bool.false_eq_true,
    if_false]

theorem unlock_of_zero (counts : lock.Counts 0) : lock.unlock = lock := by
  have level := (counts.next_eq_owner_iff (by decide)).mpr rfl
  simp only [unlock, level, BEq.rfl, if_true]

theorem unlock_of_succ
    (counts : lock.Counts (count + 1)) (small : count + 1 < wordCount) :
    lock.unlock = { lock with owner := lock.owner + 1 } ∧
      lock.unlock.Counts count := by
  have apart : lock.owner ≠ lock.next := by
    rw [ne_comm, Ne, counts.next_eq_owner_iff small]
    exact Nat.succ_ne_zero count
  have served : lock.unlock = { lock with owner := lock.owner + 1 } := by
    simp only [unlock, beq_eq_false_iff_ne.mpr apart, Bool.false_eq_true,
      if_false]
  refine ⟨served, ?_⟩
  rw [served]
  change lock.next = lock.owner + 1 + UInt64.ofNat count
  rw [counts, UInt64.ofNat_add, UInt64.add_comm (UInt64.ofNat count),
    UInt64.add_assoc]
  rfl

end Counts

end TicketLock

/-! ## Callers in a queue -/

namespace Contention

variable {Caller : Type}

/-- What callers do: one comes, one comes but does not wait, the holder leaves. -/
inductive Step (Caller : Type) where
  | lock (caller : Caller)
  | tryLock (caller : Caller)
  | unlock

/-- Perform a step; the outcome is the caller that is served by it. -/
def perform (contention : Contention Caller) :
    Step Caller → Option Caller × Contention Caller
  | .lock caller =>
      let (served, later) := contention.join caller
      (if served then some caller else none, later)
  | .tryLock caller =>
      let (taken, later) := contention.tryLock
      (if taken then some caller else none, later)
  | .unlock => contention.unlock

/-- A step of a first-in first-out queue whose first caller is served. -/
def queueStep (line : List Caller) : Step Caller → Option Caller × List Caller
  | .lock caller => (if line = [] then some caller else none, line ++ [caller])
  | .tryLock caller =>
      if line = [] then (some caller, [caller]) else (none, line)
  | .unlock => (line.tail.head?, line.tail)

/-- Callers with consecutive tickets. -/
def ticketed (ticket : UInt64) : List Caller → List (UInt64 × Caller)
  | [] => []
  | caller :: rest => (ticket, caller) :: ticketed (ticket + 1) rest

@[simp]
theorem map_snd_ticketed (ticket : UInt64) (line : List Caller) :
    (ticketed ticket line).map Prod.snd = line := by
  induction line generalizing ticket with
  | nil => rfl
  | cons caller rest inductionHypothesis =>
      simp [ticketed, inductionHypothesis]

/-- Who comes last has the ticket after all others. -/
theorem ticketed_append
    (ticket : UInt64) (line : List Caller) (caller : Caller) :
    ticketed ticket (line ++ [caller]) =
      ticketed ticket line ++
        [(ticket + UInt64.ofNat line.length, caller)] := by
  induction line generalizing ticket with
  | nil => simp [ticketed]
  | cons first rest inductionHypothesis =>
      have last :
          ticket + 1 + UInt64.ofNat rest.length =
            ticket + UInt64.ofNat (rest.length + 1) := by
        rw [UInt64.ofNat_add, UInt64.add_comm (UInt64.ofNat rest.length),
          UInt64.add_assoc]
        rfl
      simp [ticketed, inductionHypothesis, last]

theorem exists_of_mem_ticketed
    {ticket : UInt64} {line : List Caller} {entry : UInt64 × Caller}
    (member : entry ∈ ticketed ticket line) :
    ∃ index, index < line.length ∧
      entry.1 = ticket + UInt64.ofNat index := by
  induction line generalizing ticket with
  | nil => cases member
  | cons caller rest inductionHypothesis =>
      rcases List.mem_cons.mp member with rfl | later
      · exact ⟨0, Nat.succ_pos _, (UInt64.add_zero ticket).symm⟩
      · rcases inductionHypothesis later with ⟨index, inside, equal⟩
        refine ⟨index + 1, Nat.succ_lt_succ inside, ?_⟩
        rw [equal, UInt64.ofNat_add, UInt64.add_comm (UInt64.ofNat index),
          UInt64.add_assoc]
        rfl

@[simp]
theorem lock_unlock (contention : Contention Caller) :
    contention.unlock.2.lock = contention.lock.unlock := by
  unfold unlock
  dsimp only
  split <;> rfl

/-! ## The counters stand for a queue -/

/-- A lock and its waiting callers stand for a queue. -/
structure Queues
    (contention : Contention Caller) (line : List Caller) : Prop where
  counts : contention.lock.Counts line.length
  waiting :
    contention.waiting = ticketed (contention.lock.owner + 1) line.tail

namespace Queues

variable {contention : Contention Caller} {line : List Caller}

theorem quiet : (quiet : Contention Caller).Queues [] :=
  ⟨TicketLock.counts_free, rfl⟩

/-- A lock is free when nobody is in line. -/
theorem isLocked_nil (queues : contention.Queues []) :
    contention.lock.isLocked = false := by
  rw [← Bool.not_eq_true,
    queues.counts.isLocked_iff (Nat.two_pow_pos 64)]
  exact Nat.lt_irrefl 0

theorem waiting_callers (queues : contention.Queues line) :
    contention.waiting.map Prod.snd = line.tail := by
  rw [queues.waiting, map_snd_ticketed]

/-- The tickets of waiting callers are all behind the one that is served. -/
theorem unserved
    (queues : contention.Queues line) (small : line.length < wordCount) :
    ∀ entry ∈ contention.waiting,
      contention.lock.serves entry.1 = false := by
  intro entry member
  rw [queues.waiting] at member
  rcases exists_of_mem_ticketed member with ⟨index, inside, equal⟩
  rw [List.length_tail] at inside
  have behind :
      entry.1 = contention.lock.owner + UInt64.ofNat (index + 1) := by
    rw [equal, UInt64.ofNat_add, UInt64.add_comm (UInt64.ofNat index),
      UInt64.add_assoc]
    rfl
  rw [TicketLock.serves, beq_eq_false_iff_ne, ne_comm, behind, Ne,
    TicketLock.Counts.add_ofNat_eq_iff _ (by omega)]
  exact Nat.succ_ne_zero index

/-- Who comes to an empty queue is served, and who comes later waits. -/
theorem join
    (queues : contention.Queues line) (small : line.length < wordCount)
    (caller : Caller) :
    ((contention.join caller).1 = true ↔ line = []) ∧
      (contention.join caller).2.Queues (line ++ [caller]) := by
  have served := queues.counts.serves_draw_iff small
  have drawn := queues.counts.draw
  cases line with
  | nil =>
      have now : contention.lock.draw.2.serves contention.lock.draw.1 = true :=
        served.mpr rfl
      rw [Contention.join]
      dsimp only
      rw [if_pos now]
      exact ⟨iff_of_true rfl rfl, drawn, queues.waiting⟩
  | cons holder rest =>
      have later :
          ¬ contention.lock.draw.2.serves contention.lock.draw.1 = true := by
        rw [served]
        exact Nat.succ_ne_zero _
      have ticket :
          contention.lock.draw.1 =
            contention.lock.owner + 1 + UInt64.ofNat rest.length := by
        change contention.lock.next = _
        rw [queues.counts, List.length_cons, UInt64.ofNat_add,
          UInt64.add_comm (UInt64.ofNat rest.length), UInt64.add_assoc]
        rfl
      rw [Contention.join]
      dsimp only
      rw [if_neg later]
      refine ⟨iff_of_false Bool.false_ne_true (List.cons_ne_nil _ _), ?_, ?_⟩
      · rw [List.length_append]
        exact drawn
      · change contention.waiting ++ [(contention.lock.draw.1, caller)] =
          ticketed (contention.lock.owner + 1) (rest ++ [caller])
        rw [ticketed_append, queues.waiting, ticket]
        rfl

theorem tryLock_nil (queues : contention.Queues []) :
    contention.tryLock =
      (true, { contention with lock := contention.lock.draw.2 }) := by
  simp only [Contention.tryLock, TicketLock.Counts.tryLock_of_zero queues.counts]

theorem tryLock_cons
    {holder : Caller} {rest : List Caller}
    (queues : contention.Queues (holder :: rest))
    (small : (holder :: rest).length < wordCount) :
    contention.tryLock = (false, contention) := by
  simp only [Contention.tryLock,
    queues.counts.tryLock_of_pos small (Nat.succ_pos _)]

/-- The lock is taken out of turn only if the queue is empty. -/
theorem tryLock_iff
    (queues : contention.Queues line) (small : line.length < wordCount) :
    contention.tryLock.1 = true ↔ line = [] := by
  cases line with
  | nil =>
      rw [queues.tryLock_nil]
      exact iff_of_true rfl rfl
  | cons holder rest =>
      rw [queues.tryLock_cons small]
      exact iff_of_false Bool.false_ne_true (List.cons_ne_nil _ _)

theorem tryLock_refused
    (queues : contention.Queues line) (small : line.length < wordCount)
    (refused : contention.tryLock.1 = false) :
    contention.tryLock.2 = contention := by
  cases line with
  | nil =>
      rw [queues.tryLock_nil] at refused
      cases refused
  | cons holder rest => rw [queues.tryLock_cons small]

theorem tryLock
    (queues : contention.Queues line) (small : line.length < wordCount)
    (caller : Caller) :
    contention.tryLock.2.Queues (queueStep line (.tryLock caller)).2 := by
  cases line with
  | nil =>
      rw [queues.tryLock_nil]
      exact ⟨queues.counts.draw, queues.waiting⟩
  | cons holder rest =>
      rw [queues.tryLock_cons small]
      exact queues

theorem unlock_nil (queues : contention.Queues []) :
    contention.unlock = (none, contention) := by
  have nobody : contention.waiting = [] := queues.waiting
  rw [Contention.unlock, TicketLock.Counts.unlock_of_zero queues.counts,
    nobody]
  simp only [callNext, ← nobody]

/-- The next caller in line is served when the holder leaves. -/
theorem unlock
    (queues : contention.Queues line) (small : line.length < wordCount) :
    contention.unlock.1 = line.tail.head? ∧
      contention.unlock.2.Queues line.tail := by
  cases line with
  | nil =>
      rw [queues.unlock_nil]
      exact ⟨rfl, queues⟩
  | cons holder rest =>
      rcases queues.counts.unlock_of_succ small with ⟨advanced, counts⟩
      have waiting := queues.waiting
      rw [Contention.unlock]
      dsimp only [List.tail_cons] at waiting ⊢
      rw [advanced] at counts ⊢
      cases rest with
      | nil =>
          rw [waiting]
          exact ⟨rfl, counts, rfl⟩
      | cons next others =>
          -- The first waiting caller has the ticket that is served now.
          have called :
              callNext
                  { contention.lock with owner := contention.lock.owner + 1 }
                  contention.waiting =
                some
                  (next, ticketed (contention.lock.owner + 1 + 1) others) := by
            rw [waiting]
            simp only [ticketed, callNext, TicketLock.serves, BEq.rfl, if_true]
          rw [called]
          exact ⟨rfl, counts, rfl⟩

/-- A step of the counters is a step of the queue. -/
theorem perform
    (queues : contention.Queues line) (small : line.length < wordCount)
    (step : Step Caller) :
    (contention.perform step).1 = (queueStep line step).1 ∧
      (contention.perform step).2.Queues (queueStep line step).2 := by
  cases step with
  | lock caller =>
      rcases queues.join small caller with ⟨served, later⟩
      refine ⟨?_, later⟩
      simp only [Contention.perform, queueStep, served]
  | tryLock caller =>
      refine ⟨?_, queues.tryLock small caller⟩
      simp only [Contention.perform, queueStep, queues.tryLock_iff small]
      split <;> rfl
  | unlock => exact queues.unlock small

/-- Giving up the lock until it is free serves every waiting caller in turn. -/
theorem drainUpTo
    (queues : contention.Queues line) (small : line.length < wordCount)
    {most : Nat} (enough : line.length ≤ most) :
    (drainUpTo most contention).1.length = line.length ∧
      (drainUpTo most contention).1.filterMap id = line.tail ∧
        (drainUpTo most contention).2.Queues [] := by
  induction line generalizing contention most with
  | nil =>
      have free : ¬ contention.lock.isLocked = true := by
        rw [queues.counts.isLocked_iff small]
        exact Nat.lt_irrefl 0
      have done : drainUpTo most contention = ([], contention) := by
        cases most with
        | zero => rfl
        | succ most => simp only [Contention.drainUpTo, if_neg free]
      rw [done]
      exact ⟨rfl, rfl, queues⟩
  | cons holder rest inductionHypothesis =>
      cases most with
      | zero => cases enough
      | succ most =>
          have locked : contention.lock.isLocked = true :=
            (queues.counts.isLocked_iff small).mpr (Nat.succ_pos _)
          rcases queues.unlock small with ⟨served, later⟩
          rcases
            inductionHypothesis later (Nat.lt_of_succ_lt small)
              (Nat.le_of_succ_le_succ enough) with
            ⟨turns, callers, free⟩
          simp only [Contention.drainUpTo, if_pos locked]
          refine ⟨congrArg Nat.succ turns, ?_, free⟩
          rw [served]
          cases rest with
          | nil => exact callers
          | cons next others => exact congrArg (next :: ·) callers

end Queues

end Contention

/-! ## Runs -/

open Contention

/-- What is seen of a run of steps at a lock. -/
structure Attendance (Caller : Type) where
  contention : Contention Caller
  /-- Who was served and has not left since. -/
  holders : List Caller
  /-- Who drew a ticket, in order. -/
  arrivals : List Caller
  /-- Who was served, in order. -/
  served : List Caller

namespace Attendance

variable {Caller : Type}

/-- Nobody has come yet. -/
def opening : Attendance Caller := ⟨.quiet, [], [], []⟩

/-- Who draws a ticket in a step, given who is served by it. -/
def drawn : Step Caller → (admitted : Option Caller) → List Caller
  | .lock caller, _ => [caller]
  | .tryLock _, admitted => admitted.toList
  | .unlock, _ => []

/-- The holders that a step leaves in place. -/
def staying (holders : List Caller) : Step Caller → List Caller
  | .lock _ | .tryLock _ => holders
  | .unlock => holders.tail

/-- Perform one more step. -/
def after (attendance : Attendance Caller) (step : Step Caller) :
    Attendance Caller :=
  let (admitted, contention) := attendance.contention.perform step
  { contention
    holders := staying attendance.holders step ++ admitted.toList
    arrivals := attendance.arrivals ++ drawn step admitted
    served := attendance.served ++ admitted.toList }

/-- Perform steps in order. -/
def attend (attendance : Attendance Caller) (steps : List (Step Caller)) :
    Attendance Caller :=
  steps.foldl after attendance

/-- A run from the start. -/
def run (steps : List (Step Caller)) : Attendance Caller :=
  opening.attend steps

/-- The queue after steps from the start. -/
def queueAfter (steps : List (Step Caller)) : List Caller :=
  steps.foldl (fun line step => (queueStep line step).2) []

/-- What is seen of a run is what is seen of a queue. -/
structure Follows
    (attendance : Attendance Caller) (line : List Caller) : Prop where
  queues : attendance.contention.Queues line
  holders : attendance.holders = line.head?.toList
  in_order : attendance.served ++ line.tail = attendance.arrivals
  room : line.length ≤ attendance.arrivals.length

variable {attendance : Attendance Caller} {line : List Caller}

theorem Follows.opening : (opening : Attendance Caller).Follows [] :=
  ⟨.quiet, rfl, rfl, Nat.le_refl 0⟩

theorem arrivals_le_after (attendance : Attendance Caller) (step : Step Caller) :
    attendance.arrivals.length ≤ (attendance.after step).arrivals.length := by
  simp [after]

/-- Every step keeps what is seen of the run that of the queue. -/
theorem Follows.after
    (follows : attendance.Follows line)
    (few : attendance.arrivals.length < wordCount) (step : Step Caller) :
    (attendance.after step).Follows (queueStep line step).2 := by
  have holders := follows.holders
  have order := follows.in_order
  have room := follows.room
  rcases follows.queues.perform (Nat.lt_of_le_of_lt room few) step with
    ⟨admitted, later⟩
  refine ⟨later, ?_, ?_, ?_⟩
  · change staying attendance.holders step ++
      (attendance.contention.perform step).1.toList = _
    rw [admitted, holders]
    cases step with
    | lock caller => cases line <;> simp [staying, queueStep]
    | tryLock caller => cases line <;> simp [staying, queueStep]
    | unlock => cases line <;> simp [staying, queueStep]
  · change attendance.served ++
      (attendance.contention.perform step).1.toList ++ _ =
        attendance.arrivals ++
          drawn step (attendance.contention.perform step).1
    rw [admitted, ← order]
    cases step with
    | lock caller => cases line <;> simp [drawn, queueStep]
    | tryLock caller => cases line <;> simp [drawn, queueStep]
    | unlock =>
        rcases line with _ | ⟨holder, _ | ⟨next, others⟩⟩ <;>
          simp [drawn, queueStep]
  · change _ ≤ (attendance.arrivals ++
      drawn step (attendance.contention.perform step).1).length
    rw [admitted, List.length_append]
    cases step with
    | lock caller => simpa [drawn, queueStep] using room
    | tryLock caller => cases line <;> simp_all [drawn, queueStep]
    | unlock =>
        simp only [queueStep, List.length_tail]
        omega

theorem arrivals_le_attend
    (attendance : Attendance Caller) (steps : List (Step Caller)) :
    attendance.arrivals.length ≤
      (attendance.attend steps).arrivals.length := by
  induction steps generalizing attendance with
  | nil => exact Nat.le_refl _
  | cons step rest inductionHypothesis =>
      exact
        Nat.le_trans (attendance.arrivals_le_after step)
          (inductionHypothesis (attendance.after step))

/-- So does every run in which the tickets do not run out. -/
theorem Follows.attend
    (follows : attendance.Follows line) {steps : List (Step Caller)}
    (few : (attendance.attend steps).arrivals.length < wordCount) :
    (attendance.attend steps).Follows
      (steps.foldl (fun line step => (queueStep line step).2) line) := by
  induction steps generalizing attendance line with
  | nil => exact follows
  | cons step rest inductionHypothesis =>
      have before :=
        Nat.lt_of_le_of_lt (attendance.arrivals_le_attend (step :: rest)) few
      exact inductionHypothesis (follows.after before step) few

theorem arrivals_attend_unlock
    (attendance : Attendance Caller) (times : Nat) :
    (attendance.attend (List.replicate times .unlock)).arrivals =
      attendance.arrivals := by
  induction times generalizing attendance with
  | zero => rfl
  | succ times inductionHypothesis =>
      exact
        (inductionHypothesis (attendance.after .unlock)).trans
          (List.append_nil _)

theorem foldl_queueStep_unlock (line : List Caller) (times : Nat) :
    (List.replicate times .unlock).foldl
        (fun line step => (queueStep line step).2) line =
      line.drop times := by
  induction times generalizing line with
  | zero => rfl
  | succ times inductionHypothesis =>
      rw [List.replicate_succ, List.foldl_cons, inductionHypothesis]
      exact List.drop_tail

/-- Leaving again and again serves whoever waits and frees the lock. -/
theorem Follows.released
    (follows : attendance.Follows line)
    (few : attendance.arrivals.length < wordCount) {times : Nat}
    (enough : line.length ≤ times) :
    (attendance.attend (List.replicate times .unlock)).Follows [] ∧
      (attendance.attend (List.replicate times .unlock)).served =
        attendance.arrivals := by
  have arrivals := attendance.arrivals_attend_unlock times
  have later :=
    @Follows.attend Caller attendance line follows
      (List.replicate times .unlock) (by rw [arrivals]; exact few)
  rw [foldl_queueStep_unlock, List.drop_eq_nil_of_le enough] at later
  refine ⟨later, ?_⟩
  have order := later.in_order
  rw [arrivals, List.tail_nil, List.append_nil] at order
  exact order

/-- What callers can rely on at a lock that stands for a queue. -/
structure Orderly
    (attendance : Attendance Caller) (line : List Caller) : Prop where
  answers : ∀ step,
    (attendance.contention.perform step).1 = (queueStep line step).1
  holders_eq : attendance.holders = line.head?.toList
  holders_le : attendance.holders.length ≤ 1
  waiting_eq : attendance.contention.waiting.map Prod.snd = line.tail
  unserved : ∀ entry ∈ attendance.contention.waiting,
    attendance.contention.lock.serves entry.1 = false
  in_order :
    attendance.served ++ attendance.contention.waiting.map Prod.snd =
      attendance.arrivals
  at_once_iff : ∀ caller,
    (attendance.contention.join caller).1 = true ↔ line = []
  tryLock_iff : attendance.contention.tryLock.1 = true ↔ line = []
  tryLock_refused : attendance.contention.tryLock.1 = false →
    attendance.contention.tryLock.2 = attendance.contention
  unlock_free : line = [] →
    attendance.contention.unlock = (none, attendance.contention)
  queued_eq :
    attendance.contention.lock.queued.toNat =
      attendance.holders.length + attendance.contention.waiting.length
  isLocked_iff :
    attendance.contention.lock.isLocked = true ↔
      0 < attendance.contention.lock.queued
  released : ∀ times, line.length ≤ times →
    (attendance.attend (List.replicate times .unlock)).served =
        attendance.arrivals ∧
      (attendance.attend (List.replicate times .unlock)).holders = [] ∧
      (attendance.attend
        (List.replicate times .unlock)).contention.waiting = [] ∧
      (attendance.attend
        (List.replicate times .unlock)).contention.lock.isLocked = false
  drained :
    attendance.contention.drain.1.length =
        attendance.contention.lock.queued.toNat ∧
      attendance.contention.drain.1.filterMap id =
        attendance.contention.waiting.map Prod.snd ∧
      attendance.contention.drain.2.waiting = [] ∧
      attendance.contention.drain.2.lock.isLocked = false

theorem Follows.holders_le (follows : attendance.Follows line) :
    attendance.holders.length ≤ 1 := by
  rw [follows.holders]
  cases line with
  | nil => exact Nat.zero_le 1
  | cons holder rest => exact Nat.le_refl 1

/-- Who is in line either holds the lock or waits for it. -/
theorem Follows.length_eq (follows : attendance.Follows line) :
    line.length =
      attendance.holders.length + attendance.contention.waiting.length := by
  have callers := congrArg List.length follows.queues.waiting_callers
  rw [List.length_map] at callers
  rw [follows.holders, callers]
  cases line with
  | nil => rfl
  | cons holder rest => exact Nat.add_comm rest.length 1

theorem Follows.orderly
    (follows : attendance.Follows line)
    (few : attendance.arrivals.length < wordCount) :
    attendance.Orderly line := by
  have queues := follows.queues
  have small : line.length < wordCount := Nat.lt_of_le_of_lt follows.room few
  have queued := queues.counts.toNat_queued small
  have callers := queues.waiting_callers
  refine
    { answers := fun step => (queues.perform small step).1
      holders_eq := follows.holders
      holders_le := follows.holders_le
      waiting_eq := callers
      unserved := queues.unserved small
      in_order := ?_
      at_once_iff := fun caller => (queues.join small caller).1
      tryLock_iff := queues.tryLock_iff small
      tryLock_refused := queues.tryLock_refused small
      unlock_free := ?_
      queued_eq := queued.trans follows.length_eq
      isLocked_iff := ?_
      released := ?_
      drained := ?_ }
  · rw [callers]
    exact follows.in_order
  · rintro rfl
    exact queues.unlock_nil
  · rw [queues.counts.isLocked_iff small, UInt64.lt_iff_toNat_lt, queued]
    rfl
  · intro times enough
    rcases follows.released few enough with ⟨later, served⟩
    exact
      ⟨served, later.holders, later.queues.waiting,
        later.queues.isLocked_nil⟩
  · have enough : line.length ≤ attendance.contention.lock.queued.toNat :=
      Nat.le_of_eq queued.symm
    rcases queues.drainUpTo small enough with ⟨turns, served, free⟩
    exact
      ⟨turns.trans queued.symm, served.trans callers.symm, free.waiting,
        free.isLocked_nil⟩

/--
As long as the tickets do not run out, the two counters serve callers as a
first-in first-out queue does.
-/
theorem run_orderly
    (steps : List (Step Caller))
    (few : (run steps).arrivals.length < wordCount) :
    (run steps).Orderly (queueAfter steps) :=
  (@Follows.attend Caller opening [] .opening steps few).orderly few

end Attendance

namespace Sample

open Attendance

/-- A caller waits, one does not care to, and the first one has left. -/
theorem visited_run_orderly :
    (run [.lock 0, .lock 1, .tryLock 2, .lock 3, .unlock]).arrivals.length <
        wordCount ∧
      queueAfter [.lock 0, .lock 1, .tryLock 2, .lock 3, .unlock] = [1, 3] ∧
      (run [.lock 0, .lock 1, .tryLock 2, .lock 3, .unlock]).Orderly
        [1, 3] :=
  ⟨by decide, by decide,
    run_orderly [.lock 0, .lock 1, .tryLock 2, .lock 3, .unlock] (by decide)⟩

end Sample

end BootMemory
