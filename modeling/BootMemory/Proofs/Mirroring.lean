import BootMemory.Proofs.Simulation

/-!
# Runs that mirror each other

`Action.Follows` asks nothing where a fault stops the leader.  `Action.Mirrors`
asks for more: from related states two actions yield the same value or are
stopped by the same fault, and the states that they reach are related either
way.

An action that mirrors itself for the relation "equal, and good" keeps what is
good, also where it is stopped half way.  An action that mirrors itself for
"equal but for some part" neither reads that part nor lets it decide which fault
is met.
-/

namespace BootMemory.Action

variable {State Value Result : Type}

/-- From related starts two actions do the same, faults included. -/
def Mirrors
    (Alike : State → State → Prop) (leader follower : Action State Value) :
    Prop :=
  ∀ start other, Alike start other →
    outcome (leader start) = outcome (follower other) ∧
      Alike (state (leader start)) (state (follower other))

namespace Mirrors

variable {Alike : State → State → Prop} {leader follower : Action State Value}

theorem pure (value : Value) :
    Mirrors Alike (Pure.pure value) (Pure.pure value) :=
  fun _ _ alike => ⟨rfl, alike⟩

theorem lift (computation : Except Fault Value) :
    Mirrors Alike (Action.lift computation : Action State Value)
      (Action.lift computation) := by
  intro start other alike
  cases computation with
  | ok value => exact ⟨rfl, alike⟩
  | error fault => exact ⟨rfl, alike⟩

theorem bind
    {next following : Value → Action State Result}
    (first : Mirrors Alike leader follower)
    (rest : ∀ value, Mirrors Alike (next value) (following value)) :
    Mirrors Alike (leader >>= next) (follower >>= following) := by
  intro start other alike
  have begun := first start other alike
  cases led : leader start with
  | ok value middle =>
      cases followed : follower other with
      | ok twin between =>
          rw [led, followed] at begun
          rcases begun with ⟨⟨⟩, still⟩
          rw [bind_of_ok led, bind_of_ok followed]
          exact rest value middle between still
      | error fault between =>
          rw [led, followed] at begun
          cases begun.1
  | error fault middle =>
      cases followed : follower other with
      | ok twin between =>
          rw [led, followed] at begun
          cases begun.1
      | error twin between =>
          rw [led, followed] at begun
          rcases begun with ⟨⟨⟩, still⟩
          rw [bind_of_error led, bind_of_error followed]
          exact ⟨rfl, still⟩

/-- Two actions in a row that begin with the same computation. -/
theorem bind_lift
    {computation : Except Fault Value}
    {next following : Value → Action State Result}
    (rest : ∀ value, computation = .ok value →
      Mirrors Alike (next value) (following value)) :
    Mirrors Alike
      ((liftM computation : Action State Value) >>= next)
      ((liftM computation : Action State Value) >>= following) := by
  intro start other alike
  cases computed : computation with
  | ok value => exact rest value computed start other alike
  | error fault => exact ⟨rfl, alike⟩

theorem bind_get
    {next following : State → Action State Value}
    (rest : ∀ start other, Alike start other →
      Mirrors Alike (next start) (following other)) :
    Mirrors Alike (get >>= next) (get >>= following) :=
  fun start other alike => rest start other alike start other alike

theorem set
    {replacement exchange : State} (fit : Alike replacement exchange) :
    Mirrors Alike (MonadStateOf.set replacement : Action State PUnit)
      (MonadStateOf.set exchange) :=
  fun _ _ _ => ⟨rfl, fit⟩

theorem modify
    {change revise : State → State}
    (fit : ∀ start other, Alike start other →
      Alike (change start) (revise other)) :
    Mirrors Alike (modify change : Action State PUnit) (modify revise) :=
  fun start other alike => ⟨rfl, fit start other alike⟩

/-- Two choices under one condition. -/
theorem ite
    {condition : Prop} [Decidable condition]
    {otherwise fallback : Action State Value}
    (met : condition → Mirrors Alike leader follower)
    (missed : ¬ condition → Mirrors Alike otherwise fallback) :
    Mirrors Alike (if condition then leader else otherwise)
      (if condition then follower else fallback) := by
  split
  · rename_i holds
    exact met holds
  · rename_i fails
    exact missed fails

/-- A first step that is taken under a condition. -/
theorem bind_if
    {condition : Prop} [Decidable condition]
    {step advance : Action State Unit}
    (first : Mirrors Alike step advance)
    (rest : Mirrors Alike leader follower) :
    Mirrors Alike
      (if condition then step >>= fun _ => leader else leader)
      (if condition then advance >>= fun _ => follower else follower) :=
  .ite (fun _ => first.bind fun _ => rest) fun _ => rest

/-- Work on one part, seen alike from both sides, is work on related wholes. -/
theorem focus
    {Whole : Type} {Wide : Whole → Whole → Prop} {view : Whole → State}
    {replace : State → Whole → Whole} {action : Action State Value}
    (same : ∀ whole other, Wide whole other → view whole = view other)
    (leave : ∀ whole other, Wide whole other →
      Wide (replace (state (action (view whole))) whole)
        (replace (state (action (view whole))) other)) :
    Mirrors Wide (Action.focus view replace action)
      (Action.focus view replace action) := by
  intro start other alike
  have left := leave start other alike
  rw [Action.focus, Action.focus, ← same start other alike]
  cases reached : action (view start) with
  | ok value part =>
      rw [reached] at left
      exact ⟨rfl, left⟩
  | error fault part =>
      rw [reached] at left
      exact ⟨rfl, left⟩

end Mirrors

end BootMemory.Action
