import BootMemory.Fault

/-!
# Actions

An action works on a state, yields a value, and may be stopped by a fault.
The state reached up to the fault is kept, so that partial effects can be
spoken about: a range operation that stops half way has done its first half.
-/

namespace BootMemory

/-- A computation on a state that a fault can stop. -/
abbrev Action (State Value : Type) := EStateM Fault State Value

namespace Action

/-- Perform a computation that neither sees nor changes the state. -/
def lift {State Value : Type} (computation : Except Fault Value) :
    Action State Value := fun state =>
  match computation with
  | .ok value => .ok value state
  | .error fault => .error fault state

instance {State : Type} : MonadLift (Except Fault) (EStateM Fault State) where
  monadLift := lift

/-- Perform an action on a part of the state. -/
def focus {Whole Part Value : Type}
    (view : Whole → Part) (replace : Part → Whole → Whole)
    (action : Action Part Value) : Action Whole Value := fun whole =>
  match action (view whole) with
  | .ok value part => .ok value (replace part whole)
  | .error fault part => .error fault (replace part whole)

/-- The value reached, or the fault, without the state. -/
def outcome {State Value : Type} :
    EStateM.Result Fault State Value → Except Fault Value
  | .ok value _ => .ok value
  | .error fault _ => .error fault

/-- The state reached, whether or not a fault stopped the action. -/
def state {State Value : Type} : EStateM.Result Fault State Value → State
  | .ok _ state => state
  | .error _ state => state

@[simp]
theorem lift_ok {State Value : Type} (value : Value) (start : State) :
    (lift (.ok value) : Action State Value) start = .ok value start := rfl

@[simp]
theorem lift_error {State Value : Type} (fault : Fault) (start : State) :
    (lift (.error fault) : Action State Value) start = .error fault start := rfl

theorem focus_apply {Whole Part Value : Type}
    (view : Whole → Part) (replace : Part → Whole → Whole)
    (action : Action Part Value) (whole : Whole) :
    focus view replace action whole =
      match action (view whole) with
      | .ok value part => .ok value (replace part whole)
      | .error fault part => .error fault (replace part whole) := rfl

end Action

end BootMemory
