import BootMemory.Action
import BootMemory.Profile

/-!
# Running actions

An action is run on a state one step at a time.  The lemmas below say what a
sequence does once the outcome of its first part is known, so that later
modules follow a program line by line without opening the monad.
-/

namespace BootMemory.Action

variable {State Value Result : Type}

theorem bind_of_ok
    {action : Action State Value} {next : Value → Action State Result}
    {start middle : State} {value : Value}
    (ran : action start = .ok value middle) :
    (action >>= next) start = next value middle := by
  simp only [bind, EStateM.bind, ran]

theorem bind_of_error
    {action : Action State Value} {next : Value → Action State Result}
    {start middle : State} {fault : Fault}
    (stopped : action start = .error fault middle) :
    (action >>= next) start = .error fault middle := by
  simp only [bind, EStateM.bind, stopped]

/-- A computation without a state, met in a sequence. -/
theorem bind_lift_of_ok
    {computation : Except Fault Value} {next : Value → Action State Result}
    {start : State} {value : Value}
    (computed : computation = .ok value) :
    ((liftM computation : Action State Value) >>= next) start =
      next value start := by
  subst computed
  rfl

theorem bind_lift_of_error
    {computation : Except Fault Value} {next : Value → Action State Result}
    {start : State} {fault : Fault}
    (computed : computation = .error fault) :
    ((liftM computation : Action State Value) >>= next) start =
      .error fault start := by
  subst computed
  rfl

theorem bind_get (next : State → Action State Result) (start : State) :
    ((get : Action State State) >>= next) start = next start start := rfl

theorem bind_getThe (next : State → Action State Result) (start : State) :
    ((getThe State : Action State State) >>= next) start =
      next start start := rfl

theorem bind_set
    (replacement : State) (next : PUnit → Action State Result)
    (start : State) :
    ((set replacement : Action State PUnit) >>= next) start =
      next ⟨⟩ replacement := rfl

theorem bind_modify
    (change : State → State) (next : PUnit → Action State Result)
    (start : State) :
    ((modify change : Action State PUnit) >>= next) start =
      next ⟨⟩ (change start) := rfl

/-- Computations in sequence succeed only if the first one does. -/
theorem exists_of_bind_eq_ok
    {computation : Except Fault Value} {next : Value → Except Fault Result}
    {result : Result} (computed : (computation >>= next) = .ok result) :
    ∃ value, computation = .ok value ∧ next value = .ok result := by
  cases computation with
  | ok value => exact ⟨value, rfl, computed⟩
  | error fault => cases computed

/-- A sequence that succeeds has a first part that succeeds. -/
theorem exists_of_bind_ok
    {action : Action State Value} {next : Value → Action State Result}
    {start finish : State} {result : Result}
    (ran : (action >>= next) start = .ok result finish) :
    ∃ value middle, action start = .ok value middle ∧
      next value middle = .ok result finish := by
  cases first : action start with
  | ok value middle =>
      rw [bind_of_ok first] at ran
      exact ⟨value, middle, rfl, ran⟩
  | error fault middle =>
      rw [bind_of_error first] at ran
      cases ran

theorem exists_of_bind_lift_ok
    {computation : Except Fault Value} {next : Value → Action State Result}
    {start finish : State} {result : Result}
    (ran :
      ((liftM computation : Action State Value) >>= next) start =
        .ok result finish) :
    ∃ value, computation = .ok value ∧
      next value start = .ok result finish := by
  cases computed : computation with
  | ok value =>
      rw [bind_lift_of_ok computed] at ran
      exact ⟨value, rfl, ran⟩
  | error fault =>
      rw [bind_lift_of_error computed] at ran
      cases ran

theorem focus_of_ok
    {Whole Part : Type} {view : Whole → Part}
    {replace : Part → Whole → Whole} {action : Action Part Value}
    {whole : Whole} {value : Value} {part : Part}
    (ran : action (view whole) = .ok value part) :
    focus view replace action whole = .ok value (replace part whole) := by
  simp only [focus, ran]

theorem focus_of_error
    {Whole Part : Type} {view : Whole → Part}
    {replace : Part → Whole → Whole} {action : Action Part Value}
    {whole : Whole} {fault : Fault} {part : Part}
    (stopped : action (view whole) = .error fault part) :
    focus view replace action whole = .error fault (replace part whole) := by
  simp only [focus, stopped]

end BootMemory.Action
