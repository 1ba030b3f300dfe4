import BootMemory.Proofs.Action

/-!
# Runs that follow each other

Two actions are compared by what they do from related states: whenever the
leader finishes, the follower finishes with the same value, and the states they
reach are related again.  Where a fault stops the leader nothing is asked of the
follower.

`Action.Follows` states this for a relation of the starts and, for each value, a
relation of the ends; `Action.Agrees` is the case in which one relation is kept
throughout.  `Profile.Agrees` compares computations, which have no state.  There
is a rule for every way in which larger ones are put together, so that two
operations are compared step by step.

Where no fault can stop a step, `answerAll` runs calls in order, and two systems
whose steps answer alike have runs that answer alike.
-/

namespace BootMemory

/-! ## Computations -/

namespace Profile

variable {Value Result : Type}

/-- What one computation yields, another one yields too. -/
def Agrees (checked unchecked : Except Fault Value) : Prop :=
  ∀ value, checked = .ok value → unchecked = .ok value

namespace Agrees

variable {checked unchecked : Except Fault Value}

theorem refl (computation : Except Fault Value) :
    Agrees computation computation :=
  fun _ computed => computed

/-- Nothing is asked where the checked computation only looks for a fault. -/
theorem unit (checked : Except Fault Unit) : Agrees checked (.ok ()) :=
  fun _ _ => rfl

theorem bind
    {next following : Value → Except Fault Result}
    (first : Agrees checked unchecked)
    (rest : ∀ value, checked = .ok value →
      Agrees (next value) (following value)) :
    Agrees (checked >>= next) (unchecked >>= following) := by
  intro result computed
  rcases Action.exists_of_bind_eq_ok computed with ⟨value, reached, finished⟩
  rw [first value reached]
  exact rest value reached result finished

theorem map
    (first : Agrees checked unchecked) (change : Value → Result) :
    Agrees (checked.map change) (unchecked.map change) := by
  intro result computed
  cases reached : checked with
  | ok value =>
      rw [first value reached]
      rw [reached] at computed
      exact computed
  | error fault =>
      rw [reached] at computed
      cases computed

theorem ite
    {condition : Prop} [Decidable condition]
    {otherwise fallback : Except Fault Value}
    (met : Agrees checked unchecked) (missed : Agrees otherwise fallback) :
    Agrees (if condition then checked else otherwise)
      (if condition then unchecked else fallback) := by
  split
  · exact met
  · exact missed

theorem foldlM
    {Item : Type} {step advance : Value → Item → Except Fault Value}
    (each : ∀ value item, Agrees (step value item) (advance value item))
    (items : List Item) (start : Value) :
    Agrees (items.foldlM step start) (items.foldlM advance start) := by
  induction items generalizing start with
  | nil => exact refl _
  | cons item rest inductionHypothesis =>
      rw [List.foldlM_cons, List.foldlM_cons]
      exact (each start item).bind fun value _ => inductionHypothesis value

theorem mapM
    {Item : Type} {change revise : Item → Except Fault Value}
    (each : ∀ item, Agrees (change item) (revise item)) (items : List Item) :
    Agrees (items.mapM change) (items.mapM revise) := by
  induction items with
  | nil => exact refl _
  | cons item rest inductionHypothesis =>
      rw [List.mapM_cons, List.mapM_cons]
      exact (each item).bind fun _ _ =>
        inductionHypothesis.bind fun _ _ => refl _

end Agrees

end Profile

/-! ## Actions -/

namespace Action

variable {State Value Result : Type}

/-- From related starts the follower does what the leader does. -/
def Follows
    (Before : State → State → Prop) (After : Value → State → State → Prop)
    (leader follower : Action State Value) : Prop :=
  ∀ start other value finish,
    Before start other → leader start = .ok value finish →
      ∃ ending, follower other = .ok value ending ∧ After value finish ending

/-- The follower does what the leader does, and a relation is kept. -/
abbrev Agrees
    (Alike : State → State → Prop) (leader follower : Action State Value) :
    Prop :=
  Follows Alike (fun _ => Alike) leader follower

namespace Follows

variable {Before Middle : State → State → Prop}
  {After : Value → State → State → Prop}
  {leader follower : Action State Value}

theorem pure_of {value : Value}
    (fit : ∀ start other, Before start other → After value start other) :
    Follows Before After (Pure.pure value) (Pure.pure value) := by
  intro start other result finish alike ran
  cases ran
  exact ⟨other, rfl, fit start other alike⟩

theorem pure (value : Value) :
    Agrees Before (Pure.pure value) (Pure.pure value) :=
  pure_of fun _ _ alike => alike

/-- From equal states an action does what it does. -/
theorem refl (action : Action State Value) : Agrees Eq action action := by
  rintro start _ value finish rfl ran
  exact ⟨finish, ran, rfl⟩

theorem bind
    {Ends : Result → State → State → Prop}
    {next following : Value → Action State Result}
    (first : Follows Before After leader follower)
    (rest : ∀ value,
      Follows (After value) Ends (next value) (following value)) :
    Follows Before Ends (leader >>= next) (follower >>= following) := by
  intro start other result finish alike ran
  rcases Action.exists_of_bind_ok ran with ⟨value, middle, reached, finished⟩
  rcases first start other value middle alike reached with
    ⟨between, same, still⟩
  rw [Action.bind_of_ok same]
  exact rest value middle between result finish still finished

theorem lift
    {leading following : Except Fault Value}
    (agrees : Profile.Agrees leading following) :
    Agrees Before (Action.lift leading : Action State Value)
      (Action.lift following) := by
  intro start other value finish alike ran
  cases reached : leading with
  | ok value =>
      rw [reached] at ran
      rw [agrees value reached]
      cases ran
      exact ⟨other, rfl, alike⟩
  | error fault =>
      rw [reached] at ran
      cases ran

theorem bind_lift
    {Ends : Result → State → State → Prop}
    {leading trailing : Except Fault Value}
    {next following : Value → Action State Result}
    (first : Profile.Agrees leading trailing)
    (rest : ∀ value, leading = .ok value →
      Follows Before Ends (next value) (following value)) :
    Follows Before Ends
      ((liftM leading : Action State Value) >>= next)
      ((liftM trailing : Action State Value) >>= following) := by
  intro start other result finish alike ran
  rcases Action.exists_of_bind_lift_ok ran with ⟨value, reached, finished⟩
  rw [Action.bind_lift_of_ok (first value reached)]
  exact rest value reached start other result finish alike finished

theorem bind_get
    {next following : State → Action State Value}
    (rest : ∀ start other, Before start other →
      Follows Before After (next start) (following other)) :
    Follows Before After (get >>= next) (get >>= following) :=
  fun start other value finish alike ran =>
    rest start other alike start other value finish alike ran

theorem bind_set
    {Ends : Value → State → State → Prop} {replacement exchange : State}
    {next following : PUnit → Action State Value}
    (fit : Middle replacement exchange)
    (rest : Follows Middle Ends (next ⟨⟩) (following ⟨⟩)) :
    Follows Before Ends (MonadStateOf.set replacement >>= next)
      (MonadStateOf.set exchange >>= following) :=
  fun _ _ value finish _ ran =>
    rest replacement exchange value finish fit ran

theorem bind_modify
    {Ends : Value → State → State → Prop} {change revise : State → State}
    {next following : PUnit → Action State Value}
    (fit : ∀ start other, Before start other →
      Middle (change start) (revise other))
    (rest : Follows Middle Ends (next ⟨⟩) (following ⟨⟩)) :
    Follows Before Ends (modify change >>= next)
      (modify revise >>= following) :=
  fun start other value finish alike ran =>
    rest (change start) (revise other) value finish (fit start other alike) ran

theorem set
    {Ends : PUnit → State → State → Prop} {replacement exchange : State}
    (fit : Ends ⟨⟩ replacement exchange) :
    Follows Before Ends
      (MonadStateOf.set replacement : Action State PUnit)
      (MonadStateOf.set exchange) := by
  intro start other value finish _ ran
  cases ran
  exact ⟨exchange, rfl, fit⟩

theorem modify
    {Ends : PUnit → State → State → Prop} {change revise : State → State}
    (fit : ∀ start other, Before start other →
      Ends ⟨⟩ (change start) (revise other)) :
    Follows Before Ends (modify change : Action State PUnit)
      (modify revise) := by
  intro start other value finish alike ran
  cases ran
  exact ⟨revise other, rfl, fit start other alike⟩

theorem ite
    {condition : Prop} [Decidable condition]
    {otherwise fallback : Action State Value}
    (met : Follows Before After leader follower)
    (missed : Follows Before After otherwise fallback) :
    Follows Before After (if condition then leader else otherwise)
      (if condition then follower else fallback) := by
  split
  · exact met
  · exact missed

/-- A first step that is taken under a condition. -/
theorem bind_if
    {condition : Prop} [Decidable condition]
    {step advance : Action State Unit}
    (first : Agrees Before step advance)
    (rest : Follows Before After leader follower) :
    Follows Before After
      (if condition then step >>= fun _ => leader else leader)
      (if condition then advance >>= fun _ => follower else follower) :=
  (first.bind fun _ => rest).ite rest

/-- Work on related parts is work on related wholes. -/
theorem focus
    {Whole : Type} {Wide : Whole → Whole → Prop}
    {Ends : Value → Whole → Whole → Prop} {view : Whole → State}
    {replace : State → Whole → Whole}
    (inner : Follows Before After leader follower)
    (enter : ∀ whole other, Wide whole other → Before (view whole) (view other))
    (leave : ∀ value whole other part piece,
      Wide whole other → After value part piece →
        Ends value (replace part whole) (replace piece other)) :
    Follows Wide Ends (Action.focus view replace leader)
      (Action.focus view replace follower) := by
  intro start other value finish alike ran
  rw [Action.focus] at ran
  cases reached : leader (view start) with
  | ok result part =>
      rw [reached] at ran
      cases ran
      rcases inner _ _ _ _ (enter start other alike) reached with
        ⟨piece, same, later⟩
      exact
        ⟨replace piece other, Action.focus_of_ok same,
          leave value start other part piece alike later⟩
  | error fault part =>
      rw [reached] at ran
      cases ran

theorem mapM
    {Item : Type} {change revise : Item → Action State Value}
    (each : ∀ item, Agrees Before (change item) (revise item))
    (items : List Item) :
    Agrees Before (items.mapM change) (items.mapM revise) := by
  induction items with
  | nil => exact pure _
  | cons item rest inductionHypothesis =>
      rw [List.mapM_cons, List.mapM_cons]
      exact (each item).bind fun _ =>
        inductionHypothesis.bind fun _ => pure _

end Follows

end Action

/-! ## Calls that are always answered -/

section Answers

variable {State Other Call Answer : Type}

/-- Answer calls in order, each in the state that the one before left. -/
def answerAll (step : Call → State → Answer × State) :
    List Call → State → List Answer × State
  | [], state => ([], state)
  | call :: rest, state =>
      let (answer, middle) := step call state
      let (answers, last) := answerAll step rest middle
      (answer :: answers, last)

/-- Steps that answer alike and keep a relation make such runs. -/
theorem answerAll_alike
    {Alike : State → Other → Prop} {step : Call → State → Answer × State}
    {follow : Call → Other → Answer × Other}
    (each : ∀ call state other, Alike state other →
      (step call state).1 = (follow call other).1 ∧
        Alike (step call state).2 (follow call other).2)
    (calls : List Call) {state : State} {other : Other}
    (alike : Alike state other) :
    (answerAll step calls state).1 = (answerAll follow calls other).1 ∧
      Alike (answerAll step calls state).2
        (answerAll follow calls other).2 := by
  induction calls generalizing state other with
  | nil => exact ⟨rfl, alike⟩
  | cons call rest inductionHypothesis =>
      rcases each call state other alike with ⟨same, middle⟩
      rcases inductionHypothesis middle with ⟨others, last⟩
      refine ⟨?_, last⟩
      simp only [answerAll, same, others]

end Answers

end BootMemory
