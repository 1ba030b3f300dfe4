import BootMemory.Proofs.Bitmap.Row
import BootMemory.Proofs.Mirroring

/-!
# Bitmaps stay inside their buffer

A bitmap is bound to a buffer exactly if the buffer has its bits, and this holds of
every buffer that it is bound to later on.  So an index is either refused, or leads
to a byte inside the buffer in use, as `Binding.ChecksIndex` says of the calls that
look at their index.

What a call sees of a binding is the bitmap in use, and nothing of the buffers
around it: `Binding.Carries` names the relations of bindings that calls carry on.
With it a refused buffer makes no difference to later calls, and after one that was
accepted they do what they do on a fresh bitmap, with the former buffers left as
they are.  `Binding.binding_safe` says so after any calls, also if an assertion has
stopped some of them.
-/

namespace BootMemory.Bitmap

/-! ## Binding a buffer -/

/-- Bits are bound to a buffer exactly if it has them, without copying it. -/
structure BindsExactly (bytes : Array UInt8) (bits : Nat) : Prop where
  rounded : bytesFor bits = bits / 8 + min (bits % 8) 1
  small : bits < wordCount → bytesFor bits < wordCount
  accepted_iff :
    (∃ bitmap, ofBytes bytes bits = .ok bitmap) ↔ bits ≤ 8 * bytes.size
  bound : ∀ bitmap, ofBytes bytes bits = .ok bitmap →
    bitmap.bytes = bytes ∧ bitmap.bits = bits
  refused : 8 * bytes.size < bits →
    ofBytes bytes bits = .error (.bufferTooSmall bytes.size bits)

theorem ofBytes_of_le
    {bytes : Array UInt8} {bits : Nat} (enough : bits ≤ 8 * bytes.size) :
    ofBytes bytes bits = .ok ⟨bytes, bits, enough⟩ :=
  dif_pos (bytesFor_le_iff.mpr enough)

theorem ofBytes_of_lt
    {bytes : Array UInt8} {bits : Nat} (short : 8 * bytes.size < bits) :
    ofBytes bytes bits = .error (.bufferTooSmall bytes.size bits) :=
  dif_neg fun enough => Nat.not_le.mpr short (bytesFor_le_iff.mp enough)

theorem bindsExactly (bytes : Array UInt8) (bits : Nat) :
    BindsExactly bytes bits where
  rounded := by
    unfold bytesFor
    omega
  small := by
    unfold bytesFor
    omega
  accepted_iff := by
    constructor
    · rintro ⟨bitmap, accepted⟩
      by_contra short
      rw [ofBytes_of_lt (Nat.lt_of_not_le short)] at accepted
      cases accepted
    · intro enough
      exact ⟨_, ofBytes_of_le enough⟩
  bound := by
    intro bitmap accepted
    rw [ofBytes] at accepted
    split at accepted
    · cases accepted
      exact ⟨rfl, rfl⟩
    · cases accepted
  refused := ofBytes_of_lt

/-- One byte inside the buffer was changed, and nothing else of the bitmap. -/
def ChangesByte
    (place : Nat) (change : UInt8 → UInt8) (bitmap later : Bitmap) : Prop :=
  later.bits = bitmap.bits ∧
    ∃ stored : place < bitmap.bytes.size,
      later.bytes = bitmap.bytes.set place (change bitmap.bytes[place]) stored

/-- The byte of an index inside a bitmap is inside its buffer. -/
theorem byte_lt
    (bitmap : Bitmap) {index : Nat} (inside : index < bitmap.bits) :
    index / 8 < bitmap.bytes.size := by
  have size := bitmap.fits
  omega

theorem changesByte_put
    (bitmap : Bitmap) {index : Nat} (value : Bool)
    (inside : index < bitmap.bits) :
    ChangesByte (index / 8)
      (fun byte =>
        if value then byte ||| mask index else byte &&& ~~~mask index)
      bitmap (bitmap.put index value) := by
  have stored := bitmap.byte_lt inside
  refine ⟨bits_put bitmap index value, stored, ?_⟩
  apply Array.ext
  · simp
  · intro place _ _
    simp only [put, if_pos inside, Array.getElem_modify, Array.getElem_set]
    split
    · rename_i same
      subst same
      rfl
    · rfl

namespace Binding

variable {profile : Profile} {binding other : Binding}

/-! ## Calls that an assertion may stop -/

/-- Perform a call; where an assertion stops it, the fault is the answer. -/
def tryCall (profile : Profile) (call : Call) (binding : Binding) :
    Except Fault Answer × Binding :=
  (Action.outcome (perform profile call binding),
    Action.state (perform profile call binding))

/-- The binding that calls leave. -/
def afterCalls
    (profile : Profile) (calls : List Call) (binding : Binding) : Binding :=
  (answerAll (tryCall profile) calls binding).2

/-- Whatever is called, two bindings answer alike and go on alike. -/
def SameRuns (profile : Profile) (binding other : Binding) : Prop :=
  ∀ calls : List Call,
    (answerAll (tryCall profile) calls binding).1 =
        (answerAll (tryCall profile) calls other).1 ∧
      (afterCalls profile calls binding).current =
        (afterCalls profile calls other).current

theorem tryCall_of_ok
    {call : Call} {answer : Answer} {later : Binding}
    (ran : perform profile call binding = .ok answer later) :
    tryCall profile call binding = (.ok answer, later) := by
  rw [tryCall, ran]
  rfl

/-! ## What a call sees of a binding -/

/-- A relation of bindings that the parts of every call carry on. -/
structure Carries (Alike : Binding → Binding → Prop) : Prop where
  current_eq : ∀ {binding other}, Alike binding other →
    binding.current = other.current
  withCurrent : ∀ {binding other} (bitmap : Bitmap), Alike binding other →
    Alike (binding.withCurrent bitmap) (other.withCurrent bitmap)
  rebind : ∀ {binding other} (bytes : Array UInt8) (bits : Nat),
    Alike binding other →
      Alike (binding.rebind bytes bits).2 (other.rebind bytes bits).2

namespace Carries

variable {Alike : Binding → Binding → Prop}

theorem onCurrent
    {Value : Type} (carries : Carries Alike) (action : Action Bitmap Value) :
    Action.Mirrors Alike (onCurrent action) (onCurrent action) := by
  refine .focus (fun _ _ alike => carries.current_eq alike) ?_
  intro binding other alike
  exact carries.withCurrent _ alike

theorem attempt
    (carries : Carries Alike) (change : Bitmap → Except BitmapError Bitmap) :
    Action.Mirrors Alike (attempt change) (attempt change) := by
  refine .bind_get fun binding other alike => ?_
  rw [carries.current_eq alike]
  cases change other.current with
  | ok bitmap =>
      refine .bind (.modify ?_) fun _ => .pure _
      intro before after same
      exact carries.withCurrent bitmap same
  | error refusal => exact .pure _

theorem perform
    (carries : Carries Alike) (profile : Profile) (call : Call) :
    Action.Mirrors Alike (perform profile call) (perform profile call) := by
  cases call with
  | get index => exact (carries.onCurrent _).bind fun _ => .pure _
  | set index => exact (carries.onCurrent _).bind fun _ => .pure _
  | clear index => exact (carries.onCurrent _).bind fun _ => .pure _
  | setRange start stop => exact (carries.onCurrent _).bind fun _ => .pure _
  | clearRange start stop => exact (carries.onCurrent _).bind fun _ => .pure _
  | trySet index => exact carries.attempt fun bitmap => bitmap.trySet index
  | tryClear index => exact carries.attempt fun bitmap => bitmap.tryClear index
  | tryGet index =>
      refine .bind_get fun binding other alike => ?_
      rw [carries.current_eq alike]
      cases other.current.tryGet index with
      | ok value => exact .pure _
      | error refusal => exact .pure _
  | allSet start stop =>
      refine .bind_get fun binding other alike => ?_
      rw [carries.current_eq alike]
      exact .bind_lift fun _ _ => .pure _
  | fill value =>
      refine .bind (.modify ?_) fun _ => .pure _
      intro binding other alike
      rw [carries.current_eq alike]
      exact carries.withCurrent _ alike
  | rebind bytes bits =>
      intro binding other alike
      have kept := carries.rebind bytes bits alike
      rw [perform_rebind, perform_rebind]
      unfold Binding.rebind at kept
      cases offered : ofBytes bytes bits with
      | ok bitmap =>
          rw [offered] at kept
          exact ⟨rfl, kept⟩
      | error refusal =>
          rw [offered] at kept
          exact ⟨rfl, kept⟩

theorem answerAll
    (carries : Carries Alike) (profile : Profile) (calls : List Call)
    (alike : Alike binding other) :
    (answerAll (tryCall profile) calls binding).1 =
        (answerAll (tryCall profile) calls other).1 ∧
      Alike (afterCalls profile calls binding)
        (afterCalls profile calls other) :=
  answerAll_alike
    (fun call before after same => carries.perform profile call before after same)
    calls alike

end Carries

/-- Only the bitmap in use is seen, whatever buffers there are around it. -/
theorem carries_sameCurrent :
    Carries fun binding other => binding.current = other.current where
  current_eq same := same
  withCurrent _ _ := rfl
  rebind bytes bits same := by
    unfold rebind
    cases ofBytes bytes bits with
    | ok bitmap => rfl
    | error refusal => exact same

/-- Buffers that are not in use any more stay as they are. -/
theorem carries_earlier (former : List (Array UInt8)) :
    Carries fun binding other =>
      binding = other ∧ former <+: binding.earlier where
  current_eq same := congrArg current same.1
  withCurrent := by
    rintro binding _ bitmap ⟨rfl, kept⟩
    exact ⟨rfl, kept⟩
  rebind := by
    rintro binding _ bytes bits ⟨rfl, kept⟩
    refine ⟨rfl, ?_⟩
    unfold rebind
    cases ofBytes bytes bits with
    | ok bitmap => exact kept.trans (List.prefix_append _ _)
    | error refusal => exact kept

theorem sameRuns_of_current
    (profile : Profile) (same : binding.current = other.current) :
    SameRuns profile binding other :=
  fun calls => carries_sameCurrent.answerAll profile calls same

/-- What was in the buffers before the one in use stays there. -/
theorem earlier_prefix (profile : Profile) (calls : List Call) (binding : Binding) :
    binding.earlier <+: (afterCalls profile calls binding).buffers := by
  have kept :=
    (carries_earlier binding.earlier).answerAll profile calls
      ⟨rfl, List.prefix_refl binding.earlier⟩
  exact kept.2.2.trans (List.prefix_append _ _)

/-! ## The buffer in use -/

/-- The bytes of the buffer in use and the bits that are bound to it. -/
def sizes (binding : Binding) : Nat × Nat :=
  (binding.current.bytes.size, binding.current.bits)

/-- The sizes in use after a call; a buffer that has its bits replaces them. -/
def Call.resize : Call → Nat × Nat → Nat × Nat
  | .rebind bytes bits, used =>
      if bits ≤ 8 * bytes.size then (bytes.size, bits) else used
  | _, used => used

/-- A later bitmap has the lengths of an earlier one. -/
structure SameLengths (bitmap later : Bitmap) : Prop where
  bits_eq : later.bits = bitmap.bits
  size_eq : later.bytes.size = bitmap.bytes.size

theorem SameLengths.put (bitmap : Bitmap) (index : Nat) (value : Bool) :
    SameLengths bitmap (bitmap.put index value) :=
  ⟨bits_put bitmap index value, size_bytes_put bitmap index value⟩

theorem SameLengths.write
    (profile : Profile) (value : Bool) (index : Nat) (bitmap : Bitmap) :
    SameLengths bitmap
      (Action.state (Bitmap.write profile value index bitmap)) := by
  unfold Bitmap.write
  split
  · exact .put bitmap index value
  · exact ⟨rfl, rfl⟩

/-- Writing a range keeps the lengths, also where it is stopped half way. -/
theorem SameLengths.writeFrom
    (profile : Profile) (value : Bool) (start count : Nat) (bitmap : Bitmap) :
    SameLengths bitmap
      (Action.state (writeFrom profile value start count bitmap)) := by
  induction count generalizing bitmap start with
  | zero => exact ⟨rfl, rfl⟩
  | succ count inductionHypothesis =>
      have first := SameLengths.write profile value start bitmap
      rw [Bitmap.writeFrom]
      cases ran : Bitmap.write profile value start bitmap with
      | ok done middle =>
          rw [ran] at first
          rw [Action.bind_of_ok ran]
          have rest := inductionHypothesis (start + 1) middle
          exact
            ⟨rest.bits_eq.trans first.bits_eq,
              rest.size_eq.trans first.size_eq⟩
      | error fault middle =>
          rw [ran] at first
          rw [Action.bind_of_error ran]
          exact first

theorem sizes_start
    {bytes : Array UInt8} {bits : Nat}
    (accepted : start bytes bits = .ok binding) :
    binding.sizes = (bytes.size, bits) := by
  rw [start, ofBytes] at accepted
  split at accepted
  · cases accepted
    rfl
  · cases accepted

theorem sizes_withCurrent
    {bitmap : Bitmap} (same : SameLengths binding.current bitmap) :
    (binding.withCurrent bitmap).sizes = binding.sizes :=
  Prod.ext same.size_eq same.bits_eq

/-- A call keeps the sizes if its action on the bitmap in use does. -/
theorem sizes_onCurrent
    {Value : Type} {action : Action Bitmap Value} (answer : Value → Answer)
    (same :
      SameLengths binding.current (Action.state (action binding.current))) :
    (Action.state
        ((do return answer (← onCurrent action) : Action Binding Answer)
          binding)).sizes =
      binding.sizes := by
  cases ran : action binding.current with
  | ok value bitmap =>
      rw [ran] at same
      have done :
          onCurrent action binding =
            .ok value (binding.withCurrent bitmap) := Action.focus_of_ok ran
      rw [Action.bind_of_ok done]
      exact sizes_withCurrent same
  | error fault bitmap =>
      rw [ran] at same
      have stopped :
          onCurrent action binding =
            .error fault (binding.withCurrent bitmap) :=
        Action.focus_of_error ran
      rw [Action.bind_of_error stopped]
      exact sizes_withCurrent same

theorem sizes_attempt_put (binding : Binding) (index : Nat) (value : Bool) :
    (Action.state
        (attempt (fun bitmap => bitmap.tryPut index value) binding)).sizes =
      binding.sizes := by
  rw [attempt_eq, tryPut]
  by_cases inside : index < binding.current.bits
  · rw [if_pos inside]
    exact sizes_withCurrent (.put binding.current index value)
  · rw [if_neg inside]
    rfl

/-- Only another buffer that is accepted changes the sizes in use. -/
theorem sizes_tryCall
    (profile : Profile) (call : Call) (binding : Binding) :
    (tryCall profile call binding).2.sizes = call.resize binding.sizes := by
  rw [tryCall]
  cases call with
  | get index =>
      refine sizes_onCurrent .bit ?_
      unfold read
      split <;> exact ⟨rfl, rfl⟩
  | set index => exact sizes_onCurrent (fun _ => .done) (.write ..)
  | clear index => exact sizes_onCurrent (fun _ => .done) (.write ..)
  | setRange start stop =>
      exact sizes_onCurrent (fun _ => .done) (.writeFrom ..)
  | clearRange start stop =>
      exact sizes_onCurrent (fun _ => .done) (.writeFrom ..)
  | tryGet index =>
      rw [perform_tryGet]
      split <;> rfl
  | trySet index => exact sizes_attempt_put binding index true
  | tryClear index => exact sizes_attempt_put binding index false
  | allSet start stop =>
      rw [perform, Action.bind_getThe]
      cases binding.current.allSet profile start stop <;> rfl
  | fill value =>
      exact sizes_withCurrent ⟨bits_fill .., size_bytes_fill ..⟩
  | rebind bytes bits =>
      rw [perform_rebind, Call.resize]
      by_cases enough : bits ≤ 8 * bytes.size
      · rw [ofBytes_of_le enough, if_pos enough]
        rfl
      · rw [ofBytes_of_lt (Nat.lt_of_not_le enough), if_neg enough]
        rfl

theorem sizes_afterCalls
    (profile : Profile) (calls : List Call) (binding : Binding) :
    (afterCalls profile calls binding).sizes =
      calls.foldl (fun used call => call.resize used) binding.sizes := by
  induction calls generalizing binding with
  | nil => rfl
  | cons call rest inductionHypothesis =>
      rw [List.foldl_cons, ← sizes_tryCall profile]
      exact inductionHypothesis (tryCall profile call binding).2

/-! ## Calls that look at their index -/

/-- The calls that answer for an index that is not there. -/
def checkedCalls (index : Nat) : List Call :=
  [.tryGet index, .trySet index, .tryClear index]

theorem mem_checkedCalls {call : Call} {index : Nat} :
    call ∈ checkedCalls index ↔
      call = .tryGet index ∨ call = .trySet index ∨ call = .tryClear index := by
  simp [checkedCalls]

/-- An index is refused and nothing done, or leads to a byte of the buffer. -/
structure ChecksIndex
    (profile : Profile) (binding : Binding) (index : Nat) : Prop where
  refused_iff : ∀ call ∈ checkedCalls index,
    tryCall profile call binding =
        (.ok (.refused (.outOfRange index binding.current.bits)), binding) ↔
      binding.current.bits ≤ index
  reads : index < binding.current.bits →
    ∃ stored : index / 8 < binding.current.bytes.size,
      tryCall profile (.tryGet index) binding =
        (.ok (.bit (binding.current.bytes[index / 8] &&& mask index != 0)),
          binding)
  sets : index < binding.current.bits → ∃ later,
    tryCall profile (.trySet index) binding =
        (.ok .done, binding.withCurrent later) ∧
      ChangesByte (index / 8) (fun byte => byte ||| mask index)
        binding.current later
  clears : index < binding.current.bits → ∃ later,
    tryCall profile (.tryClear index) binding =
        (.ok .done, binding.withCurrent later) ∧
      ChangesByte (index / 8) (fun byte => byte &&& ~~~mask index)
        binding.current later

/-- Inside the bitmap a bit is written. -/
theorem attempt_put_of_lt
    {index : Nat} (value : Bool) (inside : index < binding.current.bits) :
    attempt (fun bitmap => bitmap.tryPut index value) binding =
      .ok .done (binding.withCurrent (binding.current.put index value)) := by
  rw [attempt_eq, tryPut, if_pos inside]

/-- Outside the bitmap nothing is written. -/
theorem attempt_put_of_le
    {index : Nat} (value : Bool) (outside : binding.current.bits ≤ index) :
    attempt (fun bitmap => bitmap.tryPut index value) binding =
      .ok (.refused (.outOfRange index binding.current.bits)) binding := by
  rw [attempt_eq, tryPut, if_neg (Nat.not_lt.mpr outside)]

theorem tryCall_tryGet_of_lt
    (profile : Profile) {index : Nat}
    (inside : index < binding.current.bits) :
    tryCall profile (.tryGet index) binding =
      (.ok (.bit (binding.current.bit index)), binding) := by
  apply tryCall_of_ok
  rw [perform_tryGet, tryGet, if_pos inside]

theorem tryCall_trySet_of_lt
    (profile : Profile) {index : Nat}
    (inside : index < binding.current.bits) :
    tryCall profile (.trySet index) binding =
      (.ok .done, binding.withCurrent (binding.current.put index true)) :=
  tryCall_of_ok (attempt_put_of_lt true inside)

theorem tryCall_tryClear_of_lt
    (profile : Profile) {index : Nat}
    (inside : index < binding.current.bits) :
    tryCall profile (.tryClear index) binding =
      (.ok .done, binding.withCurrent (binding.current.put index false)) :=
  tryCall_of_ok (attempt_put_of_lt false inside)

/-- Outside the bitmap every checked call is refused and does nothing. -/
theorem tryCall_checked_of_le
    (profile : Profile) {index : Nat} {call : Call}
    (checked : call ∈ checkedCalls index)
    (outside : binding.current.bits ≤ index) :
    tryCall profile call binding =
      (.ok (.refused (.outOfRange index binding.current.bits)), binding) := by
  apply tryCall_of_ok
  rcases mem_checkedCalls.mp checked with rfl | rfl | rfl
  · rw [perform_tryGet, tryGet, if_neg (Nat.not_lt.mpr outside)]
  · exact attempt_put_of_le true outside
  · exact attempt_put_of_le false outside

theorem checksIndex (profile : Profile) (binding : Binding) (index : Nat) :
    ChecksIndex profile binding index where
  refused_iff := by
    intro call checked
    refine ⟨?_, tryCall_checked_of_le profile checked⟩
    intro refused
    by_contra below
    have inside := Nat.lt_of_not_le below
    rcases mem_checkedCalls.mp checked with rfl | rfl | rfl
    · rw [tryCall_tryGet_of_lt profile inside] at refused
      cases refused
    · rw [tryCall_trySet_of_lt profile inside] at refused
      cases refused
    · rw [tryCall_tryClear_of_lt profile inside] at refused
      cases refused
  reads := by
    intro inside
    have stored := binding.current.byte_lt inside
    refine ⟨stored, ?_⟩
    rw [tryCall_tryGet_of_lt profile inside, bit, decide_eq_true inside,
      Bool.true_and, Array.getD, dif_pos stored]
    rfl
  sets := by
    intro inside
    exact
      ⟨_, tryCall_trySet_of_lt profile inside,
        changesByte_put binding.current true inside⟩
  clears := by
    intro inside
    exact
      ⟨_, tryCall_tryClear_of_lt profile inside,
        changesByte_put binding.current false inside⟩

/-! ## Offering another buffer -/

/-- A refused buffer changes nothing, and an accepted one is all that is seen. -/
structure Rebinds
    (profile : Profile) (binding : Binding) (bytes : Array UInt8)
    (bits : Nat) : Prop where
  refused : 8 * bytes.size < bits → ∃ later,
    tryCall profile (.rebind bytes bits) binding =
        (.ok (.refused (.bufferTooSmall bytes.size bits)), later) ∧
      later.current = binding.current ∧
        later.buffers = binding.buffers ++ [bytes] ∧
          SameRuns profile later binding
  accepted : bits ≤ 8 * bytes.size → ∃ later fresh,
    tryCall profile (.rebind bytes bits) binding = (.ok .done, later) ∧
      start bytes bits = .ok fresh ∧
        later.buffers = binding.buffers ++ [bytes] ∧
          SameRuns profile later fresh ∧
            ∀ calls,
              binding.buffers <+: (afterCalls profile calls later).buffers

theorem rebinds
    (profile : Profile) (binding : Binding) (bytes : Array UInt8)
    (bits : Nat) : Rebinds profile binding bytes bits where
  refused := by
    intro short
    have offered := ofBytes_of_lt short
    have ran := perform_rebind binding profile bytes bits
    have listed := buffers_rebind binding bytes bits
    rw [rebind] at listed
    rw [offered] at ran listed
    exact
      ⟨_, tryCall_of_ok ran, rfl, listed, sameRuns_of_current profile rfl⟩
  accepted := by
    intro enough
    have offered := ofBytes_of_le enough
    have ran := perform_rebind binding profile bytes bits
    have listed := buffers_rebind binding bytes bits
    rw [rebind] at listed
    rw [offered] at ran listed
    have started :
        start bytes bits = .ok ⟨[], ⟨bytes, bits, enough⟩, []⟩ := by
      rw [start, offered]
      rfl
    refine
      ⟨_, _, tryCall_of_ok ran, started, listed,
        sameRuns_of_current profile rfl, ?_⟩
    intro calls
    exact earlier_prefix profile calls ⟨binding.buffers, _, []⟩

/--
A bitmap is bound to every buffer that has its bits and to no other.  After any
calls the sizes in use are those of the last buffer that was accepted, an index
outside is refused and one inside leads to a byte of that buffer, and a buffer that
is offered is refused without a trace, or replaces the former one and leaves it as
it is.
-/
theorem binding_safe (profile : Profile) :
    (∀ bytes bits, BindsExactly bytes bits) ∧
      ∀ (bytes : Array UInt8) (bits : Nat) (binding : Binding),
        start bytes bits = .ok binding → ∀ calls : List Call,
          (afterCalls profile calls binding).sizes =
              calls.foldl (fun used call => call.resize used)
                (bytes.size, bits) ∧
            (∀ index,
              ChecksIndex profile (afterCalls profile calls binding) index) ∧
              ∀ (bytes : Array UInt8) (bits : Nat),
                Rebinds profile (afterCalls profile calls binding) bytes
                  bits := by
  refine ⟨bindsExactly, ?_⟩
  intro bytes bits binding accepted calls
  refine ⟨?_, checksIndex profile _, rebinds profile _⟩
  rw [sizes_afterCalls, sizes_start accepted]

end Binding

end BootMemory.Bitmap

namespace BootMemory.Sample

open Bitmap.Binding

/-- A buffer is refused, another one accepted, and a bit is set past both. -/
def rebindingCalls : List Call :=
  [.clear 0, .rebind #[] 1, .set 8, .rebind #[0, 0] 9, .trySet 8, .trySet 9]

/-- The assertion stops one call; the first buffer is left as it was by then. -/
theorem rebinding_binding_safe :
    ∃ binding, start #[255] 8 = .ok binding ∧
      (afterCalls .debug rebindingCalls binding).buffers =
          [#[254], #[], #[0, 1]] ∧
        (afterCalls .debug rebindingCalls binding).sizes = (2, 9) ∧
          ChecksIndex .debug (afterCalls .debug rebindingCalls binding) 9 := by
  refine ⟨_, rfl, rfl, ?_⟩
  rcases (binding_safe .debug).2 #[255] 8 _ rfl rebindingCalls with
    ⟨sizes, checks, -⟩
  exact ⟨sizes, checks 9⟩

end BootMemory.Sample
