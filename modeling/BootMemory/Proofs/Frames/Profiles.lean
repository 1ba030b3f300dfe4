import BootMemory.Proofs.Frames.Agreement
import BootMemory.Proofs.Frames.Completeness

/-!
# Runs in both profiles

A sequence of operations that the debug profile finishes is finished by the
release profile as well, with the same answers and in the same state:
`Profile.release_follows_debug` says so of allocators and of bitmaps.  Nothing
is asked of the memory map, of the arguments, or of what memory holds.

A platform keeps the allocator that was set up last.  Its calls agree because
the allocator uses the direct map that it was set up with.
-/

namespace BootMemory

/-! ## Bitmaps -/

namespace Bitmap.Binding

theorem onCurrent_agrees
    {Value : Type} {checked unchecked : Action Bitmap Value}
    (agrees : Action.Agrees Eq checked unchecked) :
    Action.Agrees Eq (onCurrent checked) (onCurrent unchecked) := by
  refine agrees.focus (fun _ _ same => congrArg current same) ?_
  rintro value binding _ bitmap _ rfl rfl
  rfl

theorem perform_agrees (call : Call) :
    Action.Agrees Eq (perform .debug call)
      (perform .release call) := by
  cases call with
  | get index =>
      exact (onCurrent_agrees (read_agrees index)).bind fun _ => .pure _
  | set index =>
      exact (onCurrent_agrees (write_agrees true index)).bind fun _ => .pure _
  | clear index =>
      exact (onCurrent_agrees (write_agrees false index)).bind fun _ => .pure _
  | setRange start stop =>
      exact
        (onCurrent_agrees (writeRange_agrees true start stop)).bind fun _ =>
          .pure _
  | clearRange start stop =>
      exact
        (onCurrent_agrees (writeRange_agrees false start stop)).bind fun _ =>
          .pure _
  | allSet start stop =>
      refine .bind_get ?_
      rintro binding _ rfl
      exact .bind_lift (binding.current.allSet_agrees start stop) fun _ _ =>
        .pure _
  | tryGet | trySet | tryClear | fill | rebind => exact .refl _

theorem performAll_agrees (calls : List Call) :
    Action.Agrees Eq (performAll .debug calls)
      (performAll .release calls) :=
  .mapM perform_agrees calls

end Bitmap.Binding

/-! ## Allocators -/

namespace Platform

/-- The allocator, if there is one, has a mapper that agrees. -/
def Wired (platform : Platform) : Prop :=
  ∀ allocator, platform.allocator = some allocator →
    allocator.mapper.ProfilesAgree

/-- Two platforms are the same, and their mapper agrees. -/
def SameWired (platform other : Platform) : Prop :=
  platform = other ∧ platform.Wired

/-- The same, and an allocator that was just set up uses the direct map. -/
def SameFounded
    (offset : UInt64) (result : Except AllocError Allocator)
    (platform other : Platform) : Prop :=
  platform.SameWired other ∧
    ∀ allocator, result = .ok allocator → allocator.mapper = .direct ⟨offset⟩

theorem found_agrees (offset : UInt64) (map : List Region) :
    Action.Follows SameWired (SameFounded offset)
      (found .debug offset map) (found .release offset map) := by
  refine (Boot.eq_simulates (Mapper.direct_agree ⟨offset⟩)).setUp.focus ?_ ?_
  · rintro platform _ ⟨rfl, -⟩
    rfl
  · rintro result platform _ boot _ ⟨rfl, wired⟩ ⟨rfl, told⟩
    exact ⟨⟨rfl, wired⟩, told⟩

theorem onMachine_agrees
    {Value : Type} {allocator : Allocator}
    (agree : allocator.mapper.ProfilesAgree)
    {checked unchecked : Action Machine Value}
    (agrees : Action.Agrees Machine.SameWired checked unchecked) :
    Action.Agrees SameWired (onMachine allocator checked)
      (onMachine allocator unchecked) := by
  refine agrees.focus ?_ ?_
  · rintro platform _ ⟨rfl, -⟩
    exact ⟨rfl, agree⟩
  · rintro value platform _ machine _ ⟨rfl, -⟩ ⟨rfl, wired⟩
    refine ⟨?_, ?_⟩
    · rfl
    · rintro _ ⟨⟩
      exact wired

theorem perform_agrees (operation : Operation) :
    Action.Agrees SameWired (perform .debug operation)
      (perform .release operation) := by
  cases operation with
  | setUp offset map =>
      refine (found_agrees offset map).bind fun result => ?_
      have kept :
          Action.Follows (SameFounded offset result) (fun _ => SameWired)
            (modify fun platform : Platform =>
              { platform with allocator := result.toOption })
            (modify fun platform : Platform =>
              { platform with allocator := result.toOption }) := by
        refine .modify ?_
        rintro platform _ ⟨⟨rfl, -⟩, told⟩
        refine ⟨rfl, fun allocator present => ?_⟩
        cases result with
        | error refusal => cases present
        | ok founder =>
            cases present
            rw [told allocator rfl]
            exact Mapper.direct_agree ⟨offset⟩
      refine kept.bind fun _ => .bind_get ?_
      rintro platform _ ⟨rfl, -⟩
      exact .pure _
  | call call =>
      refine .bind_get ?_
      rintro platform _ ⟨rfl, wired⟩
      cases present : platform.allocator with
      | none => exact .pure _
      | some allocator =>
          exact
            (onMachine_agrees (wired allocator present)
              (Machine.sameWired_simulates.perform call)).bind fun _ => .pure _

theorem performAll_agrees (operations : List Operation) :
    Action.Agrees SameWired (performAll .debug operations)
      (performAll .release operations) :=
  .mapM perform_agrees operations

end Platform

/--
Whatever the debug profile finishes, the release profile finishes with the same
answers and in the same state.
-/
theorem Profile.release_follows_debug :
    (∀ (operations : List Platform.Operation) (boot : Boot)
        (answers : List Platform.Answer) (finish : Platform),
      Platform.performAll .debug operations ⟨boot, none⟩ =
          .ok answers finish →
        Platform.performAll .release operations ⟨boot, none⟩ =
          .ok answers finish) ∧
    (∀ (calls : List Bitmap.Binding.Call) (binding : Bitmap.Binding)
        (answers : List Bitmap.Binding.Answer) (finish : Bitmap.Binding),
      Bitmap.Binding.performAll .debug calls binding = .ok answers finish →
        Bitmap.Binding.performAll .release calls binding =
          .ok answers finish) := by
  constructor
  · intro operations boot answers finish ran
    have wired : Platform.Wired ⟨boot, none⟩ := fun _ absent => nomatch absent
    rcases
      Platform.performAll_agrees operations _ _ answers finish ⟨rfl, wired⟩
        ran with
      ⟨ending, same, equal, -⟩
    rw [same, equal]
  · intro calls binding answers finish ran
    rcases
      Bitmap.Binding.performAll_agrees calls binding _ answers finish rfl
        ran with
      ⟨ending, same, equal⟩
    rw [same, equal]

namespace Sample

/-- A set-up and two calls. -/
def gapOperations : List Platform.Operation :=
  [.setUp offset gapMap, .call (.allocate 8192), .call .stats]

/-- A range is set and looked at, and an index outside is asked for. -/
def rangeCalls : List Bitmap.Binding.Call :=
  [.setRange 3 6, .allSet 3 6, .clear 4, .tryGet 12]

/-- Twelve bits over two bytes of ones. -/
def rangeBinding : Bitmap.Binding := ⟨[], ⟨#[255, 255], 12, by decide⟩, []⟩

/-- The debug profile finishes the sample, so the first request is served. -/
theorem exists_gap_run :
    ∃ answers finish,
      Platform.performAll .debug gapOperations ⟨⟨[], .zero, []⟩, none⟩ =
        .ok answers finish := by
  rcases exists_gap_setUp .debug .zero with ⟨middle, ran⟩
  rcases exists_gap_answer ran 8192 with ⟨result, later, served⟩
  have called :
      Machine.perform .debug (.allocate 8192) _ = .ok (.placed result) later :=
    Action.bind_of_ok served
  exact
    ⟨_, _,
      Platform.performAll_cons_of_ok (Platform.perform_setUp_of_ok ran) <|
        Platform.performAll_cons_of_ok (Platform.perform_call_of_ok called)
          rfl⟩

/-- What debug does on the samples, release does. -/
theorem gap_release_follows_debug :
    (∃ answers finish,
      Platform.performAll .debug gapOperations ⟨⟨[], .zero, []⟩, none⟩ =
          .ok answers finish ∧
        Platform.performAll .release gapOperations ⟨⟨[], .zero, []⟩, none⟩ =
          .ok answers finish) ∧
    ∃ answers finish,
      Bitmap.Binding.performAll .debug rangeCalls rangeBinding =
          .ok answers finish ∧
        Bitmap.Binding.performAll .release rangeCalls rangeBinding =
          .ok answers finish := by
  rcases exists_gap_run with ⟨answers, finish, ran⟩
  exact
    ⟨⟨answers, finish, ran,
      Profile.release_follows_debug.1 gapOperations _ answers finish ran⟩,
      _, _, rfl,
      Profile.release_follows_debug.2 rangeCalls rangeBinding _ _ rfl⟩

end Sample

end BootMemory
