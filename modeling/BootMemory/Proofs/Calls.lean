import BootMemory.Bitmap.Binding
import BootMemory.Bitmap.Range
import BootMemory.Frames.Setup
import BootMemory.Proofs.Action

/-!
# Calls

The operations of a bitmap and of a frame allocator as values, so that a
sequence of them can be spoken of.  `perform` says what each one does and what
it yields, and `performAll` runs a sequence until the first fault.

A bitmap may be bound to another buffer between two operations.  An allocator
may be set up anew, from any memory map and through any direct map; calls
before the first success find no allocator.
-/

namespace BootMemory

/-! ## Calls on a bitmap -/

namespace Bitmap.Binding

/-- What can be asked of a bitmap. -/
inductive Call where
  | get (index : Nat)
  | set (index : Nat)
  | clear (index : Nat)
  | tryGet (index : Nat)
  | trySet (index : Nat)
  | tryClear (index : Nat)
  | setRange (start stop : Nat)
  | clearRange (start stop : Nat)
  | allSet (start stop : Nat)
  | fill (value : Bool)
  | rebind (bytes : Array UInt8) (bits : Nat)

/-- What a call on a bitmap yields. -/
inductive Answer where
  | bit (value : Bool)
  | done
  | refused (refusal : BitmapError)

/-- Perform an action on the bitmap in use. -/
def onCurrent {Value : Type} (action : Action Bitmap Value) :
    Action Binding Value :=
  Action.focus Binding.current withCurrent action

/-- Replace the bitmap in use, unless that is refused. -/
def attempt (change : Bitmap → Except BitmapError Bitmap) :
    Action Binding Answer := do
  match change (← getThe Binding).current with
  | .ok bitmap =>
      modify (withCurrent bitmap)
      return .done
  | .error refusal => return .refused refusal

/-- Perform a call. -/
def perform (profile : Profile) : Call → Action Binding Answer
  | .get index => return .bit (← onCurrent (read profile index))
  | .set index => do
      onCurrent (Bitmap.set profile index)
      return .done
  | .clear index => do
      onCurrent (Bitmap.clear profile index)
      return .done
  | .tryGet index => do
      match (← getThe Binding).current.tryGet index with
      | .ok value => return .bit value
      | .error refusal => return .refused refusal
  | .trySet index => attempt fun bitmap => bitmap.trySet index
  | .tryClear index => attempt fun bitmap => bitmap.tryClear index
  | .setRange start stop => do
      onCurrent (Bitmap.setRange profile start stop)
      return .done
  | .clearRange start stop => do
      onCurrent (Bitmap.clearRange profile start stop)
      return .done
  | .allSet start stop => do
      let binding ← getThe Binding
      return .bit (← binding.current.allSet profile start stop)
  | .fill value => do
      modify fun binding => binding.withCurrent (binding.current.fill value)
      return .done
  | .rebind bytes bits => do
      let (result, binding) := (← getThe Binding).rebind bytes bits
      modify fun _ => binding
      match result with
      | .ok () => return .done
      | .error refusal => return .refused refusal

/-- Perform calls in order. -/
def performAll (profile : Profile) (calls : List Call) :
    Action Binding (List Answer) :=
  calls.mapM (perform profile)

end Bitmap.Binding

/-! ## Calls on a frame allocator -/

namespace Machine

/-- What can be asked of a frame allocator. -/
inductive Call where
  | allocate (size : UInt64)
  | free (address : PhysicalAddress) (size : UInt64)
  | allocateAccessible (size : UInt64)
  | freeAccessible (address : VirtualAddress) (size : UInt64)
  | info
  | stats
  | isPageUsed (address : PhysicalAddress)

/-- What a call on a frame allocator yields. -/
inductive Answer where
  | placed (result : Except AllocError PhysicalAddress)
  | exposed (result : Except AllocError VirtualAddress)
  | done
  | books (stats : Stats)
  | used (verdict : Bool)

/-- Perform a call. -/
def perform (profile : Profile) : Call → Action Machine Answer
  | .allocate size => return .placed (← allocate profile size)
  | .free address size => do
      free profile address size
      return .done
  | .allocateAccessible size =>
      return .exposed (← allocateAccessible profile size)
  | .freeAccessible address size => do
      freeAccessible profile address size
      return .done
  | .info => do
      info profile
      return .done
  | .stats => return .books (← get).stats
  | .isPageUsed address => return .used ((← get).isPageUsed address)

end Machine

/-! ## Setting up and calling -/

/-- Boot memory and the allocator that was set up last, if it could be. -/
structure Platform where
  boot : Boot
  allocator : Option Allocator

namespace Platform

/-- Set up an allocator, or call the one that there is. -/
inductive Operation where
  | setUp (offset : UInt64) (map : List Region)
  | call (call : Machine.Call)

/-- What an operation yields; setting up adjusts the memory map as well. -/
inductive Answer where
  | founded (result : Except AllocError Allocator) (map : List Region)
  | answered (answer : Machine.Answer)
  | absent

/-- Perform an action of an allocator that is at work. -/
def onMachine {Value : Type} (allocator : Allocator)
    (action : Action Machine Value) : Action Platform Value :=
  Action.focus (fun platform => platform.boot.start allocator)
    (fun machine platform =>
      { boot :=
          { platform.boot with memory := machine.memory, log := machine.log }
        allocator := some machine.allocator })
    action

/-- Set up an allocator from a memory map. -/
def found (profile : Profile) (offset : UInt64) (map : List Region) :
    Action Platform (Except AllocError Allocator) :=
  Action.focus (fun platform => { platform.boot with map })
    (fun boot platform => { platform with boot })
    (Boot.setUp profile (.direct ⟨offset⟩))

/-- Perform an operation. -/
def perform (profile : Profile) : Operation → Action Platform Answer
  | .setUp offset map => do
      let result ← found profile offset map
      modify fun platform => { platform with allocator := result.toOption }
      return .founded result (← get).boot.map
  | .call call => do
      match (← get).allocator with
      | none => return .absent
      | some allocator =>
          return .answered (← onMachine allocator (Machine.perform profile call))

/-- Perform operations in order. -/
def performAll (profile : Profile) (operations : List Operation) :
    Action Platform (List Answer) :=
  operations.mapM (perform profile)

variable {profile : Profile} {boot later : Boot}

theorem perform_setUp_of_ok
    {offset : UInt64} {map : List Region} {allocator : Option Allocator}
    {result : Except AllocError Allocator}
    (ran :
      Boot.setUp profile (.direct ⟨offset⟩) { boot with map } =
        .ok result later) :
    perform profile (.setUp offset map) ⟨boot, allocator⟩ =
      .ok (.founded result later.map) ⟨later, result.toOption⟩ := by
  have founded :
      found profile offset map ⟨boot, allocator⟩ =
        .ok result ⟨later, allocator⟩ := by
    rw [found, Action.focus, ran]
  exact Action.bind_of_ok founded

theorem perform_call_of_ok
    {call : Machine.Call} {allocator : Allocator} {answer : Machine.Answer}
    {machine : Machine}
    (ran :
      Machine.perform profile call (boot.start allocator) =
        .ok answer machine) :
    perform profile (.call call) ⟨boot, some allocator⟩ =
      .ok (.answered answer)
        ⟨{ boot with memory := machine.memory, log := machine.log },
          some machine.allocator⟩ := by
  have called :
      onMachine allocator (Machine.perform profile call)
          ⟨boot, some allocator⟩ =
        .ok answer
          ⟨{ boot with memory := machine.memory, log := machine.log },
            some machine.allocator⟩ := by
    rw [onMachine, Action.focus, ran]
  exact Action.bind_of_ok called

theorem performAll_cons_of_ok
    {operation : Operation} {rest : List Operation}
    {start middle finish : Platform} {answer : Answer} {answers : List Answer}
    (first : perform profile operation start = .ok answer middle)
    (others : performAll profile rest middle = .ok answers finish) :
    performAll profile (operation :: rest) start =
      .ok (answer :: answers) finish := by
  rw [performAll, List.mapM_cons, Action.bind_of_ok first]
  exact Action.bind_of_ok others

end Platform

end BootMemory
