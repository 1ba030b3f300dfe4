import BootMemory.Frames.Allocator
import BootMemory.Listing

/-!
# Surveys

Questions about the allocator as a whole: which frames of an interval are in
use, and what is handed out if memory is asked for until it runs out.
-/

namespace BootMemory.Machine

/-- Whether a frame is unavailable, as `isPageUsed` says of its address. -/
def isFrameUsed (bitmap : Bitmap) (frame : Nat) : Bool :=
  match bitmap.tryGet (Address.ofFrame frame).frame with
  | .ok used => used
  | .error _ => true

/-- The used frames of an interval, as maximal intervals. -/
def usedRuns (machine : Machine) (first stop : Nat) : List Listing.Interval :=
  let bitmap := machine.table.bitmap
  Listing.intervals <|
    (List.range' first (stop - first)).filter (isFrameUsed bitmap)

/-- What was handed out until memory ran out. -/
structure Drained where
  /-- The addresses in the order of allocation. -/
  addresses : List PhysicalAddress
  /-- Why no more was handed out; nothing if the null address was. -/
  refusal : Option AllocError

/--
Allocate memory of a size until that is refused or yields the null address,
but no more than `most` times.
-/
def drainUpTo (profile : Profile) (size : UInt64) :
    (most : Nat) → Action Machine Drained
  | 0 => return ⟨[], none⟩
  | most + 1 => do
      match ← allocate profile size with
      | .error refusal => return ⟨[], some refusal⟩
      | .ok address =>
          if address.isNull then
            return ⟨[], none⟩
          let drained ← drainUpTo profile size most
          return { drained with addresses := address :: drained.addresses }

/--
Allocate memory of a size until that is refused or yields the null address.
Each success takes a frame below the end of memory, and one more request is
refused.
-/
def drain (profile : Profile) (size : UInt64) : Action Machine Drained := do
  let machine ← get
  drainUpTo profile size (machine.allocator.frameLimit + 1)

end BootMemory.Machine
