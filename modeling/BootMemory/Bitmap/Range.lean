import BootMemory.Bitmap.Basic

/-!
# Ranges of bits

Operations on the bits `start, start + 1, …` up to but without `stop`, one
index after the other.  In the debug profile a range that reaches outside the
bitmap is met at its first index outside, after the indices before it have been
written; in the release profile the indices outside are passed over.

Once one index outside has been visited the further ones add nothing: debug has
stopped, and release does nothing there.  `visited` counts the indices up to
that point, so the work is bounded by the bitmap and not by `stop`.
-/

namespace BootMemory.Bitmap

/-- How many indices of a range are visited: none past the first one outside. -/
def visited (bitmap : Bitmap) (start stop : Nat) : Nat :=
  min stop (max start bitmap.bits + 1) - start

/-- Write the bits from an index on. -/
def writeFrom (profile : Profile) (value : Bool) :
    (start count : Nat) → Action Bitmap Unit
  | _, 0 => pure ()
  | start, count + 1 => do
      write profile value start
      writeFrom profile value (start + 1) count

/-- Write every bit of a range. -/
def writeRange (profile : Profile) (value : Bool) (start stop : Nat) :
    Action Bitmap Unit := fun bitmap =>
  writeFrom profile value start (bitmap.visited start stop) bitmap

/-- Set every bit of a range. -/
def setRange (profile : Profile) (start stop : Nat) : Action Bitmap Unit :=
  writeRange profile true start stop

/-- Clear every bit of a range. -/
def clearRange (profile : Profile) (start stop : Nat) : Action Bitmap Unit :=
  writeRange profile false start stop

/-- Whether all of the bits from an index on are set. -/
def allSetFrom (profile : Profile) (bitmap : Bitmap) :
    (start count : Nat) → Except Fault Bool
  | _, 0 => pure true
  | start, count + 1 => do
      if ← bitmap.get profile start then
        allSetFrom profile bitmap (start + 1) count
      else
        return false

/-- Whether every bit of a range is set; the first clear bit settles it. -/
def allSet (profile : Profile) (bitmap : Bitmap) (start stop : Nat) :
    Except Fault Bool :=
  allSetFrom profile bitmap start (stop - start)

/-- Clear those of the bits from an index on that are set, and count them. -/
def releaseFrom (profile : Profile) :
    (start count released : Nat) → Action Bitmap Nat
  | _, 0, released => pure released
  | start, count + 1, released => do
      if ← read profile start then
        clear profile start
        let counted ← profile.add released 1
        releaseFrom profile (start + 1) count counted
      else
        releaseFrom profile (start + 1) count released

end BootMemory.Bitmap
