/-!
# Faults

A fault is a programming error met while an operation runs: an assertion that
does not hold, or an arithmetic result outside the 64-bit range.  It stops the
operation for good and is never part of its documented errors, which are
ordinary values.  Whether a fault is looked for at all is decided by
`BootMemory.Profile`.
-/

namespace BootMemory

/-- The causes for which a checked operation stops. -/
inductive Fault where
  /-- A sum left the 64-bit range. -/
  | addOverflow
  /-- A difference was negative. -/
  | subtractOverflow
  /-- A product left the 64-bit range. -/
  | multiplyOverflow
  /-- An alignment was not a power of two. -/
  | notPowerOfTwo
  /-- A bitmap was asked for a bit it does not have. -/
  | bitmapIndex (index : Nat)
  /-- Frames past the end of the bitmap were given back. -/
  | releaseBeyondBitmap (first stop length : Nat)
  /-- Frame zero, which is never handed out, was given back. -/
  | releaseFrameZero
  /-- Frames were given back of which some are free already. -/
  | releaseUnallocated (first stop : Nat)
  deriving Repr, DecidableEq

namespace Fault

/-- The line reported for a fault. -/
def message : Fault → String
  | addOverflow => "attempt to add with overflow"
  | subtractOverflow => "attempt to subtract with overflow"
  | multiplyOverflow => "attempt to multiply with overflow"
  | notPowerOfTwo => "assertion failed: a.is_power_of_two()"
  | bitmapIndex index => s!"bitmap index {index} out of range"
  | releaseBeyondBitmap first stop length =>
      s!"freeing frames {first}..{stop} beyond the bitmap of {length} frames"
  | releaseFrameZero => "frame 0 is never allocated"
  | releaseUnallocated first stop =>
      s!"double free or free of unallocated frames in {first}..{stop}"

end Fault

end BootMemory
