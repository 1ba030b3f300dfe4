import BootMemory.Profile
import BootMemory.Size

/-!
# Regions of the boot memory map

The boot loader describes physical memory as a list of regions.  A region is a
run of bytes of one kind; it need not start or end at a frame boundary, and
only the frames that lie in it entirely can be handed out.

Taking bytes off the front of a usable region is how the map is adjusted when
memory is set aside.
-/

namespace BootMemory

/-- What the memory of a region is. -/
inductive RegionKind where
  /-- Free memory. -/
  | usable
  /-- Firmware or hardware memory that is never touched. -/
  | reserved
  /-- Memory with boot loader data, free once the kernel is done with it. -/
  | bootloaderReclaimable
  /-- Memory with the kernel's executable and the boot modules. -/
  | executableOrModule
  /-- Tables, bad memory, framebuffers and anything else. -/
  | other
  deriving Repr, DecidableEq

namespace RegionKind

/-- Memory that the kernel accounts for, free now or later. -/
def isRam : RegionKind → Bool
  | usable | bootloaderReclaimable | executableOrModule => true
  | reserved | other => false

/-- Memory that the kernel accounts for and that is in use at boot. -/
def isOccupiedRam : RegionKind → Bool
  | bootloaderReclaimable | executableOrModule => true
  | usable | reserved | other => false

/-- The number that stands for the kind in the boot protocol. -/
def code : RegionKind → Nat
  | usable => 0
  | reserved => 1
  | bootloaderReclaimable => 2
  | executableOrModule => 3
  | other => 4

end RegionKind

/-- An interval of natural numbers that contains `first` but not `stop`. -/
structure Span where
  first : Nat
  stop : Nat
  deriving DecidableEq

/-- A run of physical memory of one kind. -/
structure Region where
  base : UInt64
  length : UInt64
  kind : RegionKind
  deriving DecidableEq

namespace Region

/-- Whether the region is free memory. -/
def isUsable (region : Region) : Bool := region.kind == .usable

/-- The end of the region, held at the greatest word where it would lie beyond. -/
def stop (region : Region) : Nat :=
  min (region.base.toNat + region.length.toNat) (wordCount - 1)

/--
The bytes of the frames that lie in the region entirely.  Where there is none
the span is empty, and starts at the first frame boundary from the base on.
-/
def wholeFrames (profile : Profile) (region : Region) : Except Fault Span := do
  let first ← profile.mul (framesFor region.base.toNat) frameSize
  let stop := region.stop / frameSize * frameSize
  return if first < stop then ⟨first, stop⟩ else ⟨first, first⟩

/-- The number of frames that lie in the region entirely. -/
def pageCount (profile : Profile) (region : Region) : Except Fault Nat := do
  let span ← region.wholeFrames profile
  let bytes ← profile.sub span.stop span.first
  return bytes / frameSize

/-- Move the base forward; a region is never made shorter than empty. -/
def consumeFront (profile : Profile) (region : Region) (bytes : UInt64) :
    Except Fault Region := do
  let taken := if region.length < bytes then region.length else bytes
  let base ← profile.addWord region.base taken
  let length ← profile.subWord region.length taken
  return { region with base, length }

end Region

end BootMemory
