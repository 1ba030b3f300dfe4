import BootMemory.Region

/-!
# The census of memory

One pass over the memory map gathers what the allocator has to know of it: how
far memory reaches, where usable memory starts, and how many frames there are.

The bitmap covers every frame below the highest end of memory that is free now
or later, so that memory in use at boot can be released into it afterwards.
-/

namespace BootMemory

/-- Totals over the memory map. -/
structure Census where
  /-- The highest end of a region of any kind. -/
  highestPhysical : Nat
  /-- The highest end of a region that is free now or later. -/
  highestRam : Nat
  /-- The highest end of a usable region. -/
  highestUsable : Nat
  /-- The lowest base of a usable region, if there is one. -/
  lowestUsable : Option Nat
  /-- Frames of memory that is free now or later. -/
  presentPages : Nat
  /-- Frames of memory that is in use at boot. -/
  occupiedPages : Nat

namespace Census

/-- The totals of an empty map. -/
def empty : Census := ⟨0, 0, 0, none, 0, 0⟩

/-- Take the reach of a region into account. -/
def reach (census : Census) (region : Region) : Census :=
  { census with
    highestPhysical := max census.highestPhysical region.stop }

/-- Take the frames of a region into account; empty regions have none. -/
def countPages (profile : Profile) (census : Census) (region : Region) :
    Except Fault Census := do
  if region.kind.isRam && region.length != 0 then
    let pages ← region.pageCount profile
    let presentPages ← profile.add census.presentPages pages
    let occupiedPages ←
      if region.kind.isOccupiedRam then
        profile.add census.occupiedPages pages
      else
        pure census.occupiedPages
    return { census with
      highestRam := max census.highestRam region.stop
      presentPages
      occupiedPages }
  else
    return census

/-- Take the bounds of a usable region into account; empty ones have none. -/
def bound (census : Census) (region : Region) : Census :=
  if region.isUsable && region.length != 0 then
    { census with
      highestUsable := max census.highestUsable region.stop
      lowestUsable := some <|
        match census.lowestUsable with
        | none => region.base.toNat
        | some lowest => min lowest region.base.toNat }
  else
    census

/-- Take one more region into account. -/
def add (profile : Profile) (census : Census) (region : Region) :
    Except Fault Census := do
  let counted ← (census.reach region).countPages profile region
  return counted.bound region

/-- The totals over a memory map. -/
def take (profile : Profile) (map : List Region) : Except Fault Census :=
  map.foldlM (add profile) empty

end Census

end BootMemory
