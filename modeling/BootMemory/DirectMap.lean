import BootMemory.Address
import BootMemory.Layout

/-!
# Direct maps

A direct map makes each byte of physical memory accessible at a fixed distance,
its offset.  Addresses from the offset on count as accessible already, and
those below it as physical already, so both directions leave an address alone
that is on the side they lead to.
-/

namespace BootMemory

/-- A direct map at an offset. -/
structure DirectMap where
  offset : UInt64
  deriving DecidableEq

namespace DirectMap

/-- The direct map that the kernel sets up itself. -/
def kernel : DirectMap := ⟨Layout.directMapBase⟩

instance : Inhabited DirectMap := ⟨kernel⟩

/-- Whether an address lies inside the direct map. -/
def covers (map : DirectMap) (address : UInt64) : Bool :=
  decide (map.offset ≤ address)

/-- The accessible address of a physical one. -/
def toVirtual (profile : Profile) (map : DirectMap) (address : PhysicalAddress) :
    Except Fault VirtualAddress :=
  if map.covers address.value then
    .ok ⟨address.value⟩
  else
    (profile.addWord address.value map.offset).map Address.mk

/-- The physical address behind an accessible one. -/
def toPhysical (profile : Profile) (map : DirectMap) (address : VirtualAddress) :
    Except Fault PhysicalAddress :=
  if map.covers address.value then
    (profile.subWord address.value map.offset).map Address.mk
  else
    .ok ⟨address.value⟩

end DirectMap

end BootMemory
