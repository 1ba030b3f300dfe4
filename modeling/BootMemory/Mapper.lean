import BootMemory.DirectMap
import BootMemory.Memory

/-!
# Mappers

A mapper is how the frame allocator gets at physical memory.  It translates
addresses both ways, and it says through which address the bytes of physical
memory are reached when the allocator itself writes them.  The last need not be
the translation that is handed to others: a mapper may decline to expose an
address and still be able to zero the memory there.
-/

namespace BootMemory

/-- A translation between physical memory and the addresses that reach it. -/
structure Mapper where
  /-- The address through which others access physical memory. -/
  toVirtual : Profile → PhysicalAddress → Except Fault VirtualAddress
  /-- The physical address behind an accessible one. -/
  toPhysical : Profile → VirtualAddress → Except Fault PhysicalAddress
  /-- The address through which the mapper itself reads and writes memory. -/
  reach : Profile → PhysicalAddress → Except Fault VirtualAddress

namespace Mapper

/-- The mapper of a direct map. -/
def direct (map : DirectMap) : Mapper where
  toVirtual profile := map.toVirtual profile
  toPhysical profile := map.toPhysical profile
  reach profile := map.toVirtual profile

/-- A mapper that exposes none of the given addresses. -/
def concealing (mapper : Mapper) (hidden : List PhysicalAddress) : Mapper :=
  { mapper with
    toVirtual := fun profile address =>
      if hidden.contains address then
        .ok Address.null
      else
        mapper.toVirtual profile address }

/-- Fill physical memory with copies of one byte. -/
def fill (mapper : Mapper) (profile : Profile) (memory : Memory)
    (address : PhysicalAddress) (length : Nat) (byte : UInt8) :
    Except Fault Memory := do
  let reached ← mapper.reach profile address
  return memory.fill reached.value length byte

/-- Overwrite physical memory with zeros. -/
def zeroFill (mapper : Mapper) (profile : Profile) (memory : Memory)
    (address : PhysicalAddress) (length : Nat) : Except Fault Memory :=
  mapper.fill profile memory address length 0

/-- The bytes of physical memory. -/
def readRange (mapper : Mapper) (profile : Profile) (memory : Memory)
    (address : PhysicalAddress) (length : Nat) : Except Fault (Array UInt8) := do
  let reached ← mapper.reach profile address
  return memory.readRange reached.value length

end Mapper

end BootMemory
