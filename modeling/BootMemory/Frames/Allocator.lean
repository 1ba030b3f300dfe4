import BootMemory.Event
import BootMemory.Frames.Storage
import BootMemory.Frames.Table
import BootMemory.Mapper
import BootMemory.Stats

/-!
# The frame allocator

The allocator hands out physically contiguous frames, filled with zeros, and
takes them back.  Sizes are in bytes and are rounded up to whole frames.

Its state is a `Machine`: the allocator's books, the memory it manages, and the
log.  The bitmap is part of memory, so the account of frames, a `FrameTable`,
is put together from the books and the bitmap that memory holds.

A request that cannot be served yields an `AllocError` and leaves books and
memory as they were.
-/

namespace BootMemory

/-- What the allocator can refuse. -/
inductive AllocError where
  /-- The memory map has no usable memory. -/
  | noUsableMemory
  /-- No usable region can hold the bitmap. -/
  | noBitmapRegion (required : Nat)
  /-- There is no run of free frames that is long enough. -/
  | outOfMemory (pages : Nat)
  /-- There is no accessible address for the memory. -/
  | notAccessible (address : PhysicalAddress)
  /-- The bitmap does not fit its storage. -/
  | bitmap (refusal : BitmapError)
  deriving DecidableEq

/-- The line reported for a refusal. -/
def AllocError.message : AllocError → String
  | noUsableMemory => "the memory map contains no usable memory"
  | noBitmapRegion required =>
      s!"no usable region can hold the {required} byte frame bitmap"
  | outOfMemory pages =>
      s!"out of physical memory: no run of {pages} free frames"
  | notAccessible address =>
      let place := address.display
      s!"physical address {place} has no accessible address"
  | bitmap refusal => refusal.message

/-- The books of the frame allocator. -/
structure Allocator where
  /-- How physical memory is reached. -/
  mapper : Mapper
  /-- Where memory holds the bitmap. -/
  storage : Storage
  highestPhysical : PhysicalAddress
  highestUsable : PhysicalAddress
  lowestUsable : PhysicalAddress
  totalPages : Nat
  usablePages : Nat
  usedPages : Nat
  /-- One past the highest frame that is backed by memory. -/
  frameLimit : Nat
  /-- Where the next search starts. -/
  cursor : Nat

/-- A copy of the books. -/
def Allocator.stats (allocator : Allocator) : Stats where
  highestPhysical := allocator.highestPhysical
  highestUsable := allocator.highestUsable
  lowestUsable := allocator.lowestUsable
  totalPages := allocator.totalPages
  usablePages := allocator.usablePages
  usedPages := allocator.usedPages

/-- An allocator at work. -/
structure Machine where
  allocator : Allocator
  memory : Memory
  log : Log

namespace Machine

/-- Report an event. -/
def record (event : Event) : Action Machine Unit :=
  modify fun machine => { machine with log := machine.log ++ [event] }

/-- The account of frames. -/
def table (machine : Machine) : FrameTable where
  bitmap := machine.allocator.storage.load machine.memory
  frameLimit := machine.allocator.frameLimit
  cursor := machine.allocator.cursor
  usedPages := machine.allocator.usedPages

/-- The machine with its account of frames replaced. -/
def withTable (table : FrameTable) (machine : Machine) : Machine :=
  { machine with
    allocator :=
      { machine.allocator with
        usedPages := table.usedPages
        cursor := table.cursor }
    memory := machine.allocator.storage.store table.bitmap machine.memory }

/-- Perform an action on the account of frames. -/
def onTable {Value : Type} (action : Action FrameTable Value) :
    Action Machine Value :=
  Action.focus table withTable action

/-- Fill physical memory with zeros. -/
def zeroFill (profile : Profile) (address : PhysicalAddress) (length : Nat) :
    Action Machine Unit := do
  let machine ← get
  let memory ←
    machine.allocator.mapper.zeroFill profile machine.memory address length
  set { machine with memory }

/-- Count further pages as used. -/
def addUsed (profile : Profile) (pages : Nat) : Action Machine Unit := do
  let machine ← get
  let usedPages ← profile.add machine.allocator.usedPages pages
  set { machine with allocator := { machine.allocator with usedPages } }

/--
Allocate memory of a size.  A size of zero yields the null address and touches
nothing; otherwise the address is that of a frame, and never null.
-/
def allocate (profile : Profile) (size : UInt64) :
    Action Machine (Except AllocError PhysicalAddress) := do
  if size = 0 then
    return .ok .null
  let count := framesFor size.toNat
  let search ← onTable (FrameTable.claimRun profile count)
  if search.wrapped then
    record (.searchWrapped count)
  match search.first with
  | none =>
      record (.outOfMemory count size.toNat)
      return .error (.outOfMemory count)
  | some first =>
      let address := Address.ofFrame first
      let length ← profile.mul count frameSize
      zeroFill profile address length
      addUsed profile count
      record (.allocated count address)
      return .ok address

/--
Give back memory of a size.  The null address and a size of zero are ignored;
giving back frames that are not allocated is an error of the caller.
-/
def free (profile : Profile) (address : PhysicalAddress) (size : UInt64) :
    Action Machine Unit := do
  if address.isNull || size == 0 then
    return
  let count := framesFor size.toNat
  onTable (FrameTable.release profile address.frame count)
  record (.freed count address)

/-- A copy of the books. -/
def stats (machine : Machine) : Stats := machine.allocator.stats

/-- Report a summary of physical memory. -/
def info (profile : Profile) : Action Machine Unit := do
  let machine ← get
  let line ← machine.stats.display profile
  record (.summary line)

/--
Whether the frame that contains an address is unavailable.  Frames beyond the
bitmap count as used.
-/
def isPageUsed (machine : Machine) (address : PhysicalAddress) : Bool :=
  match machine.table.bitmap.tryGet address.frame with
  | .ok used => used
  | .error _ => true

/-- The address through which others access physical memory. -/
def toAccessible (profile : Profile) (machine : Machine)
    (address : PhysicalAddress) : Except Fault VirtualAddress :=
  machine.allocator.mapper.toVirtual profile address

/-- The physical address behind an accessible one. -/
def fromAccessible (profile : Profile) (machine : Machine)
    (address : VirtualAddress) : Except Fault PhysicalAddress :=
  machine.allocator.mapper.toPhysical profile address

/-- The accessible address of an allocation; null memory has none. -/
def expose (profile : Profile) (address : PhysicalAddress) :
    Action Machine VirtualAddress := do
  if address.isNull then
    return Address.null
  let machine ← get
  machine.toAccessible profile address

/--
Allocate memory of a size and yield an accessible address of it.  If there is
none, the memory is given back.
-/
def allocateAccessible (profile : Profile) (size : UInt64) :
    Action Machine (Except AllocError VirtualAddress) := do
  match ← allocate profile size with
  | .error refusal => return .error refusal
  | .ok address =>
      let accessible ← expose profile address
      if accessible.isNull then
        free profile address size
        return .error (.notAccessible address)
      else
        return .ok accessible

/-- Give back memory by its accessible address. -/
def freeAccessible (profile : Profile) (accessible : VirtualAddress)
    (size : UInt64) : Action Machine Unit := do
  let machine ← get
  let address ← machine.fromAccessible profile accessible
  free profile address size

end Machine

end BootMemory
