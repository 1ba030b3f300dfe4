import BootMemory.Address

/-!
# Events

What the frame allocator reports while it works.  A log is the list of its
events, the oldest first; it keeps growing even if a fault stops the operation
that is under way.
-/

namespace BootMemory

/-- How much attention an event asks for. -/
inductive Level where
  | error
  | info
  | debug
  | trace
  deriving DecidableEq

/-- The name of a level in a log. -/
def Level.name : Level → String
  | error => "ERROR"
  | info => "INFO"
  | debug => "DEBUG"
  | trace => "TRACE"

/-- Something that the frame allocator reports. -/
inductive Event where
  /-- The memory map has no usable memory. -/
  | noUsableMemory
  /-- No usable region can hold the bitmap. -/
  | noBitmapRegion (required : Nat)
  /-- Frame zero was taken out of the memory map. -/
  | frameZeroReserved
  /-- The bitmap has found its place. -/
  | bitmapPlaced (address : PhysicalAddress) (accessible : VirtualAddress)
      (bytes bits : Nat)
  /-- A summary of physical memory. -/
  | summary (line : String)
  /-- There is no run of free frames for a request. -/
  | outOfMemory (pages size : Nat)
  /-- Frames were handed out. -/
  | allocated (pages : Nat) (address : PhysicalAddress)
  /-- Frames were given back. -/
  | freed (pages : Nat) (address : PhysicalAddress)
  /-- The search went back to the first frame. -/
  | searchWrapped (pages : Nat)
  deriving DecidableEq

namespace Event

/-- The level at which an event is reported. -/
def level : Event → Level
  | noUsableMemory | noBitmapRegion _ | outOfMemory _ _ => .error
  | summary _ => .info
  | bitmapPlaced _ _ _ _ => .debug
  | frameZeroReserved | allocated _ _ | freed _ _ | searchWrapped _ => .trace

/-- The line reported for an event. -/
def message : Event → String
  | noUsableMemory => "Memory map contains no usable memory"
  | noBitmapRegion required =>
      s!"No usable region can hold the {required} byte frame bitmap"
  | frameZeroReserved => "Reserved frame 0"
  | bitmapPlaced address accessible bytes bits =>
      let place := address.display
      let reached := accessible.display
      s!"Frame bitmap at {place} ({reached} accessible), " ++
        s!"{bytes} bytes for {bits} frames"
  | summary line => s!"Physical memory: {line}"
  | outOfMemory pages size =>
      s!"Out of physical memory: no run of {pages} free frames for {size} bytes"
  | allocated pages address =>
      let place := address.display
      s!"Allocated {pages} frame(s) at {place}"
  | freed pages address =>
      let place := address.display
      s!"Freed {pages} frame(s) at {place}"
  | searchWrapped pages =>
      s!"Frame search wrapped around looking for {pages} frame(s)"

end Event

/-- The events reported so far, the oldest first. -/
abbrev Log := List Event

end BootMemory
