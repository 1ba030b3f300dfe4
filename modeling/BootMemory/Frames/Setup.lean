import BootMemory.Alignment
import BootMemory.BootInfo
import BootMemory.Frames.Allocator
import BootMemory.Frames.Census

/-!
# Setting up the frame allocator

The allocator is set up once from the boot memory map.

* A census of the map is taken; without usable memory there is no allocator.
* Usable regions are moved off frame zero.
* The bitmap is placed at the front of the first usable region that can hold
  it, and the region is shortened by it.  The map then describes what is free.
* All bits are set, and those of the frames that lie in usable regions
  entirely are cleared.  Frame zero stays set.

The map is adjusted in place, also if the allocator cannot be set up.
-/

namespace BootMemory

/-- The machine while the allocator is set up. -/
structure Boot where
  map : List Region
  memory : Memory
  log : Log

/-- A memory map around the region that is to hold the bitmap. -/
structure Host where
  before : List Region
  region : Region
  after : List Region

namespace Host

/-- Whether a region can hold a number of bytes of bookkeeping. -/
def canHold (bytes : Nat) (region : Region) : Bool :=
  region.isUsable && decide (bytes ≤ region.length.toNat)

/-- The first region of a map that can hold a number of bytes. -/
def find (bytes : Nat) (map : List Region) : Option Host :=
  match map.dropWhile fun region => !canHold bytes region with
  | [] => none
  | region :: after =>
      some ⟨map.takeWhile fun region => !canHold bytes region, region, after⟩

/-- The map with the region replaced. -/
def mapWith (host : Host) (region : Region) : List Region :=
  host.before ++ region :: host.after

end Host

namespace Region

/-- Whether a usable region holds all of frame zero. -/
def holdsFrameZero (region : Region) : Bool :=
  region.isUsable && region.base == 0 && decide (frameSize ≤ region.length.toNat)

/-- A usable region without its part in frame zero. -/
def offFrameZero (profile : Profile) (region : Region) : Except Fault Region :=
  if region.isUsable && decide (region.base < 4096) then
    region.consumeFront profile (4096 - region.base)
  else
    .ok region

end Region

/-- Move the usable regions of a map off frame zero. -/
def Region.allOffFrameZero (profile : Profile) (map : List Region) :
    Except Fault (List Region) :=
  map.mapM (offFrameZero profile)

/-- Clear the bits of all frames that lie in usable regions entirely. -/
def Bitmap.clearUsable (profile : Profile) : List Region → Action Bitmap Unit
  | [] => pure ()
  | region :: map => do
      if region.isUsable then
        let span ← region.wholeFrames profile
        clearRange profile (span.first / frameSize) (span.stop / frameSize)
      clearUsable profile map

/--
The bytes of a bitmap for every frame below the end of memory, in whole frames
and at least one.
-/
def bitmapBytesFor (profile : Profile) (highestRam : Nat) : Except Fault Nat := do
  let bytes ←
    alignUp profile
      (UInt64.ofNat (Bitmap.bytesFor (highestRam / frameSize))) 4096
  return if bytes = 0 then frameSize else bytes.toNat

namespace Boot

/-- Report an event. -/
def record (event : Event) : Action Boot Unit :=
  modify fun boot => { boot with log := boot.log ++ [event] }

/-- Perform an action on memory. -/
def onMemory {Value : Type} (action : Action Memory Value) : Action Boot Value :=
  Action.focus Boot.memory (fun memory boot => { boot with memory }) action

/-- Perform an action of a running machine, with a given allocator. -/
def withAllocator {Value : Type} (allocator : Allocator)
    (action : Action Machine Value) : Action Boot Value :=
  Action.focus
    (fun boot => { allocator, memory := boot.memory, log := boot.log })
    (fun machine boot => { boot with memory := machine.memory, log := machine.log })
    action

/-- Move usable regions off frame zero; the outcome counts those that held it. -/
def reserveFrameZero (profile : Profile) : Action Boot Nat := do
  let boot ← get
  let map ← Region.allOffFrameZero profile boot.map
  let reserved := boot.map.countP Region.holdsFrameZero
  set { boot with map }
  if 0 < reserved then
    record .frameZeroReserved
  return reserved

/--
Put the bitmap at the front of a region and shorten the region by it, with all
bits set.
-/
def placeBitmap (profile : Profile) (mapper : Mapper) (bytes : Nat)
    (host : Host) : Action Boot (Except BitmapError Storage) := do
  let reached ← mapper.reach profile ⟨host.region.base⟩
  let bits ← profile.mul bytes 8
  match Storage.bind reached bytes bits with
  | .error refusal => return .error refusal
  | .ok storage =>
      modify fun boot => { boot with memory := storage.fill boot.memory true }
      let carved ← host.region.consumeFront profile (UInt64.ofNat bytes)
      modify fun boot => { boot with map := host.mapWith carved }
      return .ok storage

/-- Clear the bits of all frames that can be handed out. -/
def markFree (profile : Profile) (storage : Storage) : Action Boot Unit := do
  let boot ← get
  onMemory (storage.onBitmap (Bitmap.clearUsable profile boot.map))
  onMemory (storage.onBitmap (Bitmap.set profile 0))

/-- Set up the allocator from the memory map. -/
def setUp (profile : Profile) (mapper : Mapper) :
    Action Boot (Except AllocError Allocator) := do
  let boot ← get
  let census ← Census.take profile boot.map
  let some lowest := census.lowestUsable
    | do
      record .noUsableMemory
      return .error .noUsableMemory
  let reserved ← reserveFrameZero profile
  let occupied ← profile.add census.occupiedPages reserved
  let bytes ← bitmapBytesFor profile census.highestRam
  let boot ← get
  let some host := Host.find bytes boot.map
    | do
      record (.noBitmapRegion bytes)
      return .error (.noBitmapRegion bytes)
  match ← placeBitmap profile mapper bytes host with
  | .error refusal => return .error (.bitmap refusal)
  | .ok storage =>
      let address : PhysicalAddress := ⟨host.region.base⟩
      let usedPages ← profile.add occupied (bytes / frameSize)
      let accessible ← mapper.toVirtual profile address
      record (.bitmapPlaced address accessible bytes storage.bits)
      markFree profile storage
      let allocator : Allocator :=
        { mapper
          storage
          highestPhysical := ⟨UInt64.ofNat census.highestPhysical⟩
          highestUsable := ⟨UInt64.ofNat census.highestUsable⟩
          lowestUsable := ⟨UInt64.ofNat (max lowest frameSize)⟩
          totalPages := census.presentPages
          usablePages := census.presentPages
          usedPages
          frameLimit := census.highestRam / frameSize
          cursor := 0 }
      withAllocator allocator (Machine.info profile)
      return .ok allocator

/--
Set up the allocator from the boot loader's hand-over record, through the
direct map that it reports.  Regions that the record does not count are not
seen and stay as they are.
-/
def setUpFrom (profile : Profile) (info : BootInfo) :
    Action Boot (Except AllocError Allocator) :=
  Action.focus
    (fun boot => { boot with map := info.visible boot.map })
    (fun part boot => { part with map := part.map ++ info.hidden boot.map })
    (setUp profile (.direct ⟨info.directMapOffset⟩))

/-- The running machine after the allocator was set up. -/
def start (boot : Boot) (allocator : Allocator) : Machine where
  allocator := allocator
  memory := boot.memory
  log := boot.log

end Boot

end BootMemory
