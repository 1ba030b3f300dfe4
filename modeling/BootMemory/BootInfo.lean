import BootMemory.Region

/-!
# Boot information

What the boot loader hands to the kernel: the offset of the direct map, and
where the memory map lies and how many regions of it are valid.
-/

namespace BootMemory

/-- The hand-over record of the boot loader. -/
structure BootInfo where
  /-- The distance between a physical address and its direct mapping. -/
  directMapOffset : UInt64
  /-- Where the memory map starts; null if there is none. -/
  mapAddress : UInt64
  /-- How many regions of the map are valid. -/
  mapLength : Nat

namespace BootInfo

/-- How many regions of a map stored at `mapAddress` are seen. -/
def visibleCount (info : BootInfo) : Nat :=
  if info.mapAddress == 0 then 0 else info.mapLength

/-- The regions that are seen of those stored. -/
def visible (info : BootInfo) (stored : List Region) : List Region :=
  stored.take info.visibleCount

/-- The regions stored after those that are seen. -/
def hidden (info : BootInfo) (stored : List Region) : List Region :=
  stored.drop info.visibleCount

theorem visible_append_hidden (info : BootInfo) (stored : List Region) :
    info.visible stored ++ info.hidden stored = stored :=
  List.take_append_drop _ _

end BootInfo

end BootMemory
