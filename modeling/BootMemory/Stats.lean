import BootMemory.Address

/-!
# Statistics

A copy of the frame allocator's books at one moment.  Page counts are in
frames; `display` is the one-line summary in mebibytes.

Mebibytes are computed from the number of bytes, which the debug profile
demands to be a 64-bit word.
-/

namespace BootMemory

/-- The books of a frame allocator at one moment. -/
structure Stats where
  /-- The end of the highest region, of any kind. -/
  highestPhysical : PhysicalAddress
  /-- The end of the highest usable region. -/
  highestUsable : PhysicalAddress
  /-- The lowest base of a usable region, but never below the first page. -/
  lowestUsable : PhysicalAddress
  totalPages : Nat
  usablePages : Nat
  usedPages : Nat
  deriving DecidableEq

namespace Stats

/-- The books of no memory at all. -/
def empty : Stats := ⟨.null, .null, .null, 0, 0, 0⟩

/-- The pages that can be allocated now. -/
def freePages (stats : Stats) : Nat := stats.usablePages - stats.usedPages

/-- Whole mebibytes of a number of pages. -/
def pagesToMib (profile : Profile) (pages : Nat) : Except Fault Nat :=
  (profile.mul pages frameSize).map toMib

def totalMib (profile : Profile) (stats : Stats) : Except Fault Nat :=
  pagesToMib profile stats.totalPages

def usableMib (profile : Profile) (stats : Stats) : Except Fault Nat :=
  pagesToMib profile stats.usablePages

def usedMib (profile : Profile) (stats : Stats) : Except Fault Nat :=
  pagesToMib profile stats.usedPages

def freeMib (profile : Profile) (stats : Stats) : Except Fault Nat :=
  pagesToMib profile stats.freePages

/-- The summary line. -/
def display (profile : Profile) (stats : Stats) : Except Fault String := do
  let total ← stats.totalMib profile
  let usable ← stats.usableMib profile
  let used ← stats.usedMib profile
  let free ← stats.freeMib profile
  let highest := stats.highestPhysical.display
  let lowest := stats.lowestUsable.display
  let top := stats.highestUsable.display
  return s!"total {total} MiB, usable {usable} MiB, used {used} MiB, " ++
    s!"free {free} MiB; highest phys {highest}, usable {lowest}..{top}"

end Stats

end BootMemory
