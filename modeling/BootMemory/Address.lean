import BootMemory.Alignment
import BootMemory.Hex
import BootMemory.Size

/-!
# Addresses

An address is a 64-bit word together with the space it belongs to, so that a
physical address is never taken for one that the processor can dereference.

The null physical address doubles as "no memory": frame zero is never handed
out.  The frame number of a physical address is also its bit index in the
bitmap of the frame allocator.
-/

namespace BootMemory

/-- What an address refers to. -/
inductive Space where
  /-- Either kind of memory. -/
  | memory
  /-- Physical memory, as the frame allocator hands it out. -/
  | physical
  /-- Memory as the processor dereferences it. -/
  | virtual
  deriving DecidableEq

/-- A 64-bit address of one space. -/
structure Address (space : Space) where
  value : UInt64
  deriving DecidableEq

/-- An address of either kind. -/
abbrev MemoryAddress := Address .memory

/-- An address of physical memory. -/
abbrev PhysicalAddress := Address .physical

/-- An address that can be dereferenced. -/
abbrev VirtualAddress := Address .virtual

namespace Address

variable {space : Space}

/-- The address zero. -/
def null : Address space := ⟨0⟩

/-- Whether this is the address zero. -/
def isNull (address : Address space) : Bool := address.value == 0

/-- The order of addresses is the order of their values. -/
def compare (left right : Address space) : Ordering :=
  Ord.compare left.value.toNat right.value.toNat

/-- The address a number of bytes further on. -/
def add (profile : Profile) (address : Address space) (bytes : UInt64) :
    Except Fault (Address space) :=
  (profile.addWord address.value bytes).map Address.mk

/-- The distance from the start of the page that contains the address. -/
def offset (address : Address space) : UInt64 :=
  address.value &&& 4095

/-- The start of the page that contains the address. -/
def alignDown (address : Address space) : Address space :=
  ⟨maskDown address.value 4096⟩

/-- Whether a page starts at the address. -/
def isAligned (address : Address space) : Bool := address.offset == 0

/-- The number of the frame that contains the address. -/
def frame (address : PhysicalAddress) : Nat :=
  address.value.toNat / frameSize

/--
The start of a frame.  Frame numbers from `frameCount` on have no address, and
lose their high bits.
-/
def ofFrame (frame : Nat) : PhysicalAddress :=
  ⟨UInt64.ofNat (frame * frameSize)⟩

/-- The address in plain output. -/
def display (address : Address space) : String := Hex.word address.value

/-- How diagnostic output marks each space. -/
def spaceMark : Space → String
  | .memory => "MemoryAddress"
  | .physical => "PA"
  | .virtual => "VA"

/-- The address in diagnostic output, marked with its space. -/
def describe (address : Address space) : String :=
  spaceMark space ++ "(" ++ address.display ++ ")"

theorem eq_of_toNat_eq {left right : Address space}
    (same : left.value.toNat = right.value.toNat) : left = right := by
  cases left
  cases right
  exact congrArg mk (UInt64.toNat_inj.mp same)

@[simp]
theorem isNull_iff (address : Address space) :
    address.isNull = true ↔ address = null := by
  cases address
  simp [isNull, null]

theorem frame_lt (address : PhysicalAddress) : address.frame < frameCount := by
  have bound := address.value.toNat_lt
  simp only [frame, frameSize, frameCount]
  omega

theorem frame_lt_wordCount (address : PhysicalAddress) :
    address.frame < wordCount :=
  Nat.lt_trans address.frame_lt (by decide)

theorem frame_ofFrame (index : Nat) :
    (ofFrame index).frame = index % frameCount := by
  simp only [frame, ofFrame, frameSize, UInt64.toNat_ofNat', frameCount]
  omega

/-- The frame of an address that was made from it. -/
theorem frame_ofFrame_of_lt {index : Nat} (small : index < frameCount) :
    (ofFrame index).frame = index := by
  rw [frame_ofFrame, Nat.mod_eq_of_lt small]

/-- Frames that have an address have that of their first byte. -/
theorem toNat_ofFrame {index : Nat} (small : index < frameCount) :
    (ofFrame index).value.toNat = index * frameSize := by
  simp only [ofFrame, UInt64.toNat_ofNat', frameSize, frameCount] at small ⊢
  omega

theorem ofFrame_ne_null
    {index : Nat} (small : index < frameCount) (nonzero : index ≠ 0) :
    ofFrame index ≠ null := by
  intro same
  have frames := congrArg frame same
  rw [frame_ofFrame_of_lt small] at frames
  exact nonzero frames

end Address

end BootMemory
