/-!
# Sizes

Physical memory is handed out in frames of 4096 bytes.  This module fixes that
page size, says how far words, frames and physical memory go, counts the frames
that a number of bytes needs, and converts byte counts to the larger units in
which totals are reported.
-/

namespace BootMemory

/-- The number of 64-bit words; the numbers below are words, and no others. -/
abbrev wordCount : Nat := 0x1_0000_0000_0000_0000

/-- A page size, given by the number of address bits inside a page. -/
structure PageSize where
  shift : Nat
  name : String

namespace PageSize

/-- The bytes of one page. -/
def bytes (size : PageSize) : Nat := 1 <<< size.shift

/-- The page size of the frame allocator. -/
def fourKiB : PageSize := ⟨12, "4K"⟩

end PageSize

/-- The bytes of one frame. -/
abbrev frameSize : Nat := 4096

theorem frameSize_eq : frameSize = PageSize.fourKiB.bytes := rfl

/-- The frames of the whole address space; they are numbered below. -/
abbrev frameCount : Nat := 0x10_0000_0000_0000

theorem frameCount_mul_frameSize : frameCount * frameSize = wordCount := rfl

/-- Where physical memory ends at the latest: its addresses have 52 bits. -/
abbrev physicalLimit : Nat := 0x10_0000_0000_0000

theorem lt_wordCount_of_le {bytes : Nat} (low : bytes ≤ physicalLimit) :
    bytes < wordCount :=
  Nat.lt_of_le_of_lt low (by decide)

/-- The frames that hold a number of bytes, the last one possibly in part. -/
def framesFor (bytes : Nat) : Nat := (bytes + (frameSize - 1)) / frameSize

/-- Whole kibibytes. -/
def toKib (bytes : Nat) : Nat := bytes / 1024

/-- Whole mebibytes. -/
def toMib (bytes : Nat) : Nat := toKib bytes / 1024

theorem toMib_eq (bytes : Nat) : toMib bytes = bytes / 1048576 := by
  simp [toMib, toKib, Nat.div_div_eq_div_mul]

theorem framesFor_mul (count : Nat) : framesFor (count * frameSize) = count := by
  simp only [framesFor, frameSize] at *
  omega

/-- Whole frames are counted apart from what they are added to. -/
theorem framesFor_add_mul (bytes count : Nat) :
    framesFor (bytes + count * frameSize) = framesFor bytes + count := by
  simp only [framesFor, frameSize]
  omega

theorem framesFor_pos {bytes : Nat} (some : 0 < bytes) : 0 < framesFor bytes := by
  simp only [framesFor, frameSize] at *
  omega

theorem le_framesFor_mul (bytes : Nat) : bytes ≤ framesFor bytes * frameSize := by
  simp only [framesFor, frameSize] at *
  omega

end BootMemory
