import BootMemory.Profile

/-!
# Alignment

Rounding a word to a multiple of an alignment.  The alignment has to be a power
of two: then clearing the bits below it rounds down, and rounding up is
rounding down after adding one less than the alignment.

The power-of-two assertion comes before any arithmetic, so the debug profile
reports a bad alignment even where the sum would overflow as well.
-/

namespace BootMemory

/-- Whether exactly one bit of the word is set. -/
def isPowerOfTwo (word : UInt64) : Bool :=
  word != 0 && word &&& (word - 1) == 0

/-- Clear the bits that lie below a power of two. -/
def maskDown (word alignment : UInt64) : UInt64 :=
  word &&& ~~~(alignment - 1)

/-- The greatest multiple of the alignment up to the word. -/
def alignDown (profile : Profile) (word alignment : UInt64) :
    Except Fault UInt64 := do
  profile.assert (isPowerOfTwo alignment) .notPowerOfTwo
  return maskDown word alignment

/-- The least multiple of the alignment from the word on. -/
def alignUp (profile : Profile) (word alignment : UInt64) :
    Except Fault UInt64 := do
  profile.assert (isPowerOfTwo alignment) .notPowerOfTwo
  let raised ← profile.addWord word (alignment - 1)
  alignDown profile raised alignment

end BootMemory
