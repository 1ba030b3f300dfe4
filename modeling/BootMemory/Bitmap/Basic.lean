import BootMemory.Action
import BootMemory.Profile

/-!
# Bitmaps

A bitmap is a row of bits over a buffer of bytes.  Bit `i` is bit `i % 8` of
byte `i / 8`, the least significant bit first.  There may be fewer bits than
the buffer could hold; the rest of the buffer is left alone by everything but
`fill`.

`Bitmap.bit` is the view through which every operation is described: it is the
stored bit inside the bitmap and `false` outside.  `Bitmap.put` writes inside
the bitmap and does nothing outside.  The operations on top of them differ in
what an index outside means: the `try` forms return an error, the others
assert that there is none.
-/

namespace BootMemory

/-- What a bitmap operation can refuse. -/
inductive BitmapError where
  /-- There is no bit with this index. -/
  | outOfRange (index length : Nat)
  /-- The buffer has too few bytes for the bits. -/
  | bufferTooSmall (bytes bits : Nat)
  deriving Repr, DecidableEq

/-- The line reported for a refusal. -/
def BitmapError.message : BitmapError → String
  | outOfRange index length =>
      s!"bit index {index} is out of range for a bitmap of {length} bits"
  | bufferTooSmall bytes bits =>
      s!"a buffer of {bytes} bytes cannot hold {bits} bits"

/-- A row of bits over a buffer that is long enough for them. -/
structure Bitmap where
  bytes : Array UInt8
  bits : Nat
  fits : bits ≤ 8 * bytes.size

namespace Bitmap

/-- The bytes that hold a number of bits. -/
def bytesFor (bits : Nat) : Nat := (bits + 7) / 8

/-- The byte with only the bit set that an index has in its byte. -/
def mask (index : Nat) : UInt8 := 1 <<< UInt8.ofNat (index % 8)

/-- Bind bits to a buffer, without copying it. -/
def ofBytes (bytes : Array UInt8) (bits : Nat) : Except BitmapError Bitmap :=
  if enough : bytesFor bits ≤ bytes.size then
    .ok ⟨bytes, bits, by unfold bytesFor at enough; omega⟩
  else
    .error (.bufferTooSmall bytes.size bits)

/-- The bit with an index; `false` outside the bitmap. -/
def bit (bitmap : Bitmap) (index : Nat) : Bool :=
  decide (index < bitmap.bits) &&
    bitmap.bytes.getD (index / 8) 0 &&& mask index != 0

/-- Write the bit with an index; outside the bitmap nothing is written. -/
def put (bitmap : Bitmap) (index : Nat) (value : Bool) : Bitmap :=
  if index < bitmap.bits then
    { bitmap with
      bytes := bitmap.bytes.modify (index / 8) fun byte =>
        if value then byte ||| mask index else byte &&& ~~~mask index
      fits := by simpa using bitmap.fits }
  else
    bitmap

/-- Overwrite the whole buffer, also behind the last bit, with one value. -/
def fill (bitmap : Bitmap) (value : Bool) : Bitmap :=
  { bitmap with
    bytes := Array.replicate bitmap.bytes.size (if value then 255 else 0)
    fits := by simpa using bitmap.fits }

/-- Read a bit, refusing an index outside. -/
def tryGet (bitmap : Bitmap) (index : Nat) : Except BitmapError Bool :=
  if index < bitmap.bits then
    .ok (bitmap.bit index)
  else
    .error (.outOfRange index bitmap.bits)

/-- Write a bit, refusing an index outside. -/
def tryPut (bitmap : Bitmap) (index : Nat) (value : Bool) :
    Except BitmapError Bitmap :=
  if index < bitmap.bits then
    .ok (bitmap.put index value)
  else
    .error (.outOfRange index bitmap.bits)

/-- Set a bit, refusing an index outside. -/
def trySet (bitmap : Bitmap) (index : Nat) : Except BitmapError Bitmap :=
  bitmap.tryPut index true

/-- Clear a bit, refusing an index outside. -/
def tryClear (bitmap : Bitmap) (index : Nat) : Except BitmapError Bitmap :=
  bitmap.tryPut index false

/-- Demand that an index is inside. -/
def assertInside (profile : Profile) (bitmap : Bitmap) (index : Nat) :
    Except Fault Unit :=
  profile.assert (index < bitmap.bits) (.bitmapIndex index)

/-- Read a bit that is asserted to exist. -/
def get (profile : Profile) (bitmap : Bitmap) (index : Nat) :
    Except Fault Bool := do
  bitmap.assertInside profile index
  return bitmap.bit index

/-- Read a bit of the bitmap that an action works on. -/
def read (profile : Profile) (index : Nat) : Action Bitmap Bool := fun bitmap =>
  match bitmap.get profile index with
  | .ok value => .ok value bitmap
  | .error fault => .error fault bitmap

/-- Write a bit that is asserted to exist. -/
def write (profile : Profile) (value : Bool) (index : Nat) :
    Action Bitmap Unit := fun bitmap =>
  match bitmap.assertInside profile index with
  | .ok () => .ok () (bitmap.put index value)
  | .error fault => .error fault bitmap

/-- Set a bit that is asserted to exist. -/
def set (profile : Profile) (index : Nat) : Action Bitmap Unit :=
  write profile true index

/-- Clear a bit that is asserted to exist. -/
def clear (profile : Profile) (index : Nat) : Action Bitmap Unit :=
  write profile false index

/-- The bitmap in diagnostic output: the lengths of its buffer and of itself. -/
def describe (bitmap : Bitmap) : String :=
  s!"Bitmap \x7b bytes: {bitmap.bytes.size}, bits: {bitmap.bits} \x7d"

theorem bytesFor_le_iff {bits bytes : Nat} :
    bytesFor bits ≤ bytes ↔ bits ≤ 8 * bytes := by
  unfold bytesFor
  omega

@[simp]
theorem bits_put (bitmap : Bitmap) (index : Nat) (value : Bool) :
    (bitmap.put index value).bits = bitmap.bits := by
  unfold put
  split <;> rfl

@[simp]
theorem size_bytes_put (bitmap : Bitmap) (index : Nat) (value : Bool) :
    (bitmap.put index value).bytes.size = bitmap.bytes.size := by
  unfold put
  split <;> simp

@[simp]
theorem bits_fill (bitmap : Bitmap) (value : Bool) :
    (bitmap.fill value).bits = bitmap.bits := rfl

@[simp]
theorem size_bytes_fill (bitmap : Bitmap) (value : Bool) :
    (bitmap.fill value).bytes.size = bitmap.bytes.size := by
  simp [fill]

theorem bit_of_le (bitmap : Bitmap) {index : Nat} (outside : bitmap.bits ≤ index) :
    bitmap.bit index = false := by
  simp [bit, Nat.not_lt.mpr outside]

theorem put_of_le (bitmap : Bitmap) {index : Nat} (value : Bool)
    (outside : bitmap.bits ≤ index) :
    bitmap.put index value = bitmap := by
  simp [put, Nat.not_lt.mpr outside]

end Bitmap

end BootMemory
