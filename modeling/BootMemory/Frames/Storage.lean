import BootMemory.Address
import BootMemory.Bitmap.Basic
import BootMemory.Memory

/-!
# Bitmap storage

The bitmap of the frame allocator lives in the memory that the allocator
manages.  Its storage says where: the bytes of the bitmap are the bytes of
memory there, and nowhere else.  An action on the bitmap is thus an action on
memory, which loads the bitmap, works on it, and stores it back.
-/

namespace BootMemory

/-- The stretch of memory that holds a bitmap. -/
structure Storage where
  base : VirtualAddress
  length : Nat
  bits : Nat
  fits : bits ≤ 8 * length

namespace Storage

/-- Bind bits to a stretch of memory. -/
def bind (base : VirtualAddress) (length bits : Nat) :
    Except BitmapError Storage :=
  if enough : Bitmap.bytesFor bits ≤ length then
    .ok ⟨base, length, bits, Bitmap.bytesFor_le_iff.mp enough⟩
  else
    .error (.bufferTooSmall length bits)

/-- The bitmap that memory holds. -/
def load (storage : Storage) (memory : Memory) : Bitmap where
  bytes := memory.readRange storage.base.value storage.length
  bits := storage.bits
  fits := by simpa using storage.fits

/-- The memory with the bitmap replaced. -/
def store (storage : Storage) (bitmap : Bitmap) (memory : Memory) : Memory :=
  memory.write storage.base.value bitmap.bytes

/-- Perform an action on the bitmap that memory holds. -/
def onBitmap {Value : Type} (storage : Storage) (action : Action Bitmap Value) :
    Action Memory Value :=
  Action.focus storage.load storage.store action

/-- Mark every bit of the storage, also behind the last one of the bitmap. -/
def fill (storage : Storage) (memory : Memory) (value : Bool) : Memory :=
  storage.store ((storage.load memory).fill value) memory

@[simp]
theorem bits_load (storage : Storage) (memory : Memory) :
    (storage.load memory).bits = storage.bits := rfl

@[simp]
theorem size_bytes_load (storage : Storage) (memory : Memory) :
    (storage.load memory).bytes.size = storage.length := by
  simp [load]

end Storage

end BootMemory
