import BootMemory.Bitmap.Basic

/-!
# Rebinding a bitmap

A bitmap borrows its buffer.  It can be bound to another buffer later on, which
copies nothing: the former buffer keeps its bytes as they are at that moment,
and later operations see the new buffer alone.  A buffer that is too small is
refused, and the bitmap stays as it is.

A binding keeps all buffers that were offered, in the order in which they were,
around the one that is in use.
-/

namespace BootMemory.Bitmap

/-- A bitmap among the buffers that were offered to it. -/
structure Binding where
  /-- The buffers offered before the one in use. -/
  earlier : List (Array UInt8)
  /-- The bitmap over the buffer in use. -/
  current : Bitmap
  /-- The buffers refused since. -/
  refused : List (Array UInt8)

namespace Binding

/-- Bind a first buffer. -/
def start (bytes : Array UInt8) (bits : Nat) : Except BitmapError Binding :=
  (ofBytes bytes bits).map fun bitmap => ⟨[], bitmap, []⟩

/-- The bytes of all buffers, in the order in which they were offered. -/
def buffers (binding : Binding) : List (Array UInt8) :=
  binding.earlier ++ binding.current.bytes :: binding.refused

/-- Offer another buffer; the outcome tells whether it is in use now. -/
def rebind (binding : Binding) (bytes : Array UInt8) (bits : Nat) :
    Except BitmapError Unit × Binding :=
  match ofBytes bytes bits with
  | .ok bitmap => (.ok (), ⟨binding.buffers, bitmap, []⟩)
  | .error refusal =>
      (.error refusal, { binding with refused := binding.refused ++ [bytes] })

/-- Replace the bitmap in use. -/
def withCurrent (bitmap : Bitmap) (binding : Binding) : Binding :=
  { binding with current := bitmap }

/-- Offering a buffer leaves the bytes of all former ones as they were. -/
theorem buffers_rebind (binding : Binding) (bytes : Array UInt8) (bits : Nat) :
    (binding.rebind bytes bits).2.buffers = binding.buffers ++ [bytes] := by
  unfold rebind ofBytes
  split
  · rename_i bitmap accepted
    split at accepted
    · cases accepted
      simp [buffers]
    · cases accepted
  · simp [buffers]

end Binding

end BootMemory.Bitmap
