/-!
# Hexadecimal addresses

An address is written as `0x` followed by all sixteen upper-case hexadecimal
digits of its value.
-/

namespace BootMemory.Hex

/-- The upper-case digit of a value below sixteen. -/
def digit (value : Nat) : Char :=
  if value < 10 then Char.ofNat (48 + value) else Char.ofNat (55 + value)

/-- The last `count` digits of a value, the most significant one first. -/
def digits : (count : Nat) → (value : Nat) → List Char
  | 0, _ => []
  | count + 1, value => digits count (value / 16) ++ [digit (value % 16)]

/-- A word with its mark and all sixteen digits. -/
def word (value : UInt64) : String :=
  "0x" ++ String.ofList (digits 16 value.toNat)

@[simp]
theorem length_digits (count value : Nat) : (digits count value).length = count := by
  induction count generalizing value with
  | zero => rfl
  | succ count inductionHypothesis => simp [digits, inductionHypothesis]

end BootMemory.Hex
