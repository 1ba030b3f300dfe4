import BootMemory.Alignment
import Mathlib.Data.Nat.Bitwise

/-!
# Alignment in exact numbers

Clearing the bits of a word below a power of two rounds it down to a multiple
of that power, so aligning a word is a matter of division.
-/

namespace BootMemory

theorem toNat_alignment {exponent : Nat} (small : exponent < 64) :
    (UInt64.ofNat (2 ^ exponent)).toNat = 2 ^ exponent := by
  rw [UInt64.toNat_ofNat']
  exact Nat.mod_eq_of_lt (Nat.pow_lt_pow_right (by decide) small)

theorem toNat_alignment_sub_one {exponent : Nat} (small : exponent < 64) :
    (UInt64.ofNat (2 ^ exponent) - 1).toNat = 2 ^ exponent - 1 := by
  have value := toNat_alignment small
  have positive := Nat.two_pow_pos exponent
  rw [UInt64.toNat_sub_of_le]
  · rw [value]
    rfl
  · rw [UInt64.le_iff_toNat_le, value]
    exact positive

/-- Clearing the bits below a power of two rounds down to a multiple of it. -/
theorem toNat_maskDown
    (word : UInt64) {exponent : Nat} (small : exponent < 64) :
    (maskDown word (UInt64.ofNat (2 ^ exponent))).toNat =
      word.toNat / 2 ^ exponent * 2 ^ exponent := by
  have bound := word.toNat_lt
  have power : 2 ^ exponent < 2 ^ 64 :=
    Nat.pow_lt_pow_right (by decide) small
  have positive := Nat.two_pow_pos exponent
  have complement :
      (~~~(UInt64.ofNat (2 ^ exponent) - 1)).toNat =
        2 ^ 64 - (2 ^ exponent - 1 + 1) := by
    rw [UInt64.toNat_not, toNat_alignment_sub_one small]
    simp only [UInt64.size]
    omega
  apply Nat.eq_of_testBit_eq
  intro index
  rw [maskDown, UInt64.toNat_and, complement, Nat.testBit_and,
    Nat.testBit_two_pow_sub_succ (by omega), Nat.testBit_two_pow_sub_one,
    Nat.testBit_mul_two_pow, Nat.testBit_div_two_pow]
  by_cases inside : index < 64
  · by_cases low : index < exponent
    · simp [low, Nat.not_le.mpr low]
    · simp [low, Nat.le_of_not_lt low, inside]
  · have high : word.toNat.testBit index = false :=
      Nat.testBit_lt_two_pow
        (Nat.lt_of_lt_of_le bound
          (Nat.pow_le_pow_right (by decide) (Nat.le_of_not_lt inside)))
    by_cases low : exponent ≤ index
    · simp [high, low]
    · simp [high, low]

theorem isPowerOfTwo_two_pow {exponent : Nat} (small : exponent < 64) :
    isPowerOfTwo (UInt64.ofNat (2 ^ exponent)) = true := by
  have value := toNat_alignment small
  have positive := Nat.two_pow_pos exponent
  have nonzero : UInt64.ofNat (2 ^ exponent) ≠ 0 := by
    intro zero
    rw [zero] at value
    simp only [UInt64.toNat_zero] at value
    omega
  have disjoint :
      UInt64.ofNat (2 ^ exponent) &&& (UInt64.ofNat (2 ^ exponent) - 1) =
        0 := by
    apply UInt64.toNat_inj.mp
    rw [UInt64.toNat_and, value, toNat_alignment_sub_one small,
      Nat.and_two_pow_sub_one_eq_mod, Nat.mod_self]
    rfl
  simp [isPowerOfTwo, nonzero, disjoint]

/-- Rounding up where the sum stays inside the word. -/
theorem alignUp_two_pow
    (profile : Profile) (word : UInt64) {exponent : Nat}
    (small : exponent < 64)
    (room : word.toNat + (2 ^ exponent - 1) < wordCount) :
    alignUp profile word (UInt64.ofNat (2 ^ exponent)) =
      .ok
        (UInt64.ofNat
          ((word.toNat + (2 ^ exponent - 1)) / 2 ^ exponent *
            2 ^ exponent)) := by
  have power := isPowerOfTwo_two_pow small
  have raised :
      profile.addWord word (UInt64.ofNat (2 ^ exponent) - 1) =
        .ok (UInt64.ofNat (word.toNat + (2 ^ exponent - 1))) := by
    have sum :
        profile.add word.toNat (2 ^ exponent - 1) =
          .ok (word.toNat + (2 ^ exponent - 1)) :=
      profile.add_of_lt room
    rw [Profile.addWord, toNat_alignment_sub_one small, sum]
    rfl
  have masked :
      maskDown (UInt64.ofNat (word.toNat + (2 ^ exponent - 1)))
          (UInt64.ofNat (2 ^ exponent)) =
        UInt64.ofNat
          ((word.toNat + (2 ^ exponent - 1)) / 2 ^ exponent *
            2 ^ exponent) := by
    have bound :
        (word.toNat + (2 ^ exponent - 1)) / 2 ^ exponent * 2 ^ exponent <
          wordCount :=
      Nat.lt_of_le_of_lt (Nat.div_mul_le_self _ _) room
    apply UInt64.toNat_inj.mp
    rw [toNat_maskDown _ small, UInt64.toNat_ofNat', UInt64.toNat_ofNat',
      Nat.mod_eq_of_lt room, Nat.mod_eq_of_lt bound]
  simp only [alignUp, alignDown, power, Profile.assert_true, raised, masked,
    bind, Except.bind, pure, Except.pure]

end BootMemory
