import BootMemory.Proofs.Alignment
import Mathlib.Order.Bounds.Basic

/-!
# Aligning as rounding

An alignment is a power of two.  Rounding a word down to it yields the greatest
of its multiples up to the word, and rounding up the least one from the word on.
The latter need not be a word: past the last multiple that is one, the next is
`wordCount`.  There the debug profile stops, and release yields what is left of
the multiple modulo `wordCount`.

`multipleFrom` is the least multiple as an exact number.  A sum that overflows is
told from it by `multipleFrom_lt_iff`, and `alignUp_release` says that rounding
and wrapping around commute, because an alignment divides `wordCount`.
`Alignment.rounds_to_multiples` collects the laws.
-/

namespace BootMemory.Alignment

/-- The word is a power of two. -/
def IsPower (alignment : UInt64) : Prop :=
  ∃ exponent, alignment.toNat = 2 ^ exponent

/-- The multiples of an alignment up to a word. -/
def multiplesUpTo (word alignment : UInt64) : Set Nat :=
  {multiple | alignment.toNat ∣ multiple ∧ multiple ≤ word.toNat}

/-- The multiples of an alignment from a word on, also those that are no words. -/
def multiplesFrom (word alignment : UInt64) : Set Nat :=
  {multiple | alignment.toNat ∣ multiple ∧ word.toNat ≤ multiple}

/-- The least multiple from a word on is a word. -/
def Fits (word alignment : UInt64) : Prop :=
  ∃ up : UInt64, IsLeast (multiplesFrom word alignment) up.toNat

/-- The least multiple of an alignment from a word on. -/
def multipleFrom (word alignment : UInt64) : Nat :=
  (word.toNat + (alignment.toNat - 1)) / alignment.toNat * alignment.toNat

variable {alignment : UInt64}

/-! ## Powers of two -/

namespace IsPower

theorem exists_exponent (power : IsPower alignment) :
    ∃ exponent, exponent < 64 ∧ alignment = UInt64.ofNat (2 ^ exponent) := by
  rcases power with ⟨exponent, value⟩
  have bound := alignment.toNat_lt
  rw [value] at bound
  have small : exponent < 64 := (Nat.pow_lt_pow_iff_right (by decide)).mp bound
  refine ⟨exponent, small, ?_⟩
  apply UInt64.toNat_inj.mp
  rw [value, toNat_alignment small]

theorem pos (power : IsPower alignment) : 0 < alignment.toNat := by
  rcases power with ⟨exponent, value⟩
  rw [value]
  exact Nat.two_pow_pos exponent

/-- Wrapping around leads from one multiple of an alignment to another. -/
theorem dvd_size (power : IsPower alignment) : alignment.toNat ∣ wordCount := by
  rcases power.exists_exponent with ⟨exponent, small, rfl⟩
  rw [toNat_alignment small]
  exact Nat.pow_dvd_pow 2 (Nat.le_of_lt small)

theorem asserted (power : IsPower alignment) :
    isPowerOfTwo alignment = true := by
  rcases power.exists_exponent with ⟨exponent, small, rfl⟩
  exact isPowerOfTwo_two_pow small

theorem toNat_sub_one (power : IsPower alignment) :
    (alignment - 1).toNat = alignment.toNat - 1 := by
  rcases power.exists_exponent with ⟨exponent, small, rfl⟩
  rw [toNat_alignment_sub_one small, toNat_alignment small]

theorem toNat_maskDown (power : IsPower alignment) (word : UInt64) :
    (maskDown word alignment).toNat =
      word.toNat / alignment.toNat * alignment.toNat := by
  rcases power.exists_exponent with ⟨exponent, small, rfl⟩
  rw [BootMemory.toNat_maskDown word small, toNat_alignment small]

end IsPower

/-! ## Rounding down -/

theorem alignDown_eq
    (power : IsPower alignment) (profile : Profile) (word : UInt64) :
    alignDown profile word alignment = .ok (maskDown word alignment) := by
  rw [alignDown, power.asserted, Profile.assert_true]
  rfl

theorem isGreatest_maskDown (power : IsPower alignment) (word : UInt64) :
    IsGreatest (multiplesUpTo word alignment)
      (maskDown word alignment).toNat := by
  rw [power.toNat_maskDown]
  constructor
  · exact ⟨Nat.dvd_mul_left _ _, Nat.div_mul_le_self _ _⟩
  · rintro _ ⟨⟨factor, rfl⟩, below⟩
    rw [Nat.mul_comm] at below ⊢
    have fewer : factor ≤ word.toNat / alignment.toNat :=
      (Nat.le_div_iff_mul_le power.pos).mpr below
    exact Nat.mul_le_mul_right _ fewer

/-- A multiple of the alignment is rounded to itself. -/
theorem maskDown_of_dvd
    (power : IsPower alignment) {word : UInt64}
    (divides : alignment.toNat ∣ word.toNat) :
    maskDown word alignment = word := by
  apply UInt64.toNat_inj.mp
  rw [power.toNat_maskDown, Nat.div_mul_cancel divides]

/-! ## Rounding up -/

theorem isLeast_multipleFrom (power : IsPower alignment) (word : UInt64) :
    IsLeast (multiplesFrom word alignment) (multipleFrom word alignment) := by
  have positive := power.pos
  constructor
  · refine ⟨Nat.dvd_mul_left _ _, ?_⟩
    have above :
        word.toNat + (alignment.toNat - 1) <
          multipleFrom word alignment + alignment.toNat :=
      Nat.lt_div_mul_add positive
    omega
  · rintro _ ⟨⟨factor, rfl⟩, above⟩
    have fewer :
        (word.toNat + (alignment.toNat - 1)) / alignment.toNat ≤ factor :=
      (Nat.div_le_iff_le_mul_add_pred positive).mpr (by omega)
    rw [multipleFrom, Nat.mul_comm alignment.toNat]
    exact Nat.mul_le_mul_right _ fewer

/-- The least multiple is a word exactly if the sum behind it does not overflow. -/
theorem multipleFrom_lt_iff (power : IsPower alignment) (word : UInt64) :
    multipleFrom word alignment < wordCount ↔
      word.toNat + (alignment.toNat - 1) < wordCount := by
  rcases power.dvd_size with ⟨count, size⟩
  rw [size, Nat.mul_comm alignment.toNat, multipleFrom,
    Nat.mul_lt_mul_right power.pos, Nat.div_lt_iff_lt_mul power.pos]

theorem fits_iff (power : IsPower alignment) (word : UInt64) :
    Fits word alignment ↔ multipleFrom word alignment < wordCount := by
  have least := isLeast_multipleFrom power word
  constructor
  · rintro ⟨up, leastWord⟩
    rw [least.unique leastWord]
    exact up.toNat_lt
  · intro small
    refine ⟨UInt64.ofNat (multipleFrom word alignment), ?_⟩
    rw [UInt64.toNat_ofNat', Nat.mod_eq_of_lt small]
    exact least

theorem alignUp_of_lt
    (power : IsPower alignment) (profile : Profile) {word : UInt64}
    (small : multipleFrom word alignment < wordCount) :
    alignUp profile word alignment =
      .ok (UInt64.ofNat (multipleFrom word alignment)) := by
  rw [multipleFrom_lt_iff power] at small
  unfold multipleFrom
  rcases power.exists_exponent with ⟨exponent, bound, rfl⟩
  rw [toNat_alignment bound] at small ⊢
  exact alignUp_two_pow profile word bound small

theorem alignUp_debug_of_le
    (power : IsPower alignment) {word : UInt64}
    (beyond : wordCount ≤ multipleFrom word alignment) :
    alignUp .debug word alignment = .error .addOverflow := by
  have overflow : wordCount ≤ word.toNat + (alignment.toNat - 1) := by
    rw [← Nat.not_lt, ← multipleFrom_lt_iff power]
    exact Nat.not_lt.mpr beyond
  have stopped :
      Profile.debug.add word.toNat (alignment.toNat - 1) =
        .error .addOverflow :=
    Profile.fit_debug_of_le _ overflow
  rw [alignUp, power.asserted, Profile.assert_true, Profile.addWord,
    power.toNat_sub_one, stopped]
  rfl

/-- Rounding and wrapping around commute. -/
theorem alignUp_release (power : IsPower alignment) (word : UInt64) :
    alignUp .release word alignment =
      .ok (UInt64.ofNat (multipleFrom word alignment)) := by
  have masked :
      maskDown
          (UInt64.ofNat ((word.toNat + (alignment.toNat - 1)) % 2 ^ 64))
          alignment =
        UInt64.ofNat (multipleFrom word alignment) := by
    apply UInt64.toNat_inj.mp
    rw [power.toNat_maskDown, UInt64.toNat_ofNat', UInt64.toNat_ofNat',
      Nat.mod_mod, multipleFrom]
    rcases power.dvd_size with ⟨count, divided⟩
    have size : 2 ^ 64 = alignment.toNat * count := divided
    rw [size, Nat.mod_mul_right_div_self, Nat.mul_comm alignment.toNat count,
      Nat.mul_mod_mul_right]
  rw [alignUp, power.asserted, Profile.assert_true, Profile.addWord,
    power.toNat_sub_one, ← masked]
  exact alignDown_eq power .release _

/-- A multiple of the alignment is rounded to itself. -/
theorem multipleFrom_of_dvd
    (power : IsPower alignment) {word : UInt64}
    (divides : alignment.toNat ∣ word.toNat) :
    multipleFrom word alignment = word.toNat :=
  (isLeast_multipleFrom power word).unique
    ⟨⟨divides, Nat.le_refl _⟩, fun _ above => above.2⟩

theorem alignUp_of_dvd
    (power : IsPower alignment) (profile : Profile) {word : UInt64}
    (divides : alignment.toNat ∣ word.toNat) :
    alignUp profile word alignment = .ok word := by
  have same := multipleFrom_of_dvd power divides
  rw [alignUp_of_lt power profile (same ▸ word.toNat_lt), same,
    UInt64.ofNat_toNat]

/-- What a word is rounded up to is a multiple, also after wrapping around. -/
theorem dvd_of_alignUp
    (power : IsPower alignment) {profile : Profile} {word up : UInt64}
    (raised : alignUp profile word alignment = .ok up) :
    alignment.toNat ∣ up.toNat := by
  have wrapped :
      alignment.toNat ∣
        (UInt64.ofNat (multipleFrom word alignment)).toNat := by
    rw [UInt64.toNat_ofNat']
    exact (Nat.dvd_mod_iff power.dvd_size).mpr (Nat.dvd_mul_left _ _)
  by_cases small : multipleFrom word alignment < wordCount
  · rw [alignUp_of_lt power profile small] at raised
    cases raised
    exact wrapped
  · cases profile with
    | debug =>
        rw [alignUp_debug_of_le power (Nat.le_of_not_lt small)] at raised
        cases raised
    | release =>
        rw [alignUp_release power] at raised
        cases raised
        exact wrapped

/-- Between two multiples the upper one lies an alignment above the lower one. -/
theorem multipleFrom_eq_add (power : IsPower alignment) (word : UInt64) :
    multipleFrom word alignment =
      (maskDown word alignment).toNat +
        if alignment.toNat ∣ word.toNat then 0 else alignment.toNat := by
  split
  · rename_i divides
    rw [multipleFrom_of_dvd power divides, maskDown_of_dvd power divides,
      Nat.add_zero]
  · rename_i between
    have greatest := isGreatest_maskDown power word
    have apart : (maskDown word alignment).toNat ≠ word.toNat := by
      intro same
      exact between (same ▸ greatest.1.1)
    have below := greatest.1.2
    refine (isLeast_multipleFrom power word).unique ⟨⟨?_, ?_⟩, ?_⟩
    · exact Nat.dvd_add greatest.1.1 (Nat.dvd_refl _)
    · have above := Nat.lt_div_mul_add power.pos (a := word.toNat)
      rw [power.toNat_maskDown]
      exact Nat.le_of_lt above
    · rintro multiple ⟨divides, above⟩
      -- A multiple above the lower one is at least an alignment above it.
      have gap :
          alignment.toNat ∣ multiple - (maskDown word alignment).toNat :=
        Nat.dvd_sub divides greatest.1.1
      have wide := Nat.le_of_dvd (by omega) gap
      omega

/-! ## The laws -/

/-- How words are rounded down. -/
structure RoundsDown (profile : Profile) (alignment : UInt64) : Prop where
  yields : ∀ word, ∃ down,
    alignDown profile word alignment = .ok down ∧
      IsGreatest (multiplesUpTo word alignment) down.toNat ∧
        down.toNat = word.toNat - word.toNat % alignment.toNat
  idempotent : ∀ word down,
    alignDown profile word alignment = .ok down →
      alignDown profile down alignment = .ok down
  monotone : ∀ word other down otherDown, word ≤ other →
    alignDown profile word alignment = .ok down →
      alignDown profile other alignment = .ok otherDown → down ≤ otherDown

/-- How words are rounded up, and what becomes of those that cannot be. -/
structure RoundsUp (alignment : UInt64) : Prop where
  stops_iff : ∀ word fault,
    alignUp .debug word alignment = .error fault ↔
      fault = .addOverflow ∧ ¬ Fits word alignment
  yields : ∀ profile word, Fits word alignment → ∃ up,
    alignUp profile word alignment = .ok up ∧
      IsLeast (multiplesFrom word alignment) up.toNat
  wraps : ∀ word, ∃ up least,
    alignUp .release word alignment = .ok up ∧
      IsLeast (multiplesFrom word alignment) least ∧
        up.toNat = least % wordCount
  idempotent : ∀ profile word up,
    alignUp profile word alignment = .ok up →
      alignUp profile up alignment = .ok up
  monotone : ∀ profile word other up otherUp, word ≤ other →
    Fits other alignment →
      alignUp profile word alignment = .ok up →
        alignUp profile other alignment = .ok otherUp → up ≤ otherUp
  apart : ∀ profile word down up, Fits word alignment →
    alignDown profile word alignment = .ok down →
      alignUp profile word alignment = .ok up →
        up.toNat =
          down.toNat +
            if alignment.toNat ∣ word.toNat then 0 else alignment.toNat

theorem roundsDown (power : IsPower alignment) (profile : Profile) :
    RoundsDown profile alignment where
  yields := by
    intro word
    refine
      ⟨_, alignDown_eq power profile word, isGreatest_maskDown power word, ?_⟩
    rw [power.toNat_maskDown, Nat.div_mul_self_eq_mod_sub_self]
  idempotent := by
    intro word down lowered
    rw [alignDown_eq power] at lowered
    cases lowered
    rw [alignDown_eq power,
      maskDown_of_dvd power (isGreatest_maskDown power word).1.1]
  monotone := by
    intro word other down otherDown ordered lowered otherLowered
    rw [alignDown_eq power] at lowered otherLowered
    cases lowered
    cases otherLowered
    rw [UInt64.le_iff_toNat_le] at ordered ⊢
    have below := (isGreatest_maskDown power word).1
    exact
      (isGreatest_maskDown power other).2
        ⟨below.1, Nat.le_trans below.2 ordered⟩

/-- A word that can be rounded up is rounded to the least multiple. -/
theorem toNat_of_alignUp
    (power : IsPower alignment) {profile : Profile} {word up : UInt64}
    (fits : Fits word alignment)
    (raised : alignUp profile word alignment = .ok up) :
    up.toNat = multipleFrom word alignment := by
  have small := (fits_iff power word).mp fits
  rw [alignUp_of_lt power profile small] at raised
  cases raised
  rw [UInt64.toNat_ofNat', Nat.mod_eq_of_lt small]

theorem roundsUp (power : IsPower alignment) : RoundsUp alignment where
  stops_iff := by
    intro word fault
    rw [fits_iff power]
    by_cases small : multipleFrom word alignment < wordCount
    · rw [alignUp_of_lt power .debug small]
      exact iff_of_false nofun fun both => both.2 small
    · rw [alignUp_debug_of_le power (Nat.le_of_not_lt small),
        and_iff_left small]
      constructor
      · rintro ⟨⟩
        rfl
      · rintro rfl
        rfl
  yields := by
    intro profile word fits
    have small := (fits_iff power word).mp fits
    have raised := alignUp_of_lt power profile small
    refine ⟨_, raised, ?_⟩
    rw [toNat_of_alignUp power fits raised]
    exact isLeast_multipleFrom power word
  wraps := by
    intro word
    exact
      ⟨_, _, alignUp_release power word, isLeast_multipleFrom power word,
        UInt64.toNat_ofNat'⟩
  idempotent := by
    intro profile word up raised
    exact alignUp_of_dvd power profile (dvd_of_alignUp power raised)
  monotone := by
    intro profile word other up otherUp ordered fits raised otherRaised
    rw [UInt64.le_iff_toNat_le] at ordered ⊢
    have above := (isLeast_multipleFrom power other).1
    have lower :
        multipleFrom word alignment ≤ multipleFrom other alignment :=
      (isLeast_multipleFrom power word).2
        ⟨above.1, Nat.le_trans ordered above.2⟩
    have bound := (fits_iff power other).mp fits
    have fitsToo : Fits word alignment :=
      (fits_iff power word).mpr (Nat.lt_of_le_of_lt lower bound)
    rw [toNat_of_alignUp power fitsToo raised,
      toNat_of_alignUp power fits otherRaised]
    exact lower
  apart := by
    intro profile word down up fits lowered raised
    rw [alignDown_eq power] at lowered
    cases lowered
    rw [toNat_of_alignUp power fits raised]
    exact multipleFrom_eq_add power word

/--
For every power of two, words are rounded down to the greatest multiple and up to
the least one, up to the last that is a word.
-/
theorem rounds_to_multiples (power : IsPower alignment) :
    (∀ profile, RoundsDown profile alignment) ∧ RoundsUp alignment :=
  ⟨roundsDown power, roundsUp power⟩

end BootMemory.Alignment

namespace BootMemory.Sample

open BootMemory.Alignment

/-- The word after the last frame boundary is rounded up to no word. -/
theorem last_boundary_rounds :
    IsPower 4096 ∧ (∀ profile, RoundsDown profile 4096) ∧ RoundsUp 4096 ∧
      alignUp .debug 0xfffffffffffff000 4096 = .ok 0xfffffffffffff000 ∧
        ¬ Fits 0xfffffffffffff001 4096 ∧
          alignUp .release 0xfffffffffffff001 4096 = .ok 0 := by
  have power : IsPower 4096 := ⟨12, rfl⟩
  rcases rounds_to_multiples power with ⟨down, up⟩
  have beyond := (up.stops_iff 0xfffffffffffff001 .addOverflow).mp rfl
  exact ⟨power, down, up, rfl, beyond.2, rfl⟩

end BootMemory.Sample
