import BootMemory.Bitmap.Range
import BootMemory.Proofs.Action
import Mathlib.Order.Interval.Finset.Nat
import Mathlib.Tactic.IntervalCases

/-!
# Bitmaps as rows of bits

`bufferBit` is the bit of a buffer at an index, whether or not a bitmap reaches
that far, and `Bitmap.bit` is that bit inside the bitmap.  The central statement
is `bufferBit_put`: a write changes the one bit that it names, only inside the
bitmap, and no bit behind it.  Ranges follow by induction on their length, and
what the operations do to `Bitmap.bit` follows for all of them.

The checked operations do what the unchecked ones do wherever the profile admits
their indices: inside the bitmap in both profiles, and everywhere in release.
-/

namespace BootMemory.Bitmap

/-- A bitmap is its buffer and its number of bits. -/
theorem ext_bytes {left right : Bitmap}
    (bytes : left.bytes = right.bytes) (bits : left.bits = right.bits) :
    left = right := by
  cases left
  cases right
  cases bytes
  cases bits
  rfl

/-! ## Single bits -/

theorem toBitVec_mask (index : Nat) :
    (mask index).toBitVec = BitVec.twoPow 8 (index % 8) := by
  have small : index % 8 < 8 := Nat.mod_lt _ (by decide)
  unfold mask
  generalize index % 8 = place at small ⊢
  interval_cases place <;> rfl

theorem and_mask_ne_zero (byte : UInt8) (index : Nat) :
    (byte &&& mask index != 0) = byte.toBitVec.getLsbD (index % 8) := by
  have same :
      (byte &&& mask index).toBitVec =
        if byte.toBitVec.getLsbD (index % 8) then
          BitVec.twoPow 8 (index % 8)
        else
          0#8 := by
    rw [UInt8.toBitVec_and, toBitVec_mask, BitVec.and_twoPow]
  have small : index % 8 < 8 := Nat.mod_lt _ (by decide)
  have power : BitVec.twoPow 8 (index % 8) ≠ 0#8 := by
    generalize index % 8 = place at small ⊢
    interval_cases place <;> decide
  cases value : byte.toBitVec.getLsbD (index % 8) with
  | false =>
      have zero : byte &&& mask index = 0 := by
        apply UInt8.toBitVec_inj.mp
        simpa [value] using same
      simp [zero]
  | true =>
      have nonzero : byte &&& mask index ≠ 0 := by
        intro zero
        apply power
        rw [zero] at same
        simpa [value] using same.symm
      simp [nonzero]

/-- A write changes the bit that it names in its byte and no other one. -/
theorem getLsbD_write
    (byte : UInt8) (value : Bool) (index : Nat)
    {place : Nat} (small : place < 8) :
    (if value then
        byte ||| mask index
      else
        byte &&& ~~~mask index).toBitVec.getLsbD place =
      if index % 8 = place then value else byte.toBitVec.getLsbD place := by
  by_cases same : index % 8 = place
  · cases value <;> simp [toBitVec_mask, small, same]
  · cases value <;> simp [toBitVec_mask, small, same, Ne.symm same]

/-- The bit of a buffer at an index, also where no bitmap reaches. -/
def bufferBit (bytes : Array UInt8) (index : Nat) : Bool :=
  (bytes.getD (index / 8) 0).toBitVec.getLsbD (index % 8)

theorem bit_eq (bitmap : Bitmap) (index : Nat) :
    bitmap.bit index =
      (decide (index < bitmap.bits) && bufferBit bitmap.bytes index) := by
  simp [bit, bufferBit, and_mask_ne_zero]

theorem bit_eq_getLsbD
    (bitmap : Bitmap) {index : Nat} (inside : index < bitmap.bits) :
    bitmap.bit index =
      (bitmap.bytes.getD (index / 8) 0).toBitVec.getLsbD (index % 8) := by
  simp [bit_eq, inside, bufferBit]

/-- A bitmap is determined by the bits of its buffer and its size. -/
theorem ext_bufferBit {left right : Bitmap}
    (bits : left.bits = right.bits)
    (size : left.bytes.size = right.bytes.size)
    (same : ∀ index, index < 8 * left.bytes.size →
      bufferBit left.bytes index = bufferBit right.bytes index) :
    left = right := by
  apply ext_bytes _ bits
  apply Array.ext size
  intro place leftBound rightBound
  apply UInt8.toBitVec_inj.mp
  apply BitVec.eq_of_getLsbD_eq
  intro offset small
  have equal := same (8 * place + offset) (by omega)
  have byte : (8 * place + offset) / 8 = place := by omega
  have bit : (8 * place + offset) % 8 = offset := by omega
  rw [bufferBit, bufferBit, byte, bit] at equal
  simpa [Array.getD, leftBound, rightBound] using equal

/-- A bitmap that fills its buffer is determined by its bits. -/
theorem ext_bit {left right : Bitmap}
    (full : left.bits = 8 * left.bytes.size)
    (bits : left.bits = right.bits)
    (size : left.bytes.size = right.bytes.size)
    (same : ∀ index, index < left.bits → left.bit index = right.bit index) :
    left = right := by
  apply ext_bufferBit bits size
  intro index inside
  rw [← full] at inside
  have equal := same index inside
  rwa [bit_eq_getLsbD left inside, bit_eq_getLsbD right (bits ▸ inside)]
    at equal

/-- A write changes the one bit that it names, and only inside the bitmap. -/
theorem bufferBit_put
    (bitmap : Bitmap) (index other : Nat) (value : Bool) :
    bufferBit (bitmap.put index value).bytes other =
      if other = index ∧ index < bitmap.bits then
        value
      else
        bufferBit bitmap.bytes other := by
  by_cases written : index < bitmap.bits
  · have size := bitmap.fits
    have small : other % 8 < 8 := Nat.mod_lt _ (by decide)
    have bound : index / 8 < bitmap.bytes.size := by omega
    by_cases sameByte : index / 8 = other / 8
    · have sameBit : index % 8 = other % 8 ↔ other = index := by omega
      rw [sameByte] at bound
      simp only [bufferBit, put, if_pos written, Array.getD,
        Array.size_modify, bound, dif_pos, Array.getInternal_eq_getElem,
        Array.getElem_modify, if_pos sameByte,
        getLsbD_write _ value index small, sameBit, and_iff_left written]
    · have different : other ≠ index := by
        intro equal
        exact sameByte (by rw [equal])
      simp [bufferBit, put, written, Array.getD, Array.getElem_modify,
        sameByte, different]
  · simp [put, written]

@[simp]
theorem bit_put
    (bitmap : Bitmap) (index other : Nat) (value : Bool) :
    (bitmap.put index value).bit other =
      if other = index ∧ index < bitmap.bits then
        value
      else
        bitmap.bit other := by
  rw [bit_eq, bit_eq, bits_put, bufferBit_put]
  split
  · rename_i written
    simp [written.1, written.2]
  · rfl

/-- Writing a bit that has the value already changes nothing. -/
theorem put_eq_self
    {bitmap : Bitmap} {index : Nat} {value : Bool}
    (same : bitmap.bit index = value) :
    bitmap.put index value = bitmap := by
  by_cases inside : index < bitmap.bits
  · have size := bitmap.fits
    have bound : index / 8 < bitmap.bytes.size := by omega
    apply ext_bytes _ (bits_put bitmap index value)
    apply Array.ext
    · simp
    · intro place _ placeBound
      simp only [put, if_pos inside, Array.getElem_modify]
      split
      · rename_i samePlace
        subst samePlace
        apply UInt8.toBitVec_inj.mp
        apply BitVec.eq_of_getLsbD_eq
        intro offset small
        rw [getLsbD_write _ value index small]
        split
        · rename_i sameBit
          rw [← same, bit_eq_getLsbD bitmap inside, sameBit]
          simp [Array.getD, bound]
        · rfl
      · rfl
  · exact put_of_le bitmap value (Nat.le_of_not_lt inside)

/-- Filling overwrites every bit of the buffer, also behind the bitmap. -/
theorem bufferBit_fill (bitmap : Bitmap) (value : Bool) (index : Nat) :
    bufferBit (bitmap.fill value).bytes index =
      (decide (index < 8 * bitmap.bytes.size) && value) := by
  have small : index % 8 < 8 := Nat.mod_lt _ (by decide)
  have bound :
      index / 8 < bitmap.bytes.size ↔ index < 8 * bitmap.bytes.size := by
    omega
  by_cases inside : index < 8 * bitmap.bytes.size
  · have byte := bound.mpr inside
    cases value
    · simp [bufferBit, fill, Array.getD, byte]
    · simp only [bufferBit, fill, Array.getD, Array.size_replicate, byte,
        dif_pos, Array.getInternal_eq_getElem, Array.getElem_replicate,
        if_pos, inside, decide_true, Bool.true_and]
      generalize index % 8 = place at small ⊢
      interval_cases place <;> rfl
  · have byte := mt bound.mp inside
    simp [bufferBit, fill, Array.getD, byte, inside]

@[simp]
theorem bit_fill (bitmap : Bitmap) (value : Bool) (index : Nat) :
    (bitmap.fill value).bit index =
      (decide (index < bitmap.bits) && value) := by
  have size := bitmap.fits
  rw [bit_eq, bits_fill, bufferBit_fill]
  by_cases inside : index < bitmap.bits
  · have stored : index < 8 * bitmap.bytes.size := by omega
    simp [inside, stored]
  · simp [inside]

/-! ## Checked operations -/

/-- The profile lets a bitmap be used below an index. -/
def Admits (profile : Profile) (bitmap : Bitmap) (stop : Nat) : Prop :=
  profile = .release ∨ stop ≤ bitmap.bits

variable {profile : Profile} {bitmap : Bitmap}

theorem Admits.mono
    {stop lower : Nat} (admits : bitmap.Admits profile stop)
    (below : lower ≤ stop) : bitmap.Admits profile lower :=
  admits.imp_right fun inside => Nat.le_trans below inside

theorem Admits.put
    {stop : Nat} (admits : bitmap.Admits profile stop)
    (index : Nat) (value : Bool) :
    (bitmap.put index value).Admits profile stop := by
  unfold Admits
  rw [bits_put]
  exact admits

theorem assertInside_of_admits
    {index : Nat} (admits : bitmap.Admits profile (index + 1)) :
    bitmap.assertInside profile index = .ok () := by
  rcases admits with rfl | inside
  · rfl
  · have inside : index < bitmap.bits := inside
    cases profile <;> simp [assertInside, Profile.assert, inside]

theorem get_of_admits
    {index : Nat} (admits : bitmap.Admits profile (index + 1)) :
    bitmap.get profile index = .ok (bitmap.bit index) := by
  rw [get, assertInside_of_admits admits]
  rfl

theorem read_of_admits
    {index : Nat} (admits : bitmap.Admits profile (index + 1)) :
    read profile index bitmap = .ok (bitmap.bit index) bitmap := by
  simp only [read, get_of_admits admits]

theorem write_of_admits
    (value : Bool) {index : Nat}
    (admits : bitmap.Admits profile (index + 1)) :
    write profile value index bitmap = .ok () (bitmap.put index value) := by
  simp only [write, assertInside_of_admits admits]

theorem get_of_lt
    (profile : Profile) {bitmap : Bitmap} {index : Nat}
    (inside : index < bitmap.bits) :
    bitmap.get profile index = .ok (bitmap.bit index) :=
  get_of_admits (.inr inside)

theorem read_of_lt
    (profile : Profile) {bitmap : Bitmap} {index : Nat}
    (inside : index < bitmap.bits) :
    read profile index bitmap = .ok (bitmap.bit index) bitmap :=
  read_of_admits (.inr inside)

theorem write_of_lt
    (profile : Profile) (value : Bool) {bitmap : Bitmap} {index : Nat}
    (inside : index < bitmap.bits) :
    write profile value index bitmap = .ok () (bitmap.put index value) :=
  write_of_admits value (.inr inside)

/-! ## Ranges of bits -/

/-- Write `count` bits from an index on, outside without effect. -/
def putRange (bitmap : Bitmap) (value : Bool) : (start count : Nat) → Bitmap
  | _, 0 => bitmap
  | start, count + 1 =>
      putRange (bitmap.put start value) value (start + 1) count

@[simp]
theorem bits_putRange
    (bitmap : Bitmap) (value : Bool) (start count : Nat) :
    (bitmap.putRange value start count).bits = bitmap.bits := by
  induction count generalizing bitmap start with
  | zero => rfl
  | succ count inductionHypothesis =>
      simp [putRange, inductionHypothesis]

@[simp]
theorem size_bytes_putRange
    (bitmap : Bitmap) (value : Bool) (start count : Nat) :
    (bitmap.putRange value start count).bytes.size = bitmap.bytes.size := by
  induction count generalizing bitmap start with
  | zero => rfl
  | succ count inductionHypothesis =>
      simp [putRange, inductionHypothesis]

theorem bufferBit_putRange
    (bitmap : Bitmap) (value : Bool) (start count index : Nat) :
    bufferBit (bitmap.putRange value start count).bytes index =
      if start ≤ index ∧ index < start + count ∧ index < bitmap.bits then
        value
      else
        bufferBit bitmap.bytes index := by
  induction count generalizing bitmap start with
  | zero =>
      have nowhere :
          ¬ (start ≤ index ∧ index < start + 0 ∧ index < bitmap.bits) := by
        omega
      rw [if_neg nowhere]
      rfl
  | succ count inductionHypothesis =>
      rw [putRange, inductionHypothesis, bits_put, bufferBit_put]
      by_cases first : index = start
      · have later :
            ¬ (start + 1 ≤ index ∧ index < start + 1 + count ∧
              index < bitmap.bits) := by
          omega
        have covered :
            (index = start ∧ start < bitmap.bits) ↔
              start ≤ index ∧ index < start + (count + 1) ∧
                index < bitmap.bits := by
          omega
        rw [if_neg later, if_congr covered rfl rfl]
      · have other : ¬ (index = start ∧ start < bitmap.bits) := by omega
        have shifted :
            (start + 1 ≤ index ∧ index < start + 1 + count ∧
              index < bitmap.bits) ↔
              start ≤ index ∧ index < start + (count + 1) ∧
                index < bitmap.bits := by
          omega
        rw [if_neg other, if_congr shifted rfl rfl]

theorem putRange_of_le
    (value : Bool) {start : Nat} (outside : bitmap.bits ≤ start)
    (count : Nat) : bitmap.putRange value start count = bitmap := by
  induction count generalizing start with
  | zero => rfl
  | succ count inductionHypothesis =>
      rw [putRange, put_of_le bitmap value outside,
        inductionHypothesis (Nat.le_succ_of_le outside)]

theorem bit_putRange
    (bitmap : Bitmap) (value : Bool) {start count : Nat}
    (inside : start + count ≤ bitmap.bits) (index : Nat) :
    (bitmap.putRange value start count).bit index =
      if start ≤ index ∧ index < start + count then
        value
      else
        bitmap.bit index := by
  rw [bit_eq, bit_eq, bits_putRange, bufferBit_putRange]
  by_cases covered : start ≤ index ∧ index < start + count
  · have below : index < bitmap.bits := by omega
    rw [if_pos covered, if_pos ⟨covered.1, covered.2, below⟩,
      decide_eq_true below, Bool.true_and]
  · have elsewhere :
        ¬ (start ≤ index ∧ index < start + count ∧ index < bitmap.bits) := by
      omega
    rw [if_neg covered, if_neg elsewhere]

theorem writeFrom_of_admits
    (value : Bool) {start count : Nat}
    (admits : bitmap.Admits profile (start + count)) :
    writeFrom profile value start count bitmap =
      .ok () (bitmap.putRange value start count) := by
  induction count generalizing bitmap start with
  | zero => rfl
  | succ count inductionHypothesis =>
      have first : bitmap.Admits profile (start + 1) :=
        admits.mono (by omega)
      have rest :
          (bitmap.put start value).Admits profile (start + 1 + count) :=
        (admits.mono (by omega)).put start value
      rw [writeFrom, Action.bind_of_ok (write_of_admits value first)]
      exact inductionHypothesis rest

theorem writeRange_of_le
    (profile : Profile) (value : Bool) {bitmap : Bitmap}
    {start stop : Nat} (ordered : start ≤ stop)
    (inside : stop ≤ bitmap.bits) :
    writeRange profile value start stop bitmap =
      .ok () (bitmap.putRange value start (stop - start)) := by
  have visits : bitmap.visited start stop = stop - start := by
    unfold visited
    omega
  rw [writeRange, visits]
  exact writeFrom_of_admits value (.inr (by omega))

theorem allSetFrom_of_admits
    {start count : Nat} (admits : bitmap.Admits profile (start + count)) :
    bitmap.allSetFrom profile start count =
      .ok (decide (∀ index, start ≤ index → index < start + count →
        bitmap.bit index = true)) := by
  induction count generalizing start with
  | zero =>
      have vacuous : ∀ index, start ≤ index → index < start + 0 →
          bitmap.bit index = true := by
        intro index lower upper
        omega
      simp only [allSetFrom, pure, Except.pure, decide_eq_true vacuous]
  | succ count inductionHypothesis =>
      have reached : bitmap.Admits profile (start + 1) :=
        admits.mono (by omega)
      have readable := get_of_admits reached
      have rest : bitmap.Admits profile (start + 1 + count) :=
        admits.mono (by omega)
      cases first : bitmap.bit start with
      | false =>
          have refuted : ¬ ∀ index, start ≤ index →
              index < start + (count + 1) → bitmap.bit index = true := by
            intro all
            have contrary := all start (Nat.le_refl _) (by omega)
            simp [first] at contrary
          simp [allSetFrom, readable, first, refuted, bind, Except.bind, pure,
            Except.pure]
      | true =>
          have split :
              (∀ index, start ≤ index → index < start + (count + 1) →
                bitmap.bit index = true) ↔
              ∀ index, start + 1 ≤ index → index < start + 1 + count →
                bitmap.bit index = true := by
            constructor
            · intro all index lower upper
              exact all index (by omega) (by omega)
            · intro later index lower upper
              by_cases same : index = start
              · rw [same]
                exact first
              · exact later index (by omega) (by omega)
          simp only [allSetFrom, readable, first, bind, Except.bind, if_true,
            inductionHypothesis rest, split]

theorem allSetFrom_of_le
    (profile : Profile) (bitmap : Bitmap) {start count : Nat}
    (inside : start + count ≤ bitmap.bits) :
    bitmap.allSetFrom profile start count =
      .ok (decide (∀ index, start ≤ index → index < start + count →
        bitmap.bit index = true)) :=
  allSetFrom_of_admits (.inr inside)

/-- The set bits of a range. -/
def held (bitmap : Bitmap) (start count : Nat) : Finset Nat :=
  (Finset.Ico start (start + count)).filter fun index =>
    bitmap.bit index = true

theorem card_held_succ (bitmap : Bitmap) (start count : Nat) :
    (bitmap.held start (count + 1)).card =
      (if bitmap.bit start = true then 1 else 0) +
        (bitmap.held (start + 1) count).card := by
  have range :
      Finset.Ico start (start + (count + 1)) =
        insert start (Finset.Ico (start + 1) (start + 1 + count)) := by
    ext index
    simp only [Finset.mem_insert, Finset.mem_Ico]
    omega
  have fresh : start ∉ bitmap.held (start + 1) count := by
    simp [held]
  unfold held at fresh ⊢
  rw [range, Finset.filter_insert]
  split
  · rw [Finset.card_insert_of_notMem fresh, Nat.add_comm]
  · rw [Nat.zero_add]

theorem held_congr
    {left right : Bitmap} {start count : Nat}
    (same : ∀ index, start ≤ index → left.bit index = right.bit index) :
    left.held start count = right.held start count := by
  apply Finset.filter_congr
  intro index member
  rw [same index (Finset.mem_Ico.mp member).1]

/-- Releasing a range clears it and counts the bits that were set. -/
theorem releaseFrom_of_le
    (profile : Profile) {bitmap : Bitmap} {start count : Nat}
    (released : Nat) (inside : start + count ≤ bitmap.bits)
    (small : released + count < wordCount) :
    releaseFrom profile start count released bitmap =
      .ok (released + (bitmap.held start count).card)
        (bitmap.putRange false start count) := by
  induction count generalizing bitmap start released with
  | zero => simp [releaseFrom, putRange, held, pure, EStateM.pure]
  | succ count inductionHypothesis =>
      have readable : start < bitmap.bits := by omega
      have ran := read_of_lt profile readable
      rw [releaseFrom, Action.bind_of_ok ran, putRange, card_held_succ]
      cases first : bitmap.bit start with
      | false =>
          rw [put_eq_self first]
          simp only [Bool.false_eq_true, if_false, Nat.zero_add]
          exact inductionHypothesis released (by omega) (by omega)
      | true =>
          have counted : profile.add released 1 = .ok (released + 1) :=
            profile.add_of_lt (by omega)
          have cleared := write_of_lt profile false readable
          have rest :
              (bitmap.put start false).held (start + 1) count =
                bitmap.held (start + 1) count := by
            apply held_congr
            intro index later
            have other : ¬ (index = start ∧ start < bitmap.bits) := by omega
            rw [bit_put, if_neg other]
          simp only [if_true, clear]
          rw [Action.bind_of_ok cleared, Action.bind_lift_of_ok counted,
            inductionHypothesis (released + 1) (by simp; omega) (by omega),
            rest,
            Nat.add_assoc]

end BootMemory.Bitmap
