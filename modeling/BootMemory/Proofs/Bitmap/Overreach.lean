import BootMemory.Proofs.Bitmap

/-!
# Ranges that reach outside a bitmap

The operations on ranges go through their indices in order, so what becomes of an
index outside depends on those before it.  In the debug profile a write stops at
the first index outside and keeps what it has written until then; whether all
bits are set is settled by the first clear bit, and only a range that is set up
to the end of the bitmap comes to an index outside.  In the release profile the
indices outside are passed over by a write, and read as clear.

Each operation is split at the end of the bitmap, where `writeFrom_upTo` and
`allSetFrom_upTo` say how far it comes.  By `writeRange_eq_writeFrom` it does not
matter that a write counts no further than to the first index outside.
`Bitmap.range_outcomes` is the outcome of all three operations, for every range.
-/

namespace BootMemory.Bitmap

/-- A range has an index, and has one outside a bitmap. -/
def Overreaches (bitmap : Bitmap) (start stop : Nat) : Prop :=
  start < stop ∧ bitmap.bits < stop

/-- The bits of a range are set. -/
def AllHeld (bitmap : Bitmap) (start stop : Nat) : Prop :=
  ∀ index, start ≤ index → index < stop → bitmap.bit index = true

/-- The bits of a range were given a value, and no others of the buffer. -/
structure Overwrites
    (value : Bool) (start stop : Nat) (bitmap later : Bitmap) : Prop where
  bits_eq : later.bits = bitmap.bits
  size_eq : later.bytes.size = bitmap.bytes.size
  bit_eq : ∀ index,
    bufferBit later.bytes index =
      if start ≤ index ∧ index < stop then
        value
      else
        bufferBit bitmap.bytes index

variable {profile : Profile} {bitmap : Bitmap} {value : Bool}
  {start stop : Nat}

/-! ## Writing -/

theorem overwrites_putRange
    {count : Nat}
    (covered : ∀ index, start ≤ index →
      (index < stop ↔ index < start + count ∧ index < bitmap.bits)) :
    Overwrites value start stop bitmap
      (bitmap.putRange value start count) where
  bits_eq := bits_putRange bitmap value start count
  size_eq := size_bytes_putRange bitmap value start count
  bit_eq := by
    intro index
    rw [bufferBit_putRange]
    exact if_congr (and_congr_right fun lower => (covered index lower).symm)
      rfl rfl

theorem writeFrom_add
    (profile : Profile) (value : Bool) (start first rest : Nat) :
    writeFrom profile value start (first + rest) =
      (writeFrom profile value start first >>= fun _ =>
        writeFrom profile value (start + first) rest) := by
  induction first generalizing start with
  | zero => simp [writeFrom]
  | succ first inductionHypothesis =>
      rw [Nat.succ_add, writeFrom, writeFrom, bind_assoc,
        inductionHypothesis, Nat.succ_add_eq_add_succ]

/-- A write comes to the end of the bitmap in either profile. -/
theorem writeFrom_upTo
    (profile : Profile) (value : Bool) (bitmap : Bitmap) (start : Nat) :
    writeFrom profile value start (bitmap.bits - start) bitmap =
      .ok () (bitmap.putRange value start (bitmap.bits - start)) := by
  by_cases below : start ≤ bitmap.bits
  · exact writeFrom_of_admits value (.inr (by omega))
  · rw [Nat.sub_eq_zero_of_le (Nat.le_of_not_le below)]
    rfl

theorem write_debug_of_le
    (value : Bool) {index : Nat} (outside : bitmap.bits ≤ index) :
    write .debug value index bitmap =
      .error (.bitmapIndex index) bitmap := by
  simp [write, assertInside, Nat.not_lt.mpr outside]

/-- In debug a write that comes to an index outside stops there. -/
theorem writeFrom_debug_of_lt
    (value : Bool) {count : Nat} (past : bitmap.bits - start < count) :
    writeFrom .debug value start count bitmap =
      .error (.bitmapIndex (max start bitmap.bits))
        (bitmap.putRange value start (bitmap.bits - start)) := by
  have parts :
      count =
        bitmap.bits - start + (count - (bitmap.bits - start) - 1 + 1) := by
    omega
  have place : start + (bitmap.bits - start) = max start bitmap.bits := by
    omega
  have outside :
      (bitmap.putRange value start (bitmap.bits - start)).bits ≤
        max start bitmap.bits := by
    rw [bits_putRange]
    exact Nat.le_max_right _ _
  rw [parts, writeFrom_add,
    Action.bind_of_ok (writeFrom_upTo .debug value bitmap start), place,
    writeFrom, Action.bind_of_error (write_debug_of_le value outside)]

/-- In release a write passes over the indices outside. -/
theorem writeFrom_release_of_le
    (value : Bool) {count : Nat} (past : bitmap.bits - start ≤ count) :
    writeFrom .release value start count bitmap =
      .ok () (bitmap.putRange value start (bitmap.bits - start)) := by
  have parts :
      count = bitmap.bits - start + (count - (bitmap.bits - start)) := by
    omega
  have outside :
      (bitmap.putRange value start (bitmap.bits - start)).bits ≤
        start + (bitmap.bits - start) := by
    rw [bits_putRange]
    omega
  rw [parts, writeFrom_add,
    Action.bind_of_ok (writeFrom_upTo .release value bitmap start),
    writeFrom_of_admits value (.inl rfl), putRange_of_le value outside]

theorem visited_of_not_overreaches
    (inside : ¬ bitmap.Overreaches start stop) :
    bitmap.visited start stop = stop - start := by
  unfold Overreaches at inside
  unfold visited
  omega

theorem lt_visited_of_overreaches
    (overreaches : bitmap.Overreaches start stop) :
    bitmap.bits - start < bitmap.visited start stop := by
  rcases overreaches with ⟨nonempty, outside⟩
  unfold visited
  omega

/--
Cutting a range off behind its first index outside changes nothing: by then
debug has stopped, and release has nothing left to write.
-/
theorem writeRange_eq_writeFrom
    (profile : Profile) (value : Bool) (bitmap : Bitmap) (start stop : Nat) :
    writeRange profile value start stop bitmap =
      writeFrom profile value start (stop - start) bitmap := by
  by_cases overreaches : bitmap.Overreaches start stop
  · have cut := lt_visited_of_overreaches overreaches
    have whole : bitmap.bits - start < stop - start := by
      rcases overreaches with ⟨nonempty, outside⟩
      omega
    rw [writeRange]
    cases profile with
    | debug =>
        rw [writeFrom_debug_of_lt value cut, writeFrom_debug_of_lt value whole]
    | release =>
        rw [writeFrom_release_of_le value (Nat.le_of_lt cut),
          writeFrom_release_of_le value (Nat.le_of_lt whole)]
  · rw [writeRange, visited_of_not_overreaches overreaches]

/-- In debug a write stops at the first index outside. -/
theorem writeRange_debug_of_overreaches
    (value : Bool) (overreaches : bitmap.Overreaches start stop) :
    writeRange .debug value start stop bitmap =
      .error (.bitmapIndex (max start bitmap.bits))
        (bitmap.putRange value start (bitmap.bits - start)) :=
  writeFrom_debug_of_lt value (lt_visited_of_overreaches overreaches)

theorem writeRange_debug_of_not_overreaches
    (value : Bool) (inside : ¬ bitmap.Overreaches start stop) :
    writeRange .debug value start stop bitmap =
      .ok () (bitmap.putRange value start (stop - start)) := by
  have admits : start < stop → stop ≤ bitmap.bits := by
    unfold Overreaches at inside
    omega
  by_cases ordered : start < stop
  · exact writeRange_of_le .debug value (Nat.le_of_lt ordered) (admits ordered)
  · rw [writeRange_eq_writeFrom,
      Nat.sub_eq_zero_of_le (Nat.le_of_not_lt ordered)]
    rfl

/-- What a write of a range does, by profile and by where the range ends. -/
structure RangeWritten
    (write : Profile → Nat → Nat → Action Bitmap Unit) (value : Bool)
    (bitmap : Bitmap) (start stop : Nat) : Prop where
  stops_iff :
    (∃ fault later, write .debug start stop bitmap = .error fault later) ↔
      bitmap.Overreaches start stop
  stopped : ∀ fault later,
    write .debug start stop bitmap = .error fault later →
      fault = .bitmapIndex (max start bitmap.bits) ∧
        Overwrites value start bitmap.bits bitmap later
  finished : ∀ later,
    write .debug start stop bitmap = .ok () later →
      Overwrites value start stop bitmap later
  released : ∃ later,
    write .release start stop bitmap = .ok () later ∧
      Overwrites value start (min stop bitmap.bits) bitmap later

theorem rangeWritten
    (value : Bool) (bitmap : Bitmap) (start stop : Nat) :
    RangeWritten (fun profile => writeRange profile value) value bitmap start
      stop where
  stops_iff := by
    by_cases overreaches : bitmap.Overreaches start stop
    · rw [writeRange_debug_of_overreaches value overreaches]
      exact iff_of_true ⟨_, _, rfl⟩ overreaches
    · rw [writeRange_debug_of_not_overreaches value overreaches]
      refine iff_of_false ?_ overreaches
      rintro ⟨fault, later, stopped⟩
      cases stopped
  stopped := by
    intro fault later stopped
    by_cases overreaches : bitmap.Overreaches start stop
    · rw [writeRange_debug_of_overreaches value overreaches] at stopped
      cases stopped
      refine ⟨rfl, overwrites_putRange ?_⟩
      intro index lower
      omega
    · rw [writeRange_debug_of_not_overreaches value overreaches] at stopped
      cases stopped
  finished := by
    intro later finished
    by_cases overreaches : bitmap.Overreaches start stop
    · rw [writeRange_debug_of_overreaches value overreaches] at finished
      cases finished
    · rw [writeRange_debug_of_not_overreaches value overreaches] at finished
      cases finished
      apply overwrites_putRange
      intro index lower
      unfold Overreaches at overreaches
      omega
  released := by
    refine ⟨_, writeFrom_of_admits value (.inl rfl), ?_⟩
    apply overwrites_putRange
    intro index lower
    unfold visited
    omega

/-! ## Reading -/

theorem allSetFrom_add
    (profile : Profile) (bitmap : Bitmap) (start first rest : Nat) :
    bitmap.allSetFrom profile start (first + rest) =
      (bitmap.allSetFrom profile start first >>= fun held =>
        if held then
          bitmap.allSetFrom profile (start + first) rest
        else
          pure false) := by
  induction first generalizing start with
  | zero => simp [allSetFrom]
  | succ first inductionHypothesis =>
      rw [Nat.succ_add, allSetFrom, allSetFrom, bind_assoc]
      congr 1
      funext held
      cases held with
      | false => rfl
      | true =>
          simp only [if_true]
          rw [inductionHypothesis, Nat.succ_add_eq_add_succ]

/-- The bits up to the end of the bitmap are read in either profile. -/
theorem allSetFrom_upTo
    (profile : Profile) (bitmap : Bitmap) (start : Nat) :
    ∃ held,
      bitmap.allSetFrom profile start (bitmap.bits - start) = .ok held ∧
        (held = true ↔ bitmap.AllHeld start bitmap.bits) := by
  by_cases below : start ≤ bitmap.bits
  · have place : start + (bitmap.bits - start) = bitmap.bits := by omega
    refine ⟨_, allSetFrom_of_le profile bitmap (by omega), ?_⟩
    rw [decide_eq_true_iff, place]
    rfl
  · rw [Nat.sub_eq_zero_of_le (Nat.le_of_not_le below)]
    refine ⟨true, rfl, iff_of_true rfl ?_⟩
    intro index lower upper
    omega

theorem get_debug_of_le {index : Nat} (outside : bitmap.bits ≤ index) :
    bitmap.get .debug index = .error (.bitmapIndex index) := by
  simp [get, assertInside, Nat.not_lt.mpr outside, bind, Except.bind]

/-- In debug a range is read until a clear bit or an index outside is met. -/
theorem allSet_debug_of_overreaches
    (overreaches : bitmap.Overreaches start stop) :
    (bitmap.AllHeld start bitmap.bits ∧
      bitmap.allSet .debug start stop =
        .error (.bitmapIndex (max start bitmap.bits))) ∨
    (¬ bitmap.AllHeld start bitmap.bits ∧
      bitmap.allSet .debug start stop = .ok false) := by
  have parts :
      stop - start =
        bitmap.bits - start + (stop - max start bitmap.bits - 1 + 1) := by
    rcases overreaches with ⟨nonempty, outside⟩
    omega
  have place : start + (bitmap.bits - start) = max start bitmap.bits := by
    omega
  rcases allSetFrom_upTo .debug bitmap start with ⟨held, read, held_iff⟩
  rw [allSet, parts, allSetFrom_add, read, place, allSetFrom,
    get_debug_of_le (Nat.le_max_right _ _)]
  cases held with
  | false =>
      refine .inr ⟨?_, rfl⟩
      rw [← held_iff]
      exact Bool.false_ne_true
  | true => exact .inl ⟨held_iff.mp rfl, rfl⟩

theorem allSet_debug_of_not_overreaches
    (inside : ¬ bitmap.Overreaches start stop) :
    ∃ answer,
      bitmap.allSet .debug start stop = .ok answer ∧
        (answer = true ↔ bitmap.AllHeld start stop) := by
  by_cases ordered : start < stop
  · have below : stop ≤ bitmap.bits := by
      unfold Overreaches at inside
      omega
    have place : start + (stop - start) = stop := by omega
    refine ⟨_, allSetFrom_of_le .debug bitmap (by omega), ?_⟩
    rw [decide_eq_true_iff, place]
    rfl
  · rw [allSet, Nat.sub_eq_zero_of_le (Nat.le_of_not_lt ordered)]
    refine ⟨true, rfl, iff_of_true rfl ?_⟩
    intro index lower upper
    omega

theorem allSet_release_iff (bitmap : Bitmap) (start stop : Nat) :
    ∃ answer,
      bitmap.allSet .release start stop = .ok answer ∧
        (answer = true ↔
          stop ≤ start ∨ stop ≤ bitmap.bits ∧ bitmap.AllHeld start stop) := by
  refine ⟨_, allSetFrom_of_admits (.inl rfl), ?_⟩
  rw [decide_eq_true_iff]
  constructor
  · intro held
    by_cases ordered : start < stop
    · refine .inr ⟨?_, ?_⟩
      · -- The last index of the range is set, so it lies inside.
        have last := held (stop - 1) (by omega) (by omega)
        by_contra outside
        rw [bit_of_le bitmap (by omega)] at last
        exact Bool.false_ne_true last
      · intro index lower upper
        exact held index lower (by omega)
    · exact .inl (Nat.le_of_not_lt ordered)
  · rintro (none | ⟨-, held⟩) index lower upper
    · omega
    · exact held index lower (by omega)

/-- What is answered of a range, by profile and by where the range ends. -/
structure RangeRead (bitmap : Bitmap) (start stop : Nat) : Prop where
  stops_iff :
    (∃ fault, bitmap.allSet .debug start stop = .error fault) ↔
      bitmap.Overreaches start stop ∧ bitmap.AllHeld start bitmap.bits
  stopped : ∀ fault,
    bitmap.allSet .debug start stop = .error fault →
      fault = .bitmapIndex (max start bitmap.bits)
  settled : bitmap.Overreaches start stop →
    ¬ bitmap.AllHeld start bitmap.bits →
      bitmap.allSet .debug start stop = .ok false
  finished : ¬ bitmap.Overreaches start stop →
    ∃ answer, bitmap.allSet .debug start stop = .ok answer ∧
      (answer = true ↔ bitmap.AllHeld start stop)
  released : ∃ answer,
    bitmap.allSet .release start stop = .ok answer ∧
      (answer = true ↔
        stop ≤ start ∨ stop ≤ bitmap.bits ∧ bitmap.AllHeld start stop)

theorem rangeRead (bitmap : Bitmap) (start stop : Nat) :
    RangeRead bitmap start stop where
  stops_iff := by
    by_cases overreaches : bitmap.Overreaches start stop
    · rcases allSet_debug_of_overreaches overreaches with
        ⟨held, stopped⟩ | ⟨clear, answered⟩
      · exact iff_of_true ⟨_, stopped⟩ ⟨overreaches, held⟩
      · rw [answered]
        refine iff_of_false ?_ fun both => clear both.2
        rintro ⟨fault, stopped⟩
        cases stopped
    · rcases allSet_debug_of_not_overreaches overreaches with
        ⟨answer, answered, -⟩
      rw [answered]
      refine iff_of_false ?_ fun both => overreaches both.1
      rintro ⟨fault, stopped⟩
      cases stopped
  stopped := by
    intro fault stopped
    by_cases overreaches : bitmap.Overreaches start stop
    · rcases allSet_debug_of_overreaches overreaches with
        ⟨-, known⟩ | ⟨-, answered⟩
      · rw [known] at stopped
        exact (Except.error.inj stopped).symm
      · rw [answered] at stopped
        cases stopped
    · rcases allSet_debug_of_not_overreaches overreaches with
        ⟨answer, answered, -⟩
      rw [answered] at stopped
      cases stopped
  settled := by
    intro overreaches clear
    rcases allSet_debug_of_overreaches overreaches with
      ⟨held, -⟩ | ⟨-, answered⟩
    · exact absurd held clear
    · exact answered
  finished := allSet_debug_of_not_overreaches
  released := allSet_release_iff bitmap start stop

/--
The outcome of setting, clearing and reading a range, wherever it lies: in debug
each is stopped at the first index outside that it comes to, and in release none.
-/
theorem range_outcomes (bitmap : Bitmap) (start stop : Nat) :
    RangeWritten setRange true bitmap start stop ∧
      RangeWritten clearRange false bitmap start stop ∧
        RangeRead bitmap start stop :=
  ⟨rangeWritten true bitmap start stop, rangeWritten false bitmap start stop,
    rangeRead bitmap start stop⟩

end BootMemory.Bitmap

namespace BootMemory.Sample

open Bitmap

/-- A byte of ones, of which five bits are used. -/
def fiveBits : Bitmap := ⟨#[255], 5, by decide⟩

/-- A range over the end is cleared up to it, and is set only up to it. -/
theorem fiveBits_range_outcomes :
    (∃ fault later, clearRange .debug 3 9 fiveBits = .error fault later ∧
      fault = .bitmapIndex 5 ∧ Overwrites false 3 5 fiveBits later ∧
      later.bytes = #[231]) ∧
    (∃ fault, fiveBits.allSet .debug 3 9 = .error fault ∧
      fault = .bitmapIndex 5) ∧
    fiveBits.AllHeld 3 5 ∧
    fiveBits.allSet .release 3 9 = .ok false := by
  rcases range_outcomes fiveBits 3 9 with ⟨-, cleared, read⟩
  rcases cleared.stopped _ _ rfl with ⟨cleared_fault, overwritten⟩
  exact ⟨⟨_, _, rfl, cleared_fault, overwritten, rfl⟩,
    ⟨_, rfl, read.stopped _ rfl⟩, (read.stops_iff.mp ⟨_, rfl⟩).2, rfl⟩

end BootMemory.Sample
