import BootMemory.Proofs.Frames.Search

/-!
# Giving back frames

What a release does once its assertions hold is `giveBack`: the frames named
are cleared as far as the bitmap reaches, frame zero excepted, and those that
were in use leave the used pages.  In the debug profile the assertions are
exactly `Releasable`; a release that fails them changes nothing.  `Accepts` says
the same of both profiles.

A release `Names` frames, and `released` are those of them that were in use: the
ones that are cleared and counted.
-/

namespace BootMemory.FrameTable

/-- The first frame that a release of frames from `first` on clears. -/
def releaseStart (first : Nat) : Nat := max first 1

/-- How many frames a release looks at. -/
def releaseCount (table : FrameTable) (first count : Nat) : Nat :=
  min (runStop first count) table.bitmap.bits - releaseStart first

/-- The table with frames given back. -/
def giveBack (table : FrameTable) (first count : Nat) : FrameTable :=
  { table with
    bitmap :=
      table.bitmap.putRange false (releaseStart first)
        (table.releaseCount first count)
    usedPages :=
      table.usedPages -
        (table.bitmap.held (releaseStart first)
          (table.releaseCount first count)).card
    cursor := if first < table.cursor then first else table.cursor }

/-- What the debug profile demands of the frames that are given back. -/
structure Releasable (table : FrameTable) (first count : Nat) : Prop where
  inside : runStop first count ≤ table.bitmap.bits
  nonzero : first ≠ 0
  held : ∀ frame, first ≤ frame → frame < runStop first count →
    table.bitmap.bit frame = true

/-- What stops a release in the debug profile; the first check that fails. -/
inductive Stops (table : FrameTable) (first stop : Nat) : Fault → Prop where
  | beyond (outside : table.bitmap.bits < stop) :
      Stops table first stop
        (.releaseBeyondBitmap first stop table.bitmap.bits)
  | frameZero (inside : stop ≤ table.bitmap.bits) (zero : first = 0) :
      Stops table first stop .releaseFrameZero
  | unallocated (inside : stop ≤ table.bitmap.bits) (nonzero : first ≠ 0)
      (clear : ∃ frame, first ≤ frame ∧ frame < stop ∧
        table.bitmap.bit frame = false) :
      Stops table first stop (.releaseUnallocated first stop)

/-- Frames that cannot be given back fail one of the checks. -/
theorem exists_stops
    {table : FrameTable} {first count : Nat}
    (refused : ¬ table.Releasable first count) :
    ∃ fault, table.Stops first (runStop first count) fault := by
  by_cases inside : runStop first count ≤ table.bitmap.bits
  · by_cases zero : first = 0
    · exact ⟨_, .frameZero inside zero⟩
    · by_cases held : ∀ frame, first ≤ frame →
          frame < runStop first count → table.bitmap.bit frame = true
      · exact absurd ⟨inside, zero, held⟩ refused
      · push Not at held
        rcases held with ⟨frame, lower, upper, clear⟩
        exact
          ⟨_, .unallocated inside zero
            ⟨frame, lower, upper, Bool.eq_false_iff.mpr clear⟩⟩
  · exact ⟨_, .beyond (Nat.lt_of_not_le inside)⟩

theorem first_le_runStop {first : Nat} (small : first < wordCount) (count : Nat) :
    first ≤ runStop first count := by
  unfold runStop
  omega

@[simp]
theorem assertReleasable_release (table : FrameTable) (first count : Nat) :
    table.assertReleasable .release first count = .ok () := rfl

theorem assertReleasable_debug_of
    {table : FrameTable} {first count : Nat}
    (small : first < wordCount)
    (releasable : table.Releasable first count) :
    table.assertReleasable .debug first count = .ok () := by
  have ordered := first_le_runStop small count
  have inside := releasable.inside
  have reach : first + (runStop first count - first) = runStop first count := by
    omega
  have held :
      table.bitmap.allSet .debug first (runStop first count) = .ok true := by
    unfold Bitmap.allSet
    rw [Bitmap.allSetFrom_of_le .debug table.bitmap (by omega), reach,
      decide_eq_true releasable.held]
  simp [assertReleasable, Profile.assert, inside, releasable.nonzero, held,
    bind, Except.bind]

/-- The check that fails is the one that is reported. -/
theorem assertReleasable_debug_of_stops
    {table : FrameTable} {first count : Nat} {fault : Fault}
    (small : first < wordCount)
    (stops : table.Stops first (runStop first count) fault) :
    table.assertReleasable .debug first count = .error fault := by
  cases stops with
  | beyond outside =>
      have past : ¬ runStop first count ≤ table.bitmap.bits :=
        Nat.not_le_of_lt outside
      simp [assertReleasable, Profile.assert, past, bind, Except.bind]
  | frameZero inside zero =>
      subst zero
      simp [assertReleasable, Profile.assert, inside, bind, Except.bind]
  | unallocated inside nonzero clear =>
      have ordered := first_le_runStop small count
      have reach :
          first + (runStop first count - first) = runStop first count := by
        omega
      have free : ¬ ∀ frame, first ≤ frame → frame < runStop first count →
          table.bitmap.bit frame = true := by
        intro held
        rcases clear with ⟨frame, lower, upper, unset⟩
        rw [held frame lower upper] at unset
        cases unset
      have held :
          table.bitmap.allSet .debug first (runStop first count) =
            .ok false := by
        unfold Bitmap.allSet
        rw [Bitmap.allSetFrom_of_le .debug table.bitmap (by omega), reach,
          decide_eq_false free]
      simp [assertReleasable, Profile.assert, inside, nonzero, held, bind,
        Except.bind]

theorem assertReleasable_debug_of_not
    {table : FrameTable} {first count : Nat}
    (small : first < wordCount)
    (refused : ¬ table.Releasable first count) :
    ∃ fault, table.assertReleasable .debug first count = .error fault := by
  rcases exists_stops refused with ⟨fault, stops⟩
  exact ⟨fault, assertReleasable_debug_of_stops small stops⟩

/-- What the profile demands of the frames that are given back. -/
def Accepts
    (profile : Profile) (table : FrameTable) (first count : Nat) : Prop :=
  profile = .release ∨ table.Releasable first count

theorem assertReleasable_iff
    {profile : Profile} {table : FrameTable} {first count : Nat}
    (small : first < wordCount) :
    table.assertReleasable profile first count = .ok () ↔
      table.Accepts profile first count := by
  unfold Accepts
  cases profile with
  | release => simp
  | debug =>
      simp only [reduceCtorEq, false_or]
      constructor
      · intro passed
        by_contra refused
        rcases assertReleasable_debug_of_not small refused with
          ⟨fault, stopped⟩
        rw [stopped] at passed
        cases passed
      · exact assertReleasable_debug_of small

/-- A release whose assertions hold gives the frames back. -/
theorem release_of_assert
    {profile : Profile} {table : FrameTable} {first count : Nat}
    (small : table.bitmap.bits < wordCount)
    (asserted : table.assertReleasable profile first count = .ok ()) :
    release profile first count table = .ok () (table.giveBack first count) := by
  have ran :
      onBitmap
          (Bitmap.releaseFrom profile (releaseStart first)
            (table.releaseCount first count) 0) table =
        .ok
          (table.bitmap.held (releaseStart first)
            (table.releaseCount first count)).card
          { table with
            bitmap :=
              table.bitmap.putRange false (releaseStart first)
                (table.releaseCount first count) } := by
    by_cases none : table.releaseCount first count = 0
    · rw [none]
      simp [onBitmap, Action.focus, Bitmap.releaseFrom, Bitmap.putRange,
        Bitmap.held, pure, EStateM.pure]
    · have inside :
          releaseStart first + table.releaseCount first count ≤
            table.bitmap.bits := by
        unfold releaseCount at none ⊢
        omega
      have released :=
        Bitmap.releaseFrom_of_le profile 0 inside (by omega)
      rw [Nat.zero_add] at released
      exact Action.focus_of_ok released
  unfold release
  rw [Action.bind_get, Action.bind_lift_of_ok asserted]
  exact Action.bind_of_ok ran

theorem release_of_assert_error
    {profile : Profile} {table : FrameTable} {first count : Nat}
    {fault : Fault}
    (asserted : table.assertReleasable profile first count = .error fault) :
    release profile first count table = .error fault table := by
  unfold release
  rw [Action.bind_get, Action.bind_lift_of_error asserted]

/-! ## The frames whose bits are cleared -/

/-- A release clears the bit of this frame, as far as the bitmap reaches. -/
def Names (first count frame : Nat) : Prop :=
  releaseStart first ≤ frame ∧ frame < runStop first count

instance (first count frame : Nat) : Decidable (Names first count frame) :=
  inferInstanceAs (Decidable (_ ∧ _))

theorem names_iff
    {first count : Nat} (small : first + count < wordCount) (frame : Nat) :
    Names first count frame ↔
      frame ≠ 0 ∧ first ≤ frame ∧ frame < first + count := by
  unfold Names releaseStart runStop
  omega

/-- The frames whose bits a release clears, and that it counts. -/
def released (table : FrameTable) (first count : Nat) : Finset Nat :=
  table.bitmap.held (releaseStart first) (table.releaseCount first count)

theorem usedPages_giveBack (table : FrameTable) (first count : Nat) :
    (table.giveBack first count).usedPages =
      table.usedPages - (table.released first count).card := rfl

theorem cursor_giveBack (table : FrameTable) (first count : Nat) :
    (table.giveBack first count).cursor =
      if first < table.cursor then first else table.cursor := rfl

@[simp]
theorem bits_giveBack (table : FrameTable) (first count : Nat) :
    (table.giveBack first count).bitmap.bits = table.bitmap.bits := by
  simp [giveBack]

@[simp]
theorem size_bytes_giveBack (table : FrameTable) (first count : Nat) :
    (table.giveBack first count).bitmap.bytes.size =
      table.bitmap.bytes.size := by
  simp [giveBack]

theorem bufferBit_giveBack (table : FrameTable) (first count index : Nat) :
    Bitmap.bufferBit (table.giveBack first count).bitmap.bytes index =
      if Names first count index ∧ index < table.bitmap.bits then
        false
      else
        Bitmap.bufferBit table.bitmap.bytes index := by
  have covered :
      (releaseStart first ≤ index ∧
          index < releaseStart first + table.releaseCount first count ∧
            index < table.bitmap.bits) ↔
        Names first count index ∧ index < table.bitmap.bits := by
    unfold Names releaseCount
    omega
  rw [giveBack, Bitmap.bufferBit_putRange, if_congr covered rfl rfl]

theorem bit_giveBack (table : FrameTable) (first count frame : Nat) :
    (table.giveBack first count).bitmap.bit frame =
      if Names first count frame then
        false
      else
        table.bitmap.bit frame := by
  rw [Bitmap.bit_eq, Bitmap.bit_eq, bits_giveBack, bufferBit_giveBack]
  by_cases inside : frame < table.bitmap.bits
  · simp [inside]
  · simp [inside]

theorem bit_giveBack_of_names
    {first count frame : Nat} (table : FrameTable)
    (named : Names first count frame) :
    (table.giveBack first count).bitmap.bit frame = false := by
  rw [bit_giveBack, if_pos named]

theorem bit_giveBack_of_not_names
    {first count frame : Nat} (table : FrameTable)
    (other : ¬ Names first count frame) :
    (table.giveBack first count).bitmap.bit frame =
      table.bitmap.bit frame := by
  rw [bit_giveBack, if_neg other]

theorem mem_released {table : FrameTable} {first count frame : Nat} :
    frame ∈ table.released first count ↔
      Names first count frame ∧ table.bitmap.bit frame = true := by
  have reach : table.bitmap.bit frame = true → frame < table.bitmap.bits := by
    rw [Bitmap.bit_eq, Bool.and_eq_true, decide_eq_true_iff]
    exact And.left
  rw [released, Bitmap.held, Finset.mem_filter, Finset.mem_Ico]
  unfold Names releaseCount
  constructor
  · rintro ⟨⟨lower, upper⟩, used⟩
    exact ⟨⟨lower, by omega⟩, used⟩
  · rintro ⟨⟨lower, upper⟩, used⟩
    have inside := reach used
    exact ⟨⟨lower, by omega⟩, used⟩

end BootMemory.FrameTable
