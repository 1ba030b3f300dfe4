import BootMemory.Frames.Table
import BootMemory.Proofs.Bitmap

/-!
# Searching for free frames

A search succeeds with the first run of free frames that lies between its start
and its limit, and fails only if there is none.  The loop invariant is
`Scanned`: the clear bits directly before the cursor are counted, and no run
starts further back.

`claimRun_outcome` puts the two searches of a request together.  The second one
stops at the cursor and knows nothing of the bits counted before it, so a run
is overlooked exactly if it starts below the cursor and ends above it.
-/

namespace BootMemory

/-- All of `count` frames from `first` on are free. -/
def Bitmap.FreeRun (bitmap : Bitmap) (first count : Nat) : Prop :=
  ∀ frame, first ≤ frame → frame < first + count → bitmap.bit frame = false

/-- No run of `count` free frames lies between two frames. -/
def Bitmap.NoRun (bitmap : Bitmap) (count start stop : Nat) : Prop :=
  ∀ first, start ≤ first → first + count ≤ stop → ¬ bitmap.FreeRun first count

/-- The first run of `count` free frames between two frames. -/
structure Bitmap.FirstRun
    (bitmap : Bitmap) (count start stop first : Nat) : Prop where
  start_le : start ≤ first
  le_stop : first + count ≤ stop
  free : bitmap.FreeRun first count
  least : ∀ earlier, start ≤ earlier → earlier < first →
    ¬ bitmap.FreeRun earlier count

namespace FrameTable

/-! ## One search -/

/-- The state of a search from `start` on that has reached a cursor. -/
structure Scanned
    (bitmap : Bitmap) (count start cursor run : Nat) : Prop where
  short : run < count
  within : start + run ≤ cursor
  clear : ∀ frame, cursor - run ≤ frame → frame < cursor →
    bitmap.bit frame = false
  missed : ∀ first, start ≤ first → first < cursor - run →
    ¬ bitmap.FreeRun first count

theorem Scanned.begin
    (bitmap : Bitmap) {count : Nat} (positive : 0 < count) (start : Nat) :
    Scanned bitmap count start start 0 where
  short := positive
  within := Nat.le_refl _
  clear := by
    intro frame lower upper
    omega
  missed := by
    intro first lower upper
    omega

/-- A used frame ends the count: no run can contain it. -/
theorem Scanned.used
    {bitmap : Bitmap} {count start cursor run : Nat}
    (scanned : Scanned bitmap count start cursor run)
    (used : bitmap.bit cursor = true) :
    Scanned bitmap count start (cursor + 1) 0 where
  short := Nat.zero_lt_of_lt scanned.short
  within := by
    have within := scanned.within
    omega
  clear := by
    intro frame lower upper
    omega
  missed := by
    intro first lower upper free
    by_cases behind : first < cursor - run
    · exact scanned.missed first lower behind free
    · have short := scanned.short
      have contrary := free cursor (by omega) (by omega)
      rw [used] at contrary
      cases contrary

/-- A free frame that leaves the run too short is counted. -/
theorem Scanned.extend
    {bitmap : Bitmap} {count start cursor run : Nat}
    (scanned : Scanned bitmap count start cursor run)
    (free : bitmap.bit cursor = false) (short : run + 1 < count) :
    Scanned bitmap count start (cursor + 1) (run + 1) where
  short := short
  within := by
    have within := scanned.within
    omega
  clear := by
    intro frame lower upper
    by_cases last : frame = cursor
    · rw [last]
      exact free
    · exact scanned.clear frame (by omega) (by omega)
  missed := by
    intro first lower upper
    exact scanned.missed first lower (by omega)

/-- A free frame that completes the run yields the first run there is. -/
theorem Scanned.complete
    {bitmap : Bitmap} {count start cursor run stop : Nat}
    (scanned : Scanned bitmap count start cursor run)
    (free : bitmap.bit cursor = false) (full : run + 1 = count)
    (inside : cursor < stop) :
    bitmap.FirstRun count start stop (cursor + 1 - count) := by
  have within := scanned.within
  refine ⟨by omega, by omega, ?_, ?_⟩
  · intro frame lower upper
    by_cases last : frame = cursor
    · rw [last]
      exact free
    · exact scanned.clear frame (by omega) (by omega)
  · intro earlier lower upper
    exact scanned.missed earlier lower (by omega)

theorem Scanned.exhausted
    {bitmap : Bitmap} {count start cursor run : Nat}
    (scanned : Scanned bitmap count start cursor run) :
    bitmap.NoRun count start cursor := by
  intro first lower upper
  have short := scanned.short
  exact scanned.missed first lower (by omega)

/-- A search yields the first run up to its limit, or there is none. -/
theorem search_outcome
    (profile : Profile) {bitmap : Bitmap}
    {count start cursor run : Nat} (remaining : Nat)
    (scanned : Scanned bitmap count start cursor run)
    (inside : cursor + remaining ≤ bitmap.bits)
    (small : bitmap.bits < wordCount) :
    (∃ first,
      bitmap.FirstRun count start (cursor + remaining) first ∧
        search profile bitmap count cursor remaining run =
          .ok (some first, first + count)) ∨
    (bitmap.NoRun count start (cursor + remaining) ∧
      search profile bitmap count cursor remaining run =
        .ok (none, cursor + remaining)) := by
  induction remaining generalizing cursor run with
  | zero => exact Or.inr ⟨scanned.exhausted, rfl⟩
  | succ remaining inductionHypothesis =>
      have within := scanned.within
      have readable : cursor < bitmap.bits := by omega
      have advanced : profile.add cursor 1 = .ok (cursor + 1) :=
        profile.add_of_lt (by omega)
      have counted : profile.add run 1 = .ok (run + 1) :=
        profile.add_of_lt (by omega)
      have shifted : cursor + 1 + remaining = cursor + (remaining + 1) := by
        omega
      have rest : cursor + 1 + remaining ≤ bitmap.bits := by omega
      simp only [search, advanced, Bitmap.get_of_lt profile readable, counted,
        bind, Except.bind]
      rw [← shifted]
      cases bit : bitmap.bit cursor with
      | true => exact inductionHypothesis (scanned.used bit) rest
      | false =>
          by_cases full : run + 1 = count
          · have placed :
                profile.sub (cursor + 1) count = .ok (cursor + 1 - count) :=
              profile.sub_of_le (by omega) (by omega)
            have found :=
              scanned.complete bit full
                (by omega : cursor < cursor + 1 + remaining)
            have reached : cursor + 1 - count + count = cursor + 1 := by omega
            refine Or.inl ⟨cursor + 1 - count, found, ?_⟩
            simp [full, placed, reached, pure, Except.pure]
          · have short := scanned.short
            have longer := scanned.extend bit (by omega)
            simpa [full] using inductionHypothesis longer rest

/-! ## Claiming a run -/

/-- The table with a run marked as used and the cursor behind it. -/
def claim (table : FrameTable) (first count : Nat) : FrameTable :=
  { table with
    bitmap := table.bitmap.putRange true first count
    cursor := first + count }

theorem scan_outcome
    (profile : Profile) (table : FrameTable) {count limit : Nat}
    (positive : 0 < count) (ordered : table.cursor ≤ limit)
    (inside : limit ≤ table.bitmap.bits)
    (small : table.bitmap.bits < wordCount) :
    (∃ first,
      table.bitmap.FirstRun count table.cursor limit first ∧
        scan profile count limit table =
          .ok (some first) (table.claim first count)) ∨
    (table.bitmap.NoRun count table.cursor limit ∧
      scan profile count limit table =
        .ok none { table with cursor := limit }) := by
  have reach : table.cursor + (limit - table.cursor) = limit := by omega
  have outcome :=
    search_outcome profile (limit - table.cursor)
      (Scanned.begin table.bitmap positive table.cursor) (by omega) small
  rw [reach] at outcome
  rcases outcome with ⟨first, found, searched⟩ | ⟨none, searched⟩
  · refine Or.inl ⟨first, found, ?_⟩
    have stop := found.le_stop
    have marked :
        Bitmap.writeRange profile true first (first + count) table.bitmap =
          .ok () (table.bitmap.putRange true first (first + count - first)) :=
      Bitmap.writeRange_of_le profile true (by omega) (by omega)
    rw [Nat.add_sub_cancel_left] at marked
    unfold scan
    rw [Action.bind_get, Action.bind_lift_of_ok searched]
    dsimp only
    rw [Action.bind_set]
    have ran :
        onBitmap (Bitmap.setRange profile first (first + count))
            { table with cursor := first + count } =
          .ok () (table.claim first count) :=
      Action.focus_of_ok marked
    rw [Action.bind_of_ok ran]
    rfl
  · refine Or.inr ⟨none, ?_⟩
    unfold scan
    rw [Action.bind_get, Action.bind_lift_of_ok searched]
    rfl

/--
A request takes the first run from the cursor on; failing that, the first run
that ends at or before the cursor; failing that, nothing.
-/
theorem claimRun_outcome
    (profile : Profile) (table : FrameTable) {count : Nat}
    (positive : 0 < count) (ordered : table.cursor ≤ table.scanLimit)
    (small : table.bitmap.bits < wordCount) :
    (∃ first,
      table.bitmap.FirstRun count table.cursor table.scanLimit first ∧
        claimRun profile count table =
          .ok ⟨some first, false⟩ (table.claim first count)) ∨
    (table.bitmap.NoRun count table.cursor table.scanLimit ∧
      ((∃ first,
        table.bitmap.FirstRun count 0 table.cursor first ∧
          claimRun profile count table =
            .ok ⟨some first, true⟩ (table.claim first count)) ∨
      (table.bitmap.NoRun count 0 table.cursor ∧
        claimRun profile count table = .ok ⟨none, true⟩ table))) := by
  have limit : table.scanLimit ≤ table.bitmap.bits := Nat.min_le_right _ _
  rcases scan_outcome profile table positive ordered limit small with
    ⟨first, found, scanned⟩ | ⟨missing, scanned⟩
  · refine Or.inl ⟨first, found, ?_⟩
    unfold claimRun
    rw [Action.bind_get, Action.bind_of_ok scanned]
    rfl
  · refine Or.inr ⟨missing, ?_⟩
    have again :=
      scan_outcome profile { table with cursor := 0 } positive
        (Nat.zero_le table.cursor) (Nat.le_trans ordered limit) small
    rcases again with ⟨first, found, rescanned⟩ | ⟨absent, rescanned⟩
    · refine Or.inl ⟨first, found, ?_⟩
      unfold claimRun
      rw [Action.bind_get, Action.bind_of_ok scanned]
      dsimp only
      rw [Action.bind_modify, Action.bind_of_ok rescanned]
      rfl
    · refine Or.inr ⟨absent, ?_⟩
      unfold claimRun
      rw [Action.bind_get, Action.bind_of_ok scanned]
      dsimp only
      rw [Action.bind_modify, Action.bind_of_ok rescanned]
      rfl

end FrameTable

end BootMemory
