import BootMemory.Proofs.Frames.Ownership

/-!
# Whether the page counts are right

The used pages are counted from the sizes of regions and of the bitmap, while
the clear bits come from the frames that are left.  The two agree on every
ledger of a contract-keeping run, or on none: `Reachable.books_iff_seated` says
that the counts are right exactly if the bitmap, moved up to a frame boundary,
would still fit the region that holds it.  Otherwise one page too many is
counted as used.

Where the bitmap starts at a frame boundary the counts are always right.
`Sample.crowdedMap` is a map on which they are not.
-/

namespace BootMemory

namespace Machine

variable {offset : UInt64} {map : List Region} {machine : Machine}

/-- The counts are ordered, and the free pages are the clear frames. -/
structure BooksRight (machine : Machine) : Prop where
  used_le : machine.stats.usedPages ≤ machine.stats.usablePages
  usable_le : machine.stats.usablePages ≤ machine.stats.totalPages
  free_eq : machine.stats.freePages = machine.clearFrames.card

/-- A bitmap at a frame boundary fits its region where it is. -/
theorem FitsMap.seated_of_aligned
    (fits : machine.FitsMap offset map)
    (aligned : machine.place offset % frameSize = 0) :
    machine.Seated offset map := by
  rcases fits.hosted with ⟨region, member, usable, lower, upper⟩
  refine ⟨region, member, usable, lower, ?_⟩
  simp only [framesFor, frameSize] at aligned ⊢
  omega

/-- The counts are right exactly if they balance the frames of memory. -/
theorem FitsMap.booksRight_iff
    (fits : machine.FitsMap offset map) :
    machine.BooksRight ↔
      machine.balance = Region.pagesWhere Region.isRam map := by
  have total := fits.total_eq
  have usable := fits.usable_eq
  constructor
  · rintro ⟨usedLe, -, freeEq⟩
    simp only [stats, Allocator.stats, Stats.freePages] at usedLe freeEq
    unfold balance
    omega
  · intro balanced
    unfold balance at balanced
    constructor
    · simp only [stats, Allocator.stats]
      omega
    · simp only [stats, Allocator.stats]
      omega
    · simp only [stats, Allocator.stats, Stats.freePages]
      omega

end Machine

namespace Ledger

variable {offset : UInt64} {map : List Region} {ledger : Ledger}

/--
The counts are right throughout a run exactly if the bitmap could be moved up
to a frame boundary; if not, they are one page off throughout.
-/
theorem Reachable.books_iff_seated
    {profile : Profile} (mapSound : SoundMap map)
    (reaches : DirectMap.Reaches ⟨offset⟩ map)
    (reachable : Reachable profile offset map ledger) :
    (ledger.machine.BooksRight ↔ ledger.machine.Seated offset map) ∧
      (¬ ledger.machine.Seated offset map →
        ledger.machine.stats.usablePages = ledger.machine.stats.totalPages ∧
          ledger.machine.stats.usedPages + ledger.machine.clearFrames.card =
            ledger.machine.stats.usablePages + 1) := by
  have account := reachable.accounted mapSound reaches
  have criterion := account.fits.booksRight_iff
  have total := account.fits.total_eq
  have usable := account.fits.usable_eq
  constructor
  · rw [criterion]
    constructor
    · intro balanced
      by_contra crowded
      have off := account.balance_crowded crowded
      omega
    · exact account.balance_seated
  · intro crowded
    have off := account.balance_crowded crowded
    unfold Machine.balance at off
    constructor
    · exact usable.trans total.symm
    · simp only [Machine.stats, Allocator.stats]
      omega

end Ledger

namespace Sample

/-- A region that reaches over two frames and holds neither entirely. -/
def crowdedMap : List Region := [⟨6144, 4096, .usable⟩]

/-- The bitmap takes up all of the region. -/
def crowdedHost : Host := ⟨[], ⟨6144, 4096, .usable⟩, []⟩

theorem crowdedMap_sound : SoundMap crowdedMap :=
  .of_sorted (by decide) (by decide)

theorem crowdedMap_reaches : DirectMap.Reaches ⟨offset⟩ crowdedMap :=
  reaches_of_low (by decide)

theorem crowdedMap_found :
    Host.find (Boot.bitmapFrames crowdedMap * frameSize)
      (crowdedMap.map Region.pastFrameZero) = some crowdedHost := by
  have frames : Boot.bitmapFrames crowdedMap = 1 := by decide
  rw [frames]
  rfl

/-- One page is in use of none that there are. -/
theorem exists_crowded :
    ∃ ledger, Ledger.Reachable .debug offset crowdedMap ledger ∧
      ledger.machine.stats.usedPages = 1 ∧
        ledger.machine.stats.usablePages = 0 := by
  rcases Ledger.Reachable.exists_start .debug crowdedMap_sound
    crowdedMap_reaches crowdedMap_found Memory.zero with
    ⟨ledger, reachable, -, -, books⟩
  refine ⟨ledger, reachable, ?_, ?_⟩
  · simp only [Machine.stats, books]
    decide
  · simp only [Machine.stats, books]
    decide

/-- The criterion on the sample, where the counts are wrong. -/
theorem crowded_books_iff_seated :
    SoundMap crowdedMap ∧ DirectMap.Reaches ⟨offset⟩ crowdedMap ∧
      ∃ ledger, Ledger.Reachable .debug offset crowdedMap ledger ∧
        (ledger.machine.BooksRight ↔
            ledger.machine.Seated offset crowdedMap) ∧
          (¬ ledger.machine.Seated offset crowdedMap →
            ledger.machine.stats.usablePages =
                ledger.machine.stats.totalPages ∧
              ledger.machine.stats.usedPages +
                  ledger.machine.clearFrames.card =
                ledger.machine.stats.usablePages + 1) := by
  rcases exists_crowded with ⟨ledger, reachable, -, -⟩
  exact
    ⟨crowdedMap_sound, crowdedMap_reaches, ledger, reachable,
      Ledger.Reachable.books_iff_seated crowdedMap_sound crowdedMap_reaches
        reachable⟩

/-- More pages can be counted as used than there are. -/
theorem not_every_books_right :
    ¬ ∀ (profile : Profile) (offset : UInt64) (map : List Region)
        (ledger : Ledger),
      SoundMap map → DirectMap.Reaches ⟨offset⟩ map →
        Ledger.Reachable profile offset map ledger →
          ledger.machine.BooksRight := by
  intro always
  rcases exists_crowded with ⟨ledger, reachable, used, usable⟩
  have right :=
    always .debug offset crowdedMap ledger crowdedMap_sound
      crowdedMap_reaches reachable
  have contrary := right.used_le
  rw [used, usable] at contrary
  omega

end Sample

end BootMemory
