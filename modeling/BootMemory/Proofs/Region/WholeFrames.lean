import BootMemory.Proofs.Region

/-!
# What is told of whole frames

Of a region the frames that lie between its base and its end are told, as a span
of bytes and as a number.  The base is rounded up to a frame boundary for that.
Above the last boundary that is a 64-bit number there is none to round up to:
the debug profile stops, and release takes zero for it, so that a region of a
few bytes is told to hold almost all of memory.

`Region.tellsFrames_iff` says that nothing else goes wrong, for any base and any
length, ends beyond the 64-bit range included.  `Sample.lastBytes` is a region
beyond the last boundary.
-/

namespace BootMemory

namespace Region

/-- A frame lies between the base of a region and its end. -/
def Encloses (region : Region) (frame : Nat) : Prop :=
  region.base.toNat ≤ frame * frameSize ∧
    (frame + 1) * frameSize ≤ region.stop

/-- A span holds the bytes of the enclosed frames and no others. -/
structure Spans (region : Region) (span : Span) : Prop where
  first_aligned : frameSize ∣ span.first
  stop_aligned : frameSize ∣ span.stop
  mem_iff : ∀ byte,
    (span.first ≤ byte ∧ byte < span.stop) ↔
      region.Encloses (byte / frameSize)
  empty : (∀ frame, ¬ region.Encloses frame) → span.first = span.stop

/-- The enclosed frames are told, as a span and as a number. -/
structure TellsFrames (profile : Profile) (region : Region) : Prop where
  spanned : ∃ span, region.wholeFrames profile = .ok span ∧ region.Spans span
  counted : ∃ frames : Finset Nat,
    (∀ frame, frame ∈ frames ↔ region.Encloses frame) ∧
      region.pageCount profile = .ok frames.card ∧
        frames.card ≤ region.length.toNat / frameSize

variable {profile : Profile} {region : Region}

theorem encloses_iff {frame : Nat} :
    region.Encloses frame ↔
      framesFor region.base.toNat ≤ frame ∧
        frame < region.stop / frameSize := by
  simp only [Encloses, framesFor, frameSize]
  omega

/-! ## Below the last frame boundary -/

/-- The base rounded up and the end rounded down enclose the frames between. -/
theorem spans_rounded (region : Region) :
    region.Spans
      ⟨framesFor region.base.toNat * frameSize,
        max (framesFor region.base.toNat * frameSize)
          (region.stop / frameSize * frameSize)⟩ where
  first_aligned := Nat.dvd_mul_left _ _
  stop_aligned := by
    dsimp only
    rw [Nat.mul_max_mul_right]
    exact Nat.dvd_mul_left _ _
  mem_iff := by
    intro byte
    rw [encloses_iff]
    simp only [frameSize]
    omega
  empty := by
    intro none
    have missing := none (framesFor region.base.toNat)
    rw [encloses_iff] at missing
    simp only [frameSize] at missing ⊢
    omega

theorem Rounds.tellsFrames
    (rounds : region.Rounds) (profile : Profile) :
    region.TellsFrames profile where
  spanned := ⟨_, rounds.wholeFrames_eq profile, spans_rounded region⟩
  counted := by
    refine
      ⟨Finset.Ico (framesFor region.base.toNat) (region.stop / frameSize),
        ?_, ?_, ?_⟩
    · intro frame
      rw [Finset.mem_Ico, encloses_iff]
    · rw [rounds.pageCount_eq profile, Nat.card_Ico]
    · rw [Nat.card_Ico]
      simp only [framesFor, stop, frameSize]
      omega

/-! ## Beyond the last frame boundary -/

/-- The number of frames that the base is rounded up to. -/
theorem framesFor_base_of_not_rounds (beyond : ¬ region.Rounds) :
    framesFor region.base.toNat * frameSize = wordCount := by
  have bound := region.base.toNat_lt
  simp only [Rounds, framesFor, frameSize, wordCount] at *
  omega

theorem wholeFrames_debug_of_not_rounds (beyond : ¬ region.Rounds) :
    region.wholeFrames .debug = .error .multiplyOverflow := by
  have stopped :
      Profile.debug.mul (framesFor region.base.toNat) frameSize =
        .error .multiplyOverflow :=
    Profile.fit_debug_of_le _ (framesFor_base_of_not_rounds beyond).ge
  rw [wholeFrames, stopped]
  rfl

theorem wholeFrames_release_of_not_rounds (beyond : ¬ region.Rounds) :
    region.wholeFrames .release = .ok ⟨0, wordCount - frameSize⟩ := by
  have wrapped :
      Profile.release.mul (framesFor region.base.toNat) frameSize = .ok 0 := by
    rw [Profile.mul, Profile.fit, framesFor_base_of_not_rounds beyond]
    rfl
  have last : region.stop / frameSize * frameSize = wordCount - frameSize := by
    have bound := region.base.toNat_lt
    simp only [Rounds, stop, frameSize, wordCount] at *
    omega
  rw [wholeFrames, wrapped]
  simp only [bind, Except.bind, last]
  rfl

/--
The whole frames of a region are told, in either profile, exactly if its base
can be rounded up to a frame boundary.
-/
theorem tellsFrames_iff (profile : Profile) (region : Region) :
    region.TellsFrames profile ↔ region.base.toNat ≤ wordCount - frameSize := by
  constructor
  · intro tells
    by_contra beyond
    rcases tells.spanned with ⟨span, told, spans⟩
    cases profile with
    | debug =>
        rw [wholeFrames_debug_of_not_rounds beyond] at told
        cases told
    | release =>
        rw [wholeFrames_release_of_not_rounds beyond] at told
        cases told
        have enclosed := (spans.mem_iff 0).mp ⟨Nat.le_refl 0, by decide⟩
        have start := enclosed.1
        simp only [frameSize] at start beyond
        omega
  · intro rounds
    exact Rounds.tellsFrames rounds profile

end Region

namespace Sample

/-- A region that runs over the end of the 64-bit range. -/
def endlessRegion : Region := ⟨0x1800, 0xffffffffffffffff, .usable⟩

/-- All but the first two frames and the last one are told. -/
theorem endless_tellsFrames :
    endlessRegion.base.toNat ≤ wordCount - frameSize ∧
      endlessRegion.TellsFrames .release := by
  have rounds : endlessRegion.base.toNat ≤ wordCount - frameSize := by decide
  exact ⟨rounds, (Region.tellsFrames_iff .release endlessRegion).mpr rounds⟩

/-- The bytes beyond the last frame boundary, without the very last one. -/
def lastBytes : Region := ⟨0xfffffffffffff001, 4094, .usable⟩

/-- A region without a frame of its own is told to hold nearly all memory. -/
theorem not_every_region_tellsFrames :
    ¬ ∀ (profile : Profile) (region : Region), region.TellsFrames profile := by
  intro tells
  rcases (tells .release lastBytes).spanned with ⟨span, told, spans⟩
  have beyond : ¬ lastBytes.Rounds := by
    unfold Region.Rounds
    decide
  rw [Region.wholeFrames_release_of_not_rounds beyond] at told
  cases told
  have enclosed := (spans.mem_iff 4096).mp (by decide)
  revert enclosed
  unfold Region.Encloses
  decide

end Sample

end BootMemory
