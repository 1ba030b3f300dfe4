import BootMemory.Proofs.Action
import BootMemory.Proofs.Region

/-!
# Taking bytes off a region

Memory is set aside by moving the base of a region forward.  Doing that twice is
doing it once with the sum, also where the region runs out of bytes, and what is
left is a suffix of the region, with the same end.

The bytes of whole frames may straddle two frames, for the base need not lie at a
frame boundary.  It moves from one frame to another at the same offset though,
so that rounding it up moves by as many frames: `framesFor_add_mul`.  Hence the
frames that the region loses are its first ones, as many as were taken or all:
`Region.consumeFront_carves`.
-/

namespace BootMemory

namespace Region

/-- A region has lost bytes at its front, at most all, and nothing else. -/
structure Shortened (region carved : Region) (bytes : Nat) : Prop where
  base_eq :
    carved.base.toNat =
      region.base.toNat + min bytes region.length.toNat
  suffix : ∀ byte,
    carved.Contains byte ↔ region.Contains byte ∧ carved.base.toNat ≤ byte
  stop_eq : carved.stop = region.stop
  kind_eq : carved.kind = region.kind

/--
The whole frames of a region are those of another one without the first `count`,
or none if it has no more than that.
-/
structure DropsFrames
    (profile : Profile) (region carved : Region) (count pages : Nat) :
    Prop where
  pages_eq : region.pageCount profile = .ok pages
  pages_left : carved.pageCount profile = .ok (pages - min count pages)
  span_left : ∃ old new,
    region.wholeFrames profile = .ok old ∧
      carved.wholeFrames profile = .ok new ∧
        (∀ byte, new.first ≤ byte ∧ byte < new.stop ↔
          old.first + min count pages * frameSize ≤ byte ∧
            byte < old.stop) ∧
          (count ≤ pages →
            new = ⟨old.first + count * frameSize, old.stop⟩)

variable {profile : Profile} {region : Region}

/-! ## Bytes -/

theorem ext_toNat {left right : Region}
    (base : left.base.toNat = right.base.toNat)
    (length : left.length.toNat = right.length.toNat)
    (kind : left.kind = right.kind) :
    left = right := by
  cases left
  cases right
  cases UInt64.toNat_inj.mp base
  cases UInt64.toNat_inj.mp length
  cases kind
  rfl

/-- Bytes that are taken off one after the other are taken off at once. -/
theorem dropFront_dropFront
    (low : region.top < wordCount) (first second : Nat) :
    (region.dropFront first).dropFront second =
      region.dropFront (first + second) := by
  have lowLeft : (region.dropFront first).top < wordCount := by
    rw [top_dropFront low]
    exact low
  apply ext_toNat
  · rw [base_dropFront lowLeft, base_dropFront low, length_dropFront,
      base_dropFront low]
    omega
  · rw [length_dropFront, length_dropFront, length_dropFront]
    omega
  · rfl

theorem consumeFront_consumeFront
    (profile : Profile) (low : region.top < wordCount) {first second : UInt64}
    (room : first.toNat + second.toNat < wordCount) :
    (region.consumeFront profile first >>= fun rest =>
        rest.consumeFront profile second) =
      region.consumeFront profile (first + second) := by
  have lowLeft : (region.dropFront first.toNat).top < wordCount := by
    rw [top_dropFront low]
    exact low
  have sum : (first + second).toNat = first.toNat + second.toNat := by
    rw [UInt64.toNat_add, Nat.mod_eq_of_lt room]
  rw [consumeFront_of_lt profile low, consumeFront_of_lt profile low, sum,
    ← dropFront_dropFront low]
  exact consumeFront_of_lt profile lowLeft second

theorem shortened_dropFront (low : region.top < wordCount) (bytes : Nat) :
    region.Shortened (region.dropFront bytes) bytes where
  base_eq := base_dropFront low bytes
  suffix := by
    intro byte
    simp only [Contains, top_dropFront low, base_dropFront low]
    omega
  stop_eq := by
    have same := top_dropFront low bytes
    unfold top at same
    rw [stop, stop, same]
  kind_eq := rfl

/-! ## Frames -/

/-- Taking whole frames off moves the rounded base by as many frames. -/
theorem framesFor_base_dropFront
    (low : region.top < wordCount) {count : Nat}
    (inside : count * frameSize ≤ region.length.toNat) :
    framesFor (region.dropFront (count * frameSize)).base.toNat =
      framesFor region.base.toNat + count := by
  rw [base_dropFront low, Nat.min_eq_left inside, framesFor_add_mul]

theorem dropsFrames_dropFront
    (profile : Profile) (low : region.top ≤ wordCount - frameSize) {count : Nat}
    (inside : count * frameSize ≤ region.length.toNat) :
    region.DropsFrames profile (region.dropFront (count * frameSize)) count
      (region.stop / frameSize - framesFor region.base.toNat) := by
  have word : region.top < wordCount := by
    simp only [frameSize, wordCount] at low ⊢
    omega
  have shortened := shortened_dropFront word (count * frameSize)
  have base := framesFor_base_dropFront word inside
  have rounds : region.Rounds := by
    simp only [Rounds, top] at *
    omega
  have roundsLeft : (region.dropFront (count * frameSize)).Rounds := by
    have start := shortened.base_eq
    simp only [Rounds, top, frameSize] at *
    omega
  have whole := roundsLeft.wholeFrames_eq profile
  have counted := roundsLeft.pageCount_eq profile
  rw [base, shortened.stop_eq] at whole counted
  refine
    ⟨rounds.pageCount_eq profile, ?_, _, _, rounds.wholeFrames_eq profile,
      whole, ?_, ?_⟩
  · rw [counted, Except.ok.injEq]
    omega
  · intro byte
    dsimp only
    simp only [frameSize]
    omega
  · intro enough
    rw [Span.mk.injEq]
    simp only [frameSize] at *
    omega

/--
Taking bytes off the front of a region composes and leaves a suffix of it; for
the bytes of whole frames, these are the frames that it loses.
-/
theorem consumeFront_carves
    (profile : Profile) {region : Region}
    (low : region.top ≤ wordCount - frameSize) :
    (∀ first second : UInt64, first.toNat + second.toNat < wordCount →
      (region.consumeFront profile first >>= fun rest =>
          rest.consumeFront profile second) =
        region.consumeFront profile (first + second)) ∧
    ∀ bytes : UInt64, ∃ carved,
      region.consumeFront profile bytes = .ok carved ∧
        region.Shortened carved bytes.toNat ∧
          ∀ count, bytes.toNat = count * frameSize → bytes ≤ region.length →
            ∃ pages, region.DropsFrames profile carved count pages := by
  have word : region.top < wordCount := by
    simp only [frameSize, wordCount] at low ⊢
    omega
  constructor
  · intro first second room
    exact consumeFront_consumeFront profile word room
  · intro bytes
    refine
      ⟨_, consumeFront_of_lt profile word bytes,
        shortened_dropFront word bytes.toNat, ?_⟩
    intro count whole inside
    rw [UInt64.le_iff_toNat_le, whole] at inside
    rw [whole]
    exact ⟨_, dropsFrames_dropFront profile low inside⟩

end Region

namespace Sample

/-- Two frames of bytes that straddle three frames, and hold one of them. -/
def straddlingRegion : Region := ⟨0x1800, 0x2000, .usable⟩

/-- Taking more bytes than there are, in two steps, and two frames at once. -/
theorem straddling_carves :
    straddlingRegion.top ≤ wordCount - frameSize ∧
    (straddlingRegion.consumeFront .debug 0x1000 >>= fun rest =>
        rest.consumeFront .debug 0x1800) =
      straddlingRegion.consumeFront .debug 0x2800 ∧
    ∃ carved,
      straddlingRegion.consumeFront .debug 0x2000 = .ok carved ∧
        straddlingRegion.DropsFrames .debug carved 2 1 := by
  have low : straddlingRegion.top ≤ wordCount - frameSize := by
    unfold Region.top
    decide
  rcases Region.consumeFront_carves .debug low with ⟨composes, carves⟩
  rcases carves 0x2000 with ⟨carved, taken, -, drops⟩
  rcases drops 2 (by decide) (by decide) with ⟨pages, dropped⟩
  have rounds : straddlingRegion.Rounds := by
    unfold Region.Rounds
    decide
  have one : pages = 1 := by
    have told := dropped.pages_eq
    rw [rounds.pageCount_eq .debug, Except.ok.injEq] at told
    rw [← told]
    decide
  exact
    ⟨low, composes 0x1000 0x1800 (by decide), carved, taken, one ▸ dropped⟩

end Sample

end BootMemory
