import BootMemory.Region
import Mathlib.Algebra.BigOperators.Group.List.Basic
import Mathlib.Order.Interval.Finset.Nat

/-!
# Regions as sets of bytes and of frames

A region is described by the bytes that it contains and by `Region.frames`, the
frames that lie in it entirely.  Both are given by exact natural numbers; for a
region that ends at or below `physicalLimit` the 64-bit operations of the memory
map compute them without overflow, in either profile.

`SoundMap` is what a boot loader promises of a memory map: its regions share no
byte and end at or below `physicalLimit`.  The frames of disjoint regions are
disjoint, so frames of a whole map are counted region by region.
-/

namespace BootMemory

namespace Region

/-- The end of a region as an exact number. -/
def top (region : Region) : Nat := region.base.toNat + region.length.toNat

/-- A byte of physical memory lies in a region. -/
def Contains (region : Region) (byte : Nat) : Prop :=
  region.base.toNat ≤ byte ∧ byte < region.top

/-- A frame lies in a region entirely. -/
def HoldsFrame (region : Region) (frame : Nat) : Prop :=
  region.base.toNat ≤ frame * frameSize ∧
    (frame + 1) * frameSize ≤ region.top

instance (region : Region) (frame : Nat) :
    Decidable (region.HoldsFrame frame) :=
  inferInstanceAs (Decidable (_ ∧ _))

/-- Two regions share no byte. -/
def Separate (left right : Region) : Prop :=
  ∀ byte, left.Contains byte → ¬ right.Contains byte

/-- Every byte of a region lies in another one. -/
def Within (inner outer : Region) : Prop :=
  ∀ byte, inner.Contains byte → outer.Contains byte

/-- The frames that lie in a region entirely. -/
def frames (region : Region) : Finset Nat :=
  Finset.Ico (framesFor region.base.toNat) (region.top / frameSize)

theorem Separate.symm {left right : Region} (separate : left.Separate right) :
    right.Separate left :=
  fun byte inRight inLeft => separate byte inLeft inRight

/-- Regions one after the other share no byte. -/
theorem Separate.of_le {left right : Region}
    (ordered : left.top ≤ right.base.toNat) : left.Separate right := by
  intro byte inLeft inRight
  have upper := inLeft.2
  have lower := inRight.1
  omega

theorem Separate.mono
    {left right innerLeft innerRight : Region}
    (separate : left.Separate right)
    (leftWithin : innerLeft.Within left)
    (rightWithin : innerRight.Within right) :
    innerLeft.Separate innerRight := by
  intro byte inLeft inRight
  exact separate byte (leftWithin byte inLeft) (rightWithin byte inRight)

@[simp]
theorem mem_frames {region : Region} {frame : Nat} :
    frame ∈ region.frames ↔ region.HoldsFrame frame := by
  simp only [frames, HoldsFrame, Finset.mem_Ico, framesFor, frameSize]
  omega

theorem card_frames (region : Region) :
    region.frames.card =
      region.top / frameSize - framesFor region.base.toNat := by
  simp [frames]

/-- A frame that lies in a region has all its bytes there. -/
theorem HoldsFrame.contains
    {region : Region} {frame byte : Nat} (holds : region.HoldsFrame frame)
    (inside : byte / frameSize = frame) :
    region.Contains byte := by
  simp only [HoldsFrame, Contains, frameSize] at *
  omega

/-- A frame that is not beside a stretch of bytes shares a byte with it. -/
theorem exists_shared_byte
    {place length frame : Nat} (positive : 0 < length)
    (meets :
      ¬ ((frame + 1) * frameSize ≤ place ∨
        place + length ≤ frame * frameSize)) :
    ∃ byte, byte / frameSize = frame ∧ place ≤ byte ∧
      byte < place + length := by
  refine ⟨max place (frame * frameSize), ?_, ?_, ?_⟩
  · simp only [frameSize] at meets ⊢
    omega
  · exact Nat.le_max_left _ _
  · simp only [frameSize] at meets ⊢
    omega

theorem Separate.disjoint_frames
    {left right : Region} (separate : left.Separate right) :
    Disjoint left.frames right.frames := by
  rw [Finset.disjoint_left]
  intro frame inLeft inRight
  have start : frame * frameSize / frameSize = frame := by
    simp [frameSize]
  exact separate (frame * frameSize)
    ((mem_frames.mp inLeft).contains start)
    ((mem_frames.mp inRight).contains start)

/-! ## The operations of the memory map -/

theorem stop_eq_top {region : Region} (low : region.top ≤ physicalLimit) :
    region.stop = region.top := by
  unfold stop top at *
  simp only [wordCount, physicalLimit] at low ⊢
  omega

/-- The first frame boundary from the base on is a 64-bit number. -/
def Rounds (region : Region) : Prop :=
  region.base.toNat ≤ wordCount - frameSize

theorem rounds_of_le {region : Region} (low : region.top ≤ physicalLimit) :
    region.Rounds := by
  simp only [Rounds, top, frameSize, wordCount, physicalLimit] at *
  omega

theorem Rounds.framesFor_mul_lt {region : Region} (rounds : region.Rounds) :
    framesFor region.base.toNat * frameSize < wordCount := by
  simp only [Rounds, framesFor, frameSize, wordCount] at *
  omega

theorem Rounds.wholeFrames_eq
    (profile : Profile) {region : Region} (rounds : region.Rounds) :
    region.wholeFrames profile =
      .ok
        ⟨framesFor region.base.toNat * frameSize,
          max (framesFor region.base.toNat * frameSize)
            (region.stop / frameSize * frameSize)⟩ := by
  have product := profile.mul_of_lt rounds.framesFor_mul_lt
  simp only [wholeFrames, product, bind, Except.bind, pure, Except.pure]
  split
  · rename_i nonempty
    rw [Nat.max_eq_right (Nat.le_of_lt nonempty)]
  · rename_i empty
    rw [Nat.max_eq_left (Nat.le_of_not_lt empty)]

theorem Rounds.pageCount_eq
    (profile : Profile) {region : Region} (rounds : region.Rounds) :
    region.pageCount profile =
      .ok (region.stop / frameSize - framesFor region.base.toNat) := by
  have start := rounds.framesFor_mul_lt
  have difference :
      profile.sub
          (max (framesFor region.base.toNat * frameSize)
            (region.stop / frameSize * frameSize))
          (framesFor region.base.toNat * frameSize) =
        .ok
          (max (framesFor region.base.toNat * frameSize)
              (region.stop / frameSize * frameSize) -
            framesFor region.base.toNat * frameSize) := by
    apply profile.sub_of_le
    · simp only [frameSize, stop] at *
      omega
    · exact Nat.le_max_left _ _
  simp only [pageCount, rounds.wholeFrames_eq profile, difference, bind,
    Except.bind, pure, Except.pure, Except.ok.injEq, frameSize]
  omega

theorem wholeFrames_of_le
    (profile : Profile) {region : Region} (low : region.top ≤ physicalLimit) :
    region.wholeFrames profile =
      .ok
        ⟨framesFor region.base.toNat * frameSize,
          max (framesFor region.base.toNat * frameSize)
            (region.top / frameSize * frameSize)⟩ := by
  rw [(rounds_of_le low).wholeFrames_eq profile, stop_eq_top low]

theorem pageCount_of_le
    (profile : Profile) {region : Region} (low : region.top ≤ physicalLimit) :
    region.pageCount profile = .ok region.frames.card := by
  rw [(rounds_of_le low).pageCount_eq profile, stop_eq_top low, card_frames]

/-- The region without its first bytes; it is never made shorter than empty. -/
def dropFront (region : Region) (bytes : Nat) : Region :=
  { region with
    base := UInt64.ofNat (region.base.toNat + min bytes region.length.toNat)
    length := UInt64.ofNat (region.length.toNat - min bytes region.length.toNat) }

theorem base_dropFront
    {region : Region} (low : region.top < wordCount) (bytes : Nat) :
    (region.dropFront bytes).base.toNat =
      region.base.toNat + min bytes region.length.toNat := by
  simp only [dropFront, UInt64.toNat_ofNat', top, wordCount] at *
  omega

theorem length_dropFront (region : Region) (bytes : Nat) :
    (region.dropFront bytes).length.toNat =
      region.length.toNat - min bytes region.length.toNat := by
  have bound := region.length.toNat_lt
  simp only [dropFront, UInt64.toNat_ofNat']
  omega

@[simp]
theorem top_dropFront
    {region : Region} (low : region.top < wordCount) (bytes : Nat) :
    (region.dropFront bytes).top = region.top := by
  simp only [top, base_dropFront low, length_dropFront]
  omega

@[simp]
theorem kind_dropFront (region : Region) (bytes : Nat) :
    (region.dropFront bytes).kind = region.kind := rfl

@[simp]
theorem isUsable_dropFront (region : Region) (bytes : Nat) :
    (region.dropFront bytes).isUsable = region.isUsable := rfl

theorem consumeFront_of_lt
    (profile : Profile) {region : Region} (low : region.top < wordCount)
    (bytes : UInt64) :
    region.consumeFront profile bytes = .ok (region.dropFront bytes.toNat) := by
  have taken :
      (if region.length < bytes then region.length else bytes).toNat =
        min bytes.toNat region.length.toNat := by
    split
    · rename_i short
      rw [UInt64.lt_iff_toNat_lt] at short
      omega
    · rename_i long
      rw [UInt64.lt_iff_toNat_lt] at long
      omega
  have lengthBound := region.length.toNat_lt
  have base :
      profile.add region.base.toNat (min bytes.toNat region.length.toNat) =
        .ok (region.base.toNat + min bytes.toNat region.length.toNat) := by
    apply profile.add_of_lt
    simp only [top] at low
    omega
  have length :
      profile.sub region.length.toNat
          (min bytes.toNat region.length.toNat) =
        .ok
          (region.length.toNat - min bytes.toNat region.length.toNat) :=
    profile.sub_of_le lengthBound (Nat.min_le_right _ _)
  simp only [consumeFront, Profile.addWord, Profile.subWord, taken, base,
    length, Except.map, bind, Except.bind, pure, Except.pure, dropFront]

theorem dropFront_within
    {region : Region} (low : region.top < wordCount) (bytes : Nat) :
    (region.dropFront bytes).Within region := by
  intro byte inside
  simp only [Contains, base_dropFront low, top_dropFront low] at inside ⊢
  omega

/-! ## The frames of a map -/

/-- The frames that lie entirely in a selected region of a map. -/
def framesWhere (select : Region → Bool) : List Region → Finset Nat
  | [] => ∅
  | region :: map =>
      if select region then
        region.frames ∪ framesWhere select map
      else
        framesWhere select map

/-- The frames of the selected regions of a map, counted one by one. -/
def pagesWhere (select : Region → Bool) : List Region → Nat
  | [] => 0
  | region :: map =>
      (if select region then region.frames.card else 0) +
        pagesWhere select map

@[simp]
theorem mem_framesWhere
    {select : Region → Bool} {map : List Region} {frame : Nat} :
    frame ∈ framesWhere select map ↔
      ∃ region ∈ map, select region = true ∧ region.HoldsFrame frame := by
  induction map with
  | nil => simp [framesWhere]
  | cons region map inductionHypothesis =>
      by_cases selected : select region = true
      · simp [framesWhere, selected, inductionHypothesis]
      · simp [framesWhere, selected, inductionHypothesis]

/-- Regions that share no byte share no frame, so counting them is exact. -/
theorem card_framesWhere
    {map : List Region} (separate : map.Pairwise Separate)
    (select : Region → Bool) :
    (framesWhere select map).card = pagesWhere select map := by
  induction map with
  | nil => rfl
  | cons region map inductionHypothesis =>
      have parts := List.pairwise_cons.mp separate
      by_cases selected : select region = true
      · have disjoint :
            Disjoint region.frames (framesWhere select map) := by
          rw [Finset.disjoint_left]
          intro frame inRegion inRest
          rcases mem_framesWhere.mp inRest with
            ⟨other, member, -, holds⟩
          exact
            Finset.disjoint_left.mp
              (parts.1 other member).disjoint_frames inRegion
              (mem_frames.mpr holds)
        simp only [framesWhere, pagesWhere, if_pos selected,
          Finset.card_union_of_disjoint disjoint,
          inductionHypothesis parts.2]
      · simp only [framesWhere, pagesWhere, if_neg selected, Nat.zero_add,
          inductionHypothesis parts.2]

theorem pagesWhere_append
    (select : Region → Bool) (left right : List Region) :
    pagesWhere select (left ++ right) =
      pagesWhere select left + pagesWhere select right := by
  induction left with
  | nil => simp [pagesWhere]
  | cons region left inductionHypothesis =>
      simp [pagesWhere, inductionHypothesis, Nat.add_assoc]

end Region

/-- A memory map whose regions share no byte and end at or below `physicalLimit`. -/
structure SoundMap (map : List Region) : Prop where
  separate : map.Pairwise Region.Separate
  low : ∀ region ∈ map, region.top ≤ physicalLimit

namespace SoundMap

variable {map : List Region}

/-- Regions that follow one another share no byte. -/
theorem of_sorted
    (sorted : map.Pairwise fun left right => left.top ≤ right.base.toNat)
    (low : ∀ region ∈ map, region.top ≤ physicalLimit) : SoundMap map where
  separate := sorted.imp Region.Separate.of_le
  low := low

theorem tail {region : Region} (sound : SoundMap (region :: map)) :
    SoundMap map where
  separate := (List.pairwise_cons.mp sound.separate).2
  low := fun other member => sound.low other (List.mem_cons_of_mem _ member)

/-- Different positions of a map hold separate regions. -/
theorem separate_of_split
    {before after : List Region} {region other : Region}
    (sound : SoundMap (before ++ region :: after))
    (member : other ∈ before ++ after) :
    region.Separate other := by
  have parts := List.pairwise_append.mp sound.separate
  rcases List.mem_append.mp member with earlier | later
  · exact (parts.2.2 other earlier region (by simp)).symm
  · exact (List.pairwise_cons.mp parts.2.1).1 other later

/-- A byte lies in one region only. -/
theorem eq_of_contains
    (sound : SoundMap map) {left right : Region}
    (leftMember : left ∈ map) (rightMember : right ∈ map) {byte : Nat}
    (inLeft : left.Contains byte) (inRight : right.Contains byte) :
    left = right := by
  rcases List.append_of_mem leftMember with ⟨before, after, rfl⟩
  by_contra different
  have elsewhere : right ∈ before ++ after := by
    simp only [List.mem_append, List.mem_cons] at rightMember ⊢
    rcases rightMember with earlier | same | later
    · exact Or.inl earlier
    · exact absurd same.symm different
    · exact Or.inr later
  exact sound.separate_of_split elsewhere byte inLeft inRight

theorem pagesWhere_le
    (sound : SoundMap map) (select : Region → Bool) :
    Region.pagesWhere select map ≤ 2 ^ 40 := by
  have inside :
      Region.framesWhere select map ⊆ Finset.range (2 ^ 40) := by
    intro frame member
    rcases Region.mem_framesWhere.mp member with
      ⟨region, inMap, -, holds⟩
    have low := sound.low region inMap
    simp only [Region.HoldsFrame, frameSize] at holds
    rw [Finset.mem_range]
    simp only [physicalLimit] at low
    omega
  calc
    Region.pagesWhere select map = (Region.framesWhere select map).card :=
      (Region.card_framesWhere sound.separate select).symm
    _ ≤ (Finset.range (2 ^ 40)).card := Finset.card_le_card inside
    _ = 2 ^ 40 := Finset.card_range _

end SoundMap

end BootMemory
