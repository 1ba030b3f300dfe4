import BootMemory.Proofs.Frames.PostState
import Mathlib.Data.List.TakeWhile
import Mathlib.Order.Bounds.Basic

/-!
# When the allocator can be set up

On a sound map that the direct map reaches, a set-up is refused for want of
usable memory or for want of a region that can hold the bitmap, and for nothing
else.  `Boot.Answers` says which of the outcomes a map has, in terms of the map as
the boot loader left it, and what a refusal leaves of map and memory.

The size of the bitmap is told apart from its computation: `Boot.Needs` asks for
the least number of whole frames with a bit for every frame below the end of
memory.
-/

namespace BootMemory

/-! ## The end of memory -/

namespace Census

/-- Memory ends where the highest of its regions does. -/
theorem isGreatest_highestRam
    {map : List Region} (sound : SoundMap map) {region : Region}
    (member : region ∈ map) (present : region.isPresent = true) :
    IsGreatest
      {top | ∃ region ∈ map, region.isPresent = true ∧ region.top = top}
      (ofMap map).highestRam := by
  constructor
  · rcases highestRam_foldl_cases map empty with
      nothing | ⟨highest, inMap, ram, stop⟩
    · -- Memory that ends at zero ends with any of its regions.
      have reach := stop_le_highestRam member present
      refine ⟨region, member, present, ?_⟩
      rw [Region.stop_eq_top (sound.low region member)] at reach
      unfold ofMap at reach ⊢
      rw [nothing] at reach ⊢
      exact Nat.le_antisymm reach (Nat.zero_le _)
    · refine ⟨highest, inMap, ram, ?_⟩
      rw [← Region.stop_eq_top (sound.low highest inMap)]
      exact stop
  · rintro _ ⟨other, inMap, ram, rfl⟩
    rw [← Region.stop_eq_top (sound.low other inMap)]
    exact stop_le_highestRam inMap ram

end Census

/-- The bitmap is the least one of whole frames with a bit for every frame. -/
theorem isLeast_bitmapFramesFor (highestRam : Nat) :
    IsLeast
      {bytes | 0 < bytes ∧ frameSize ∣ bytes ∧
        highestRam / frameSize ≤ 8 * bytes}
      (bitmapFramesFor highestRam * frameSize) := by
  constructor
  · refine
      ⟨Nat.mul_pos (bitmapFramesFor_pos _) (by decide),
        Nat.dvd_mul_left _ _, ?_⟩
    have covered := le_bits_of_bitmapFramesFor highestRam
    omega
  · rintro bytes ⟨positive, ⟨frames, rfl⟩, covers⟩
    simp only [bitmapFramesFor, framesFor, Bitmap.bytesFor, frameSize] at *
    omega

/-! ## What a usable region has room for -/

namespace Region

/-- The bytes of a region past frame zero. -/
def room (region : Region) : Nat := region.top - max region.base.toNat frameSize

/-- A region is left with its bytes past frame zero, or with all if unusable. -/
structure Trims (region left : Region) : Prop where
  kind_eq : left.kind = region.kind
  top_eq : left.top = region.top
  contains_iff : ∀ byte, left.Contains byte ↔
    region.Contains byte ∧ (region.isUsable = true → frameSize ≤ byte)

theorem length_pastFrameZero_eq_room
    {region : Region} (low : region.top < wordCount)
    (usable : region.isUsable = true) :
    region.pastFrameZero.length.toNat = region.room := by
  rw [Boot.length_pastFrameZero low usable, startPastFrameZero, room]
  simp only [frameSize]
  split <;> omega

theorem trims_pastFrameZero
    {region : Region} (low : region.top < wordCount) :
    region.Trims region.pastFrameZero := by
  have top := top_pastFrameZero low
  refine ⟨kind_pastFrameZero region, top, ?_⟩
  intro byte
  cases usable : region.isUsable with
  | true =>
      have base := base_pastFrameZero low usable
      simp only [Contains, top, base, startPastFrameZero, frameSize, eq_self,
        true_imp_iff]
      split <;> omega
  | false => simp [pastFrameZero_of_not_usable usable]

end Region

namespace Host

variable {map : List Region} {bytes : Nat}

theorem find_eq_none_iff :
    find bytes map = none ↔ ∀ region ∈ map, canHold bytes region = false := by
  have skipped :
      (map.dropWhile fun region => !canHold bytes region) = [] ↔
        ∀ region ∈ map, canHold bytes region = false := by
    simp [List.dropWhile_eq_nil_iff]
  rw [← skipped, find]
  split
  · rename_i nothing
    exact iff_of_true rfl nothing
  · rename_i rest
    rw [rest]
    exact iff_of_false nofun nofun

/-- No region is a host exactly if each is too short once it is trimmed. -/
theorem find_pastFrameZero_eq_none_iff (sound : SoundMap map) :
    find bytes (map.map Region.pastFrameZero) = none ↔
      ∀ region ∈ map, region.isUsable = true → region.room < bytes := by
  rw [find_eq_none_iff, List.forall_mem_map]
  refine forall₂_congr fun region member => ?_
  rw [← Bool.not_eq_true, canHold_iff, Region.isUsable_pastFrameZero, not_and]
  refine forall_congr' fun usable => ?_
  rw [Region.length_pastFrameZero_eq_room (sound.top_lt member) usable,
    Nat.not_le]

end Host

/-! ## The outcomes -/

namespace Boot

variable {offset : UInt64} {boot : Boot} {map : List Region}

/-- The bytes of the least bitmap of whole frames for a map. -/
def Needs (map : List Region) (required : Nat) : Prop :=
  ∃ highest,
    IsGreatest
        {top | ∃ region ∈ map, region.isPresent = true ∧ region.top = top}
        highest ∧
      IsLeast
        {bytes | 0 < bytes ∧ frameSize ∣ bytes ∧
          highest / frameSize ≤ 8 * bytes}
        required

theorem any_isOffered_iff :
    map.any Region.isOffered = true ↔
      ∃ region ∈ map, region.isUsable = true ∧ region.length ≠ 0 := by
  simp only [List.any_eq_true, Region.isOffered_iff]

theorem needs_iff
    (sound : SoundMap map) (offered : map.any Region.isOffered = true)
    (required : Nat) :
    Needs map required ↔ required = bitmapFrames map * frameSize := by
  rcases any_isOffered_iff.mp offered with ⟨region, member, usable, nonempty⟩
  have present : region.isPresent = true :=
    Region.isPresent_iff.mpr ⟨Region.isRam_of_isUsable usable, nonempty⟩
  have ends := Census.isGreatest_highestRam sound member present
  have least := isLeast_bitmapFramesFor (Census.ofMap map).highestRam
  constructor
  · rintro ⟨highest, greatest, sizes⟩
    rw [greatest.unique ends] at sizes
    exact sizes.unique least
  · rintro rfl
    exact ⟨_, ends, least⟩

/-- What a set-up answers, and what a refusal leaves of map and memory. -/
structure Answers
    (boot middle : Boot) (result : Except AllocError Allocator) : Prop where
  lacking_iff :
    result = .error .noUsableMemory ↔
      ∀ region ∈ boot.map, region.isUsable = true → region.length = 0
  lacking_kept : result = .error .noUsableMemory →
    middle.map = boot.map ∧ middle.memory = boot.memory
  required : (∃ region ∈ boot.map,
      region.isUsable = true ∧ region.length ≠ 0) →
    ∃! required, Needs boot.map required
  unhosted_iff : ∀ required,
    (result = .error (.noBitmapRegion required) ↔
      (∃ region ∈ boot.map, region.isUsable = true ∧ region.length ≠ 0) ∧
        Needs boot.map required ∧
          ∀ region ∈ boot.map, region.isUsable = true →
            region.room < required)
  unhosted_kept : ∀ required, result = .error (.noBitmapRegion required) →
    List.Forall₂ Region.Trims boot.map middle.map ∧
      middle.memory = boot.memory
  refusals : ∀ refusal, result = .error refusal →
    refusal = .noUsableMemory ∨
      ∃ required, refusal = .noBitmapRegion required

theorem answers_of_none
    {middle : Boot} (lacking : boot.map.any Region.isOffered = false)
    (sameMap : middle.map = boot.map)
    (sameMemory : middle.memory = boot.memory) :
    boot.Answers middle (.error .noUsableMemory) := by
  have unoffered : ¬ ∃ region ∈ boot.map,
      region.isUsable = true ∧ region.length ≠ 0 := by
    rw [← any_isOffered_iff, lacking]
    exact Bool.false_ne_true
  refine
    { lacking_iff := iff_of_true rfl ?_
      lacking_kept := fun _ => ⟨sameMap, sameMemory⟩
      required := fun offered => absurd offered unoffered
      unhosted_iff := fun _ => iff_of_false nofun fun met => unoffered met.1
      unhosted_kept := nofun
      refusals := ?_ }
  · intro region member usable
    by_contra nonempty
    exact unoffered ⟨region, member, usable, nonempty⟩
  · rintro _ ⟨⟩
    exact .inl rfl

/-- Usable memory is not lacking, and tells how large the bitmap has to be. -/
theorem exists_required
    (sound : SoundMap map) (offered : map.any Region.isOffered = true) :
    (¬ ∀ region ∈ map, region.isUsable = true → region.length = 0) ∧
      ∃! required, Needs map required := by
  constructor
  · intro bare
    rcases any_isOffered_iff.mp offered with
      ⟨region, member, usable, nonempty⟩
    exact nonempty (bare region member usable)
  · refine ⟨_, (needs_iff sound offered _).mpr rfl, ?_⟩
    intro required
    exact (needs_iff sound offered required).mp

theorem answers_of_unhosted
    {middle : Boot} (sound : SoundMap boot.map)
    (offered : boot.map.any Region.isOffered = true)
    (unhosted :
      Host.find (bitmapFrames boot.map * frameSize)
        (boot.map.map Region.pastFrameZero) = none)
    (trimmed : middle.map = boot.map.map Region.pastFrameZero)
    (sameMemory : middle.memory = boot.memory) :
    boot.Answers middle
      (.error (.noBitmapRegion (bitmapFrames boot.map * frameSize))) := by
  rcases exists_required sound offered with ⟨notBare, required⟩
  rw [Host.find_pastFrameZero_eq_none_iff sound] at unhosted
  refine
    { lacking_iff := iff_of_false nofun notBare
      lacking_kept := nofun
      required := fun _ => required
      unhosted_iff := ?_
      unhosted_kept := ?_
      refusals := ?_ }
  · intro bytes
    rw [needs_iff sound offered]
    constructor
    · rintro ⟨⟩
      exact ⟨any_isOffered_iff.mp offered, rfl, unhosted⟩
    · rintro ⟨-, rfl, -⟩
      rfl
  · intro _ _
    refine ⟨?_, sameMemory⟩
    rw [trimmed, List.forall₂_map_right_iff, List.forall₂_same]
    exact fun region member => Region.trims_pastFrameZero (sound.top_lt member)
  · rintro _ ⟨⟩
    exact .inr ⟨_, rfl⟩

theorem answers_of_found
    {middle : Boot} {host : Host} (sound : SoundMap boot.map)
    (offered : boot.map.any Region.isOffered = true)
    (found :
      Host.find (bitmapFrames boot.map * frameSize)
        (boot.map.map Region.pastFrameZero) = some host)
    (allocator : Allocator) :
    boot.Answers middle (.ok allocator) := by
  rcases exists_required sound offered with ⟨notBare, required⟩
  refine
    { lacking_iff := iff_of_false nofun notBare
      lacking_kept := nofun
      required := fun _ => required
      unhosted_iff := ?_
      unhosted_kept := nofun
      refusals := nofun }
  intro bytes
  refine iff_of_false nofun ?_
  rintro ⟨-, needed, short⟩
  rw [(needs_iff sound offered bytes).mp needed,
    ← Host.find_pastFrameZero_eq_none_iff sound, found] at short
  cases short

/--
On a sound map that the direct map reaches, a set-up returns: it is refused if
there is no usable memory, or if no usable region can hold the bitmap past frame
zero, and yields an allocator otherwise.
-/
theorem setUp_answers
    (profile : Profile) (sound : SoundMap boot.map)
    (reaches : DirectMap.Reaches ⟨offset⟩ boot.map) :
    ∃ result middle,
      setUp profile (.direct ⟨offset⟩) boot = .ok result middle ∧
        boot.Answers middle result := by
  cases offered : boot.map.any Region.isOffered with
  | false =>
      exact
        ⟨_, _, setUp_of_none profile _ sound offered,
          answers_of_none offered rfl rfl⟩
  | true =>
      cases found :
          Host.find (bitmapFrames boot.map * frameSize)
            (boot.map.map Region.pastFrameZero) with
      | none =>
          exact
            ⟨_, _, setUp_of_unhosted profile _ sound offered found,
              answers_of_unhosted sound offered found rfl rfl⟩
      | some host =>
          rcases setUp_of_found profile sound reaches offered found with
            ⟨log, ran⟩
          exact ⟨_, _, ran, answers_of_found sound offered found _⟩

end Boot

namespace Sample

/--
A usable region that could hold the bitmap only with its bytes in frame zero.
The memory above it is in use at boot, and the highest region is empty.
-/
def tightMap : List Region :=
  [⟨2048, 10000, .usable⟩, ⟨134217728, 4096, .bootloaderReclaimable⟩,
    ⟨536870912, 0, .usable⟩]

theorem tightMap_sound : SoundMap tightMap :=
  .of_sorted (by decide) (by decide)

theorem tightMap_reaches :
    DirectMap.Reaches ⟨1099511627776⟩ tightMap := by
  unfold DirectMap.Reaches
  decide

/-- Two frames for the bitmap are more than the region has past frame zero. -/
theorem tight_setUp_answers :
    SoundMap tightMap ∧ DirectMap.Reaches ⟨1099511627776⟩ tightMap ∧
      ∃ middle,
        Boot.setUp .debug (.direct ⟨1099511627776⟩)
            ⟨tightMap, Memory.zero, []⟩ =
          .ok (.error (.noBitmapRegion 8192)) middle ∧
        List.Forall₂ Region.Trims tightMap middle.map ∧
          middle.memory = Memory.zero := by
  have sizes : 8192 = Boot.bitmapFrames tightMap * frameSize := by decide
  rcases @Boot.setUp_answers 1099511627776 ⟨tightMap, Memory.zero, []⟩ .debug
    tightMap_sound tightMap_reaches with ⟨result, middle, ran, answers⟩
  have refused : result = .error (.noBitmapRegion 8192) := by
    refine (answers.unhosted_iff 8192).mpr ⟨by decide, ?_, by decide⟩
    exact (Boot.needs_iff tightMap_sound (by decide) 8192).mpr sizes
  refine
    ⟨tightMap_sound, tightMap_reaches, middle, ?_,
      answers.unhosted_kept 8192 refused⟩
  rw [ran, refused]

end Sample

end BootMemory
