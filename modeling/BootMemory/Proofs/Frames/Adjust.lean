import BootMemory.Frames.Setup
import BootMemory.Proofs.Frames.Census

/-!
# The adjusted memory map

The allocator adjusts the memory map twice: usable regions are moved off frame
zero, and the region that is to hold the bitmap is shortened by it.  Both only
take bytes off the front of regions, so a sound map stays sound.

`Hosts.offers_iff` says which frames the adjusted map still offers, in terms of
the map as the boot loader left it, and `Hosts.pagesWhere_carved` counts them.
A bitmap that starts inside a frame can take one frame more off the map than it
has bytes for; `Hosts.overlap` is the number of frames that are missing.
-/

namespace BootMemory

/-! ## Frame zero -/

namespace Region

/-- A region without its part in frame zero, if it is usable. -/
def pastFrameZero (region : Region) : Region :=
  if region.isUsable && decide (region.base < 4096) then
    region.dropFront (4096 - region.base).toNat
  else
    region

theorem toNat_below_frameSize
    {base : UInt64} (below : base < 4096) :
    base.toNat < frameSize ∧ (4096 - base).toNat = frameSize - base.toNat := by
  have bound : base.toNat < 4096 := by
    rw [UInt64.lt_iff_toNat_lt] at below
    exact below
  refine ⟨bound, ?_⟩
  rw [UInt64.toNat_sub]
  simp only [UInt64.toNat_ofNat, frameSize]
  omega

theorem offFrameZero_of_lt
    (profile : Profile) {region : Region} (low : region.top < wordCount) :
    region.offFrameZero profile = .ok region.pastFrameZero := by
  unfold offFrameZero pastFrameZero
  split
  · exact consumeFront_of_lt profile low _
  · rfl

theorem allOffFrameZero_of_low
    (profile : Profile) {map : List Region}
    (low : ∀ region ∈ map, region.top < wordCount) :
    allOffFrameZero profile map = .ok (map.map pastFrameZero) := by
  unfold allOffFrameZero
  induction map with
  | nil => rfl
  | cons region map inductionHypothesis =>
      have head := offFrameZero_of_lt profile (low region (by simp))
      have tail := inductionHypothesis fun later member =>
        low later (List.mem_cons_of_mem _ member)
      simp only [List.mapM_cons, head, tail, bind, Except.bind, pure,
        Except.pure, List.map_cons]

@[simp]
theorem kind_pastFrameZero (region : Region) :
    region.pastFrameZero.kind = region.kind := by
  unfold pastFrameZero
  split
  · exact kind_dropFront region _
  · rfl

@[simp]
theorem isUsable_pastFrameZero (region : Region) :
    region.pastFrameZero.isUsable = region.isUsable := by
  simp [isUsable]

theorem top_pastFrameZero
    {region : Region} (low : region.top < wordCount) :
    region.pastFrameZero.top = region.top := by
  unfold pastFrameZero
  split
  · exact top_dropFront low _
  · rfl

theorem pastFrameZero_within
    {region : Region} (low : region.top < wordCount) :
    region.pastFrameZero.Within region := by
  unfold pastFrameZero
  split
  · exact dropFront_within low _
  · exact fun _ inside => inside

/-- A usable region loses frame zero and no other frame. -/
theorem holdsFrame_pastFrameZero
    {region : Region} (low : region.top < wordCount)
    (usable : region.isUsable = true) (frame : Nat) :
    region.pastFrameZero.HoldsFrame frame ↔
      frame ≠ 0 ∧ region.HoldsFrame frame := by
  unfold pastFrameZero
  rw [usable, Bool.true_and]
  split
  · rename_i below
    have bounds := toNat_below_frameSize (of_decide_eq_true below)
    simp only [HoldsFrame, base_dropFront low, top_dropFront low, bounds.2]
    simp only [frameSize, top] at bounds ⊢
    omega
  · rename_i above
    have high : ¬ region.base < 4096 := by simpa using above
    have bound : ¬ region.base.toNat < 4096 := by
      rw [UInt64.lt_iff_toNat_lt] at high
      exact high
    simp only [HoldsFrame, frameSize]
    omega

theorem holdsFrameZero_iff {region : Region} :
    region.holdsFrameZero = true ↔
      region.isUsable = true ∧ region.HoldsFrame 0 := by
  have zero : region.base = 0 ↔ region.base.toNat = 0 :=
    ⟨fun equal => by rw [equal]; rfl, fun equal => UInt64.toNat_inj.mp equal⟩
  have bounds :
      (region.base.toNat = 0 ∧ frameSize ≤ region.length.toNat) ↔
        region.HoldsFrame 0 := by
    simp only [HoldsFrame, top, frameSize]
    omega
  rw [← bounds, ← zero]
  simp [holdsFrameZero, and_assoc]

theorem card_frames_pastFrameZero
    {region : Region} (low : region.top < wordCount)
    (usable : region.isUsable = true) :
    region.pastFrameZero.frames.card +
        (if region.holdsFrameZero then 1 else 0) =
      region.frames.card := by
  have erased : region.pastFrameZero.frames = region.frames.erase 0 := by
    ext frame
    rw [Finset.mem_erase, mem_frames, mem_frames,
      holdsFrame_pastFrameZero low usable]
  rw [erased]
  split
  · rename_i holds
    have member : 0 ∈ region.frames :=
      mem_frames.mpr (holdsFrameZero_iff.mp holds).2
    exact Finset.card_erase_add_one member
  · rename_i lacks
    have absent : 0 ∉ region.frames := by
      intro member
      exact lacks (holdsFrameZero_iff.mpr ⟨usable, mem_frames.mp member⟩)
    rw [Finset.erase_eq_of_notMem absent, Nat.add_zero]

/-- The frames that are lost to frame zero are counted one a region. -/
theorem pagesWhere_pastFrameZero
    {map : List Region} (low : ∀ region ∈ map, region.top < wordCount) :
    pagesWhere isUsable (map.map pastFrameZero) +
        map.countP holdsFrameZero =
      pagesWhere isUsable map := by
  induction map with
  | nil => rfl
  | cons region map inductionHypothesis =>
      have rest := inductionHypothesis fun later member =>
        low later (List.mem_cons_of_mem _ member)
      have headLow := low region (by simp)
      simp only [List.map_cons, pagesWhere, List.countP_cons,
        isUsable_pastFrameZero]
      cases usable : region.isUsable with
      | true =>
          have head := card_frames_pastFrameZero headLow usable
          simp only [if_true] at head ⊢
          omega
      | false =>
          have lacks : region.holdsFrameZero = false := by
            simp [holdsFrameZero, usable]
          simp only [lacks, Bool.false_eq_true, if_false]
          omega

end Region

namespace SoundMap

variable {map : List Region}

theorem top_lt (sound : SoundMap map) {region : Region}
    (member : region ∈ map) : region.top < wordCount := by
  exact lt_wordCount_of_le (sound.low region member)

theorem pastFrameZero (sound : SoundMap map) :
    SoundMap (map.map Region.pastFrameZero) where
  separate := by
    rw [List.pairwise_map]
    refine sound.separate.imp_of_mem ?_
    intro left right leftMember rightMember separate
    exact separate.mono
      (Region.pastFrameZero_within (sound.top_lt leftMember))
      (Region.pastFrameZero_within (sound.top_lt rightMember))
  low := by
    intro region member
    rcases List.mem_map.mp member with ⟨original, inMap, rfl⟩
    rw [Region.top_pastFrameZero (sound.top_lt inMap)]
    exact sound.low original inMap

end SoundMap

/-! ## The region that holds the bitmap -/

/-- Bytes at a place still fit a region when moved up to a frame boundary. -/
def Region.Seats (region : Region) (place bytes : Nat) : Prop :=
  region.base.toNat ≤ place ∧
    framesFor place * frameSize + bytes ≤ region.top

namespace Host

variable {map : List Region} {host : Host} {bytes : Nat}

theorem find_eq_some (found : find bytes map = some host) :
    map = host.mapWith host.region ∧ canHold bytes host.region = true := by
  unfold find at found
  split at found
  · cases found
  · rename_i region after rest
    have joined :=
      @List.takeWhile_append_dropWhile _
        (fun region => !canHold bytes region) map
    have stopped :=
      List.head?_dropWhile_not (fun region => !canHold bytes region) map
    rw [rest] at joined stopped
    cases found
    refine ⟨joined.symm, ?_⟩
    simpa using stopped

theorem canHold_iff {region : Region} :
    canHold bytes region = true ↔
      region.isUsable = true ∧ bytes ≤ region.length.toNat := by
  simp [canHold]

/-- The region that holds the bitmap in the map of the boot loader. -/
theorem exists_origin
    (found : find bytes (map.map Region.pastFrameZero) = some host) :
    ∃ before region after, map = before ++ region :: after ∧
      host =
        ⟨before.map Region.pastFrameZero, region.pastFrameZero,
          after.map Region.pastFrameZero⟩ := by
  have split := (find_eq_some found).1
  unfold mapWith at split
  rcases List.map_eq_append_iff.mp split with
    ⟨before, rest, joined, beforeEq, restEq⟩
  rcases List.map_eq_cons_iff.mp restEq with
    ⟨region, after, consEq, regionEq, afterEq⟩
  refine ⟨before, region, after, ?_, ?_⟩
  · rw [joined, consEq]
  · rw [beforeEq, regionEq, afterEq]

/-- The host as it is found: where it was, and what it can hold. -/
structure Hosts
    (host : Host) (bytes : Nat) (map before after : List Region)
    (origin : Region) : Prop where
  map_eq : map = before ++ origin :: after
  host_eq :
    host =
      ⟨before.map Region.pastFrameZero, origin.pastFrameZero,
        after.map Region.pastFrameZero⟩
  usable : origin.isUsable = true
  fits : bytes ≤ origin.pastFrameZero.length.toNat

theorem exists_hosts
    (found : find bytes (map.map Region.pastFrameZero) = some host) :
    ∃ before after origin, host.Hosts bytes map before after origin := by
  rcases exists_origin found with ⟨before, origin, after, mapEq, hostEq⟩
  have holds := canHold_iff.mp (find_eq_some found).2
  rw [hostEq, Region.isUsable_pastFrameZero] at holds
  exact ⟨before, after, origin, mapEq, hostEq, holds.1, holds.2⟩

namespace Hosts

variable {before after : List Region} {origin : Region}

theorem origin_mem (hosts : host.Hosts bytes map before after origin) :
    origin ∈ map := by
  simp [hosts.map_eq]

theorem region_eq (hosts : host.Hosts bytes map before after origin) :
    host.region = origin.pastFrameZero := by
  rw [hosts.host_eq]

theorem bytes_le (hosts : host.Hosts bytes map before after origin) :
    bytes ≤ host.region.length.toNat := by
  rw [hosts.region_eq]
  exact hosts.fits

theorem region_top
    (hosts : host.Hosts bytes map before after origin)
    (sound : SoundMap map) :
    host.region.top = origin.top := by
  rw [hosts.region_eq,
    Region.top_pastFrameZero (sound.top_lt hosts.origin_mem)]

theorem region_top_lt
    (hosts : host.Hosts bytes map before after origin)
    (sound : SoundMap map) :
    host.region.top < wordCount := by
  rw [hosts.region_top sound]
  exact sound.top_lt hosts.origin_mem

theorem mem_iff
    (hosts : host.Hosts bytes map before after origin) (region : Region) :
    region ∈ map ↔ region = origin ∨ region ∈ before ++ after := by
  rw [hosts.map_eq, List.mem_append, List.mem_append, List.mem_cons]
  exact or_left_comm

/-- The regions of the map with the one that holds the bitmap replaced. -/
theorem mem_mapWith_iff
    (hosts : host.Hosts bytes map before after origin)
    (carved region : Region) :
    region ∈ host.mapWith carved ↔
      region = carved ∨
        ∃ original ∈ before ++ after, original.pastFrameZero = region := by
  rw [hosts.host_eq]
  simp only [mapWith, List.mem_append, List.mem_cons, List.mem_map,
    or_and_right, exists_or]
  exact or_left_comm

/-- The other regions share no byte with the one that holds the bitmap. -/
theorem separate_origin
    (hosts : host.Hosts bytes map before after origin)
    (sound : SoundMap map) {region : Region}
    (other : region ∈ before ++ after) :
    origin.Separate region := by
  have split := sound
  rw [hosts.map_eq] at split
  exact split.separate_of_split other

/-- The bytes of the bitmap lie in the region that holds it. -/
theorem contains
    (hosts : host.Hosts bytes map before after origin)
    (sound : SoundMap map) {byte : Nat}
    (lower : host.region.base.toNat ≤ byte)
    (upper : byte < host.region.base.toNat + bytes) :
    origin.Contains byte := by
  apply Region.pastFrameZero_within (sound.top_lt hosts.origin_mem)
  have fits := hosts.fits
  rw [hosts.region_eq] at lower upper
  simp only [Region.Contains, Region.top]
  omega

theorem base_le
    (hosts : host.Hosts bytes map before after origin)
    (sound : SoundMap map) (positive : 0 < bytes) :
    origin.base.toNat ≤ host.region.base.toNat :=
  (hosts.contains sound (Nat.le_refl _) (by omega)).1

theorem stop_le
    (hosts : host.Hosts bytes map before after origin)
    (sound : SoundMap map) :
    host.region.base.toNat + bytes ≤ origin.top := by
  have fits := hosts.bytes_le
  rw [← hosts.region_top sound, Region.top]
  omega

theorem length_ne_zero
    (hosts : host.Hosts bytes map before after origin)
    (sound : SoundMap map) (positive : 0 < bytes) :
    origin.length ≠ 0 := by
  intro empty
  have bound := hosts.base_le sound positive
  have stop := hosts.stop_le sound
  simp only [Region.top, empty, UInt64.toNat_zero] at stop
  omega

/-- A frame of another region shares no byte with the bitmap. -/
theorem apart_of_separate
    (hosts : host.Hosts bytes map before after origin)
    (sound : SoundMap map) (positive : 0 < bytes)
    {region : Region} {frame : Nat}
    (separate : origin.Separate region) (holds : region.HoldsFrame frame) :
    (frame + 1) * frameSize ≤ host.region.base.toNat ∨
      host.region.base.toNat + bytes ≤ frame * frameSize := by
  by_contra meets
  rcases Region.exists_shared_byte positive meets with
    ⟨byte, inFrame, lower, upper⟩
  exact
    separate byte (hosts.contains sound lower upper)
      (holds.contains inFrame)

theorem map_pastFrameZero_eq
    (hosts : host.Hosts bytes map before after origin) :
    map.map Region.pastFrameZero =
      host.before ++ host.region :: host.after := by
  rw [hosts.map_eq, hosts.host_eq, List.map_append, List.map_cons]

/-- Shortening the region that holds the bitmap keeps the map sound. -/
theorem sound_carved
    (hosts : host.Hosts bytes map before after origin)
    (sound : SoundMap map) :
    SoundMap (host.mapWith (host.region.dropFront bytes)) := by
  have past := sound.pastFrameZero
  rw [hosts.map_pastFrameZero_eq] at past
  have hostLow := past.top_lt (by simp : host.region ∈ _)
  have within := Region.dropFront_within hostLow bytes
  have parts := List.pairwise_append.mp past.separate
  have rest := List.pairwise_cons.mp parts.2.1
  have unchanged : ∀ region : Region, region.Within region :=
    fun _ _ inside => inside
  constructor
  · refine List.pairwise_append.mpr ⟨parts.1, ?_, ?_⟩
    · refine List.pairwise_cons.mpr ⟨?_, rest.2⟩
      intro later member
      exact (rest.1 later member).mono within (unchanged later)
    · intro earlier member other otherMember
      rcases List.mem_cons.mp otherMember with rfl | later
      · exact
          (parts.2.2 earlier member host.region (by simp)).mono
            (unchanged earlier) within
      · exact parts.2.2 earlier member other (List.mem_cons_of_mem _ later)
  · intro region member
    simp only [mapWith, List.mem_append, List.mem_cons] at member
    rcases member with earlier | rfl | later
    · exact past.low region (by simp [earlier])
    · rw [Region.top_dropFront hostLow]
      exact past.low host.region (by simp)
    · exact past.low region (by simp [later])

/-- The frames that the region still offers behind the bitmap. -/
theorem holdsFrame_carved
    (hosts : host.Hosts bytes map before after origin)
    (sound : SoundMap map) (frame : Nat) :
    (host.region.dropFront bytes).HoldsFrame frame ↔
      origin.pastFrameZero.HoldsFrame frame ∧
        host.region.base.toNat + bytes ≤ frame * frameSize := by
  have low := hosts.region_top_lt sound
  have fits := hosts.bytes_le
  rw [← hosts.region_eq]
  simp only [Region.HoldsFrame, Region.base_dropFront low,
    Region.top_dropFront low]
  omega

/-- The adjusted map offers all usable frames but frame zero and the bitmap. -/
theorem offers_iff
    (hosts : host.Hosts bytes map before after origin)
    (sound : SoundMap map) (positive : 0 < bytes) (frame : Nat) :
    (∃ region ∈ host.mapWith (host.region.dropFront bytes),
        region.isUsable = true ∧ region.HoldsFrame frame) ↔
      frame ≠ 0 ∧
        (∃ region ∈ map, region.isUsable = true ∧ region.HoldsFrame frame) ∧
        ((frame + 1) * frameSize ≤ host.region.base.toNat ∨
          host.region.base.toNat + bytes ≤ frame * frameSize) := by
  have originLow := sound.top_lt hosts.origin_mem
  constructor
  · rintro ⟨region, member, usable, holds⟩
    rcases (hosts.mem_mapWith_iff _ _).mp member with
      rfl | ⟨original, other, rfl⟩
    · rcases (hosts.holdsFrame_carved sound frame).mp holds with
        ⟨inOrigin, behind⟩
      rw [Region.holdsFrame_pastFrameZero originLow hosts.usable] at inOrigin
      exact
        ⟨inOrigin.1, ⟨origin, hosts.origin_mem, hosts.usable, inOrigin.2⟩,
          Or.inr behind⟩
    · have inMap := (hosts.mem_iff original).mpr (Or.inr other)
      have separate := hosts.separate_origin sound other
      rw [Region.isUsable_pastFrameZero] at usable
      rw [Region.holdsFrame_pastFrameZero (sound.top_lt inMap) usable]
        at holds
      exact
        ⟨holds.1, ⟨original, inMap, usable, holds.2⟩,
          hosts.apart_of_separate sound positive separate holds.2⟩
  · rintro ⟨nonzero, ⟨region, member, usable, holds⟩, apart⟩
    have past : region.pastFrameZero.HoldsFrame frame := by
      rw [Region.holdsFrame_pastFrameZero (sound.top_lt member) usable]
      exact ⟨nonzero, holds⟩
    rcases (hosts.mem_iff region).mp member with rfl | other
    · refine ⟨host.region.dropFront bytes, ?_, ?_, ?_⟩
      · exact (hosts.mem_mapWith_iff _ _).mpr (Or.inl rfl)
      · rw [Region.isUsable_dropFront, hosts.region_eq,
          Region.isUsable_pastFrameZero]
        exact usable
      · refine (hosts.holdsFrame_carved sound frame).mpr ⟨past, ?_⟩
        rw [hosts.region_eq] at apart ⊢
        simp only [Region.HoldsFrame, frameSize] at past apart ⊢
        omega
    · refine ⟨region.pastFrameZero, ?_, ?_, past⟩
      · exact (hosts.mem_mapWith_iff _ _).mpr (Or.inr ⟨region, other, rfl⟩)
      · rw [Region.isUsable_pastFrameZero]
        exact usable

/-! ### Counting what is left -/

/-- The frames that carving out the bitmap takes, but that are not there. -/
def overlap (host : Host) (count : Nat) : Nat :=
  count - host.region.frames.card

variable {count : Nat}

theorem pagesWhere_carved
    (hosts : host.Hosts (count * frameSize) map before after origin)
    (sound : SoundMap map) :
    Region.pagesWhere Region.isUsable
          (host.mapWith (host.region.dropFront (count * frameSize))) +
        count =
      Region.pagesWhere Region.isUsable (map.map Region.pastFrameZero) +
        overlap host count := by
  have low := hosts.region_top_lt sound
  have fits := hosts.bytes_le
  have usable : host.region.isUsable = true := by
    rw [hosts.region_eq, Region.isUsable_pastFrameZero]
    exact hosts.usable
  have carved :
      (host.region.dropFront (count * frameSize)).frames.card =
        host.region.frames.card - count := by
    simp only [Region.card_frames, Region.base_dropFront low,
      Region.top_dropFront low, framesFor, frameSize] at fits ⊢
    omega
  rw [hosts.map_pastFrameZero_eq]
  simp only [mapWith, Region.pagesWhere_append, Region.pagesWhere,
    Region.isUsable_dropFront, usable, if_true, carved, overlap]
  omega

/-- The pages counted as used at the start and those that can be handed out. -/
theorem pages_balance
    (hosts : host.Hosts (count * frameSize) map before after origin)
    (sound : SoundMap map) :
    Region.pagesWhere Region.isOccupied map +
            map.countP Region.holdsFrameZero + count +
        Region.pagesWhere Region.isUsable
          (host.mapWith (host.region.dropFront (count * frameSize))) =
      Region.pagesWhere Region.isRam map + overlap host count := by
  have carved := hosts.pagesWhere_carved sound
  have zero :=
    Region.pagesWhere_pastFrameZero fun region (member : region ∈ map) =>
      sound.top_lt member
  have kinds := Region.pagesWhere_isRam map
  omega

/-- At most one frame is missing, and none if the bitmap could be moved up. -/
theorem overlap_eq
    (hosts : host.Hosts (count * frameSize) map before after origin)
    (positive : 0 < count) :
    overlap host count =
      if framesFor host.region.base.toNat * frameSize + count * frameSize ≤
          host.region.top then
        0
      else
        1 := by
  have fits := hosts.bytes_le
  unfold overlap
  rw [Region.card_frames]
  split
  · rename_i seated
    simp only [framesFor, frameSize] at seated ⊢
    omega
  · rename_i crowded
    simp only [framesFor, frameSize, Region.top] at fits crowded ⊢
    omega

/-- The region that seats the bitmap, if any, is the one that holds it. -/
theorem seated_iff
    (hosts : host.Hosts (count * frameSize) map before after origin)
    (sound : SoundMap map) (positive : 0 < count) :
    (∃ region ∈ map, region.isUsable = true ∧
        region.Seats host.region.base.toNat (count * frameSize)) ↔
      framesFor host.region.base.toNat * frameSize + count * frameSize ≤
        host.region.top := by
  have some : 0 < count * frameSize := Nat.mul_pos positive (by decide)
  rw [hosts.region_top sound]
  constructor
  · rintro ⟨region, member, -, starts, ends⟩
    have boundary := le_framesFor_mul host.region.base.toNat
    have inRegion : region.Contains host.region.base.toNat :=
      ⟨starts, by omega⟩
    have inOrigin : origin.Contains host.region.base.toNat :=
      hosts.contains sound (Nat.le_refl _) (by omega)
    have same : region = origin :=
      sound.eq_of_contains member hosts.origin_mem inRegion inOrigin
    rw [same] at ends
    exact ends
  · intro ends
    exact
      ⟨origin, hosts.origin_mem, hosts.usable, hosts.base_le sound some, ends⟩

end Hosts

end Host

end BootMemory
