import BootMemory.Mapper
import BootMemory.Proofs.DirectMap
import BootMemory.Proofs.Memory

/-!
# Where a direct map is one-to-one

A direct map adds its offset to the physical addresses below it.  Those whose sum
is a word are `Raises`d, one-to-one and onto the addresses from the offset up to
twice the offset, and taking the offset off undoes it.  For the others below the
offset the sum overflows: the debug profile stops, and release wraps around.

An access to a stretch of memory translates its start only.  Where the whole
stretch is raised this is as good as translating each of its bytes, so stretches
that share no byte are accessed at addresses that are shared neither.
`DirectMap.oneToOne` puts this together for every offset.
-/

namespace BootMemory

namespace Memory

/-- Two stretches of addresses share none. -/
def Apart
    (left : UInt64) (leftLength : Nat) (right : UInt64) (rightLength : Nat) :
    Prop :=
  ∀ address, distance left address < leftLength →
    ¬ distance right address < rightLength

/-- A stretch that ends before another one starts is apart from it. -/
theorem apart_of_le
    {left right : UInt64} {leftLength rightLength : Nat}
    (ordered : left.toNat + leftLength ≤ right.toNat)
    (inside : right.toNat + rightLength ≤ wordCount) :
    Apart left leftLength right rightLength := by
  intro address inLeft inRight
  rw [distance_lt_iff inside] at inRight
  rw [distance_lt_iff (by omega)] at inLeft
  omega

end Memory

namespace Mapper

/-- The addresses at which a mapper accesses a stretch of physical memory. -/
def Accesses
    (profile : Profile) (mapper : Mapper) (start : PhysicalAddress)
    (length : Nat) (address : UInt64) : Prop :=
  ∃ reached, mapper.reach profile start = .ok reached ∧
    Memory.distance reached.value address < length

/-- Filling one stretch leaves what is read of another one. -/
theorem readRange_fill
    {profile : Profile} {mapper : Mapper} {start other : PhysicalAddress}
    {length otherLength : Nat} {memory later : Memory} {byte : UInt8}
    (apart : ∀ address, mapper.Accesses profile start length address →
      ¬ mapper.Accesses profile other otherLength address)
    (filled : mapper.fill profile memory start length byte = .ok later) :
    mapper.readRange profile later other otherLength =
      mapper.readRange profile memory other otherLength := by
  cases reached : mapper.reach profile start with
  | error fault =>
      rw [fill, reached] at filled
      cases filled
  | ok place =>
      rw [fill, reached] at filled
      cases filled
      cases read : mapper.reach profile other with
      | error fault =>
          rw [readRange, readRange, read]
          rfl
      | ok otherPlace =>
          rw [readRange, readRange, read]
          apply congrArg Except.ok
          apply Memory.readRange_congr
          intro address inside
          have outside :
              ¬ Memory.distance place.value address < length := fun written =>
            apart address ⟨place, reached, written⟩
              ⟨otherPlace, read, inside⟩
          rw [Memory.read_fill, if_neg outside]

end Mapper

namespace DirectMap

/-- A physical address below the offset to which the offset can be added. -/
def Raises (map : DirectMap) (physical : PhysicalAddress) : Prop :=
  physical.value.toNat < map.offset.toNat ∧
    physical.value.toNat + map.offset.toNat < wordCount

/-- A physical address below the offset to which it cannot be added. -/
def Overflows (map : DirectMap) (physical : PhysicalAddress) : Prop :=
  physical.value.toNat < map.offset.toNat ∧
    wordCount ≤ physical.value.toNat + map.offset.toNat

/-- An address from the offset up to twice the offset. -/
def Shows (map : DirectMap) (accessible : VirtualAddress) : Prop :=
  map.offset.toNat ≤ accessible.value.toNat ∧
    accessible.value.toNat < 2 * map.offset.toNat

/-- A stretch of physical memory of which every byte is raised. -/
def RaisesStretch
    (map : DirectMap) (start : PhysicalAddress) (length : Nat) : Prop :=
  start.value.toNat + length ≤ map.offset.toNat ∧
    start.value.toNat + length ≤ wordCount - map.offset.toNat

variable {profile : Profile} {map : DirectMap}

/-! ## Single addresses -/

theorem Raises.hasRoom
    {physical : PhysicalAddress} (raises : map.Raises physical) :
    map.HasRoom physical.value :=
  fun _ => raises.2

theorem Raises.toVirtual_eq
    {physical : PhysicalAddress} (raises : map.Raises physical)
    (profile : Profile) :
    map.toVirtual profile physical =
      .ok ⟨UInt64.ofNat (physical.value.toNat + map.offset.toNat)⟩ :=
  toVirtual_of_lt profile raises.1 raises.2

/-- What was raised is shown, and lowered to where it came from. -/
theorem Raises.exists_accessible
    {physical : PhysicalAddress} (raises : map.Raises physical)
    (profile : Profile) :
    ∃ accessible,
      map.toVirtual profile physical = .ok accessible ∧
        map.Shows accessible ∧
          map.toPhysical profile accessible = .ok physical := by
  have raised := raises.toVirtual_eq profile
  rcases toPhysical_of_toVirtual profile raises.hasRoom (.inr raises.1) raised
    with ⟨lowered, value⟩
  refine ⟨_, raised, ⟨?_, ?_⟩, lowered⟩
  · omega
  · have below := raises.1
    omega

/-- No two addresses are raised to the same one. -/
theorem Raises.eq_of_toVirtual_eq
    {left right : PhysicalAddress}
    (leftRaises : map.Raises left) (rightRaises : map.Raises right)
    (same : map.toVirtual profile left = map.toVirtual profile right) :
    left = right := by
  rcases leftRaises.exists_accessible profile with
    ⟨accessible, leftRaised, -, leftLowered⟩
  rcases rightRaises.exists_accessible profile with
    ⟨other, rightRaised, -, rightLowered⟩
  rw [leftRaised, rightRaised, Except.ok.injEq] at same
  rw [same, rightLowered] at leftLowered
  exact (Except.ok.inj leftLowered).symm

/-- Every address that is shown was raised. -/
theorem Shows.exists_physical
    {accessible : VirtualAddress} (shows : map.Shows accessible)
    (profile : Profile) :
    ∃ physical : PhysicalAddress,
      map.toPhysical profile accessible = .ok physical ∧
        map.Raises physical ∧
          map.toVirtual profile physical = .ok accessible := by
  have bound := accessible.value.toNat_lt
  rcases shows with ⟨above, below⟩
  rcases exists_toPhysical profile map accessible with
    ⟨physical, lowered, value⟩
  rw [if_pos above] at value
  have raises : map.Raises physical := by
    constructor
    · omega
    · simp only [wordCount]
      omega
  refine ⟨physical, lowered, raises, ?_⟩
  rw [raises.toVirtual_eq profile, Except.ok.injEq]
  apply Address.eq_of_toNat_eq
  rw [value, Nat.sub_add_cancel above, UInt64.toNat_ofNat',
    Nat.mod_eq_of_lt bound]

theorem hasRoom_iff {physical : PhysicalAddress} :
    map.HasRoom physical.value ↔ ¬ map.Overflows physical := by
  unfold HasRoom Overflows
  omega

/-- An address that overflows lies on the physical side of the map. -/
theorem Overflows.toVirtual_eq
    {physical : PhysicalAddress} (overflows : map.Overflows physical)
    (profile : Profile) :
    map.toVirtual profile physical =
      (profile.addWord physical.value map.offset).map Address.mk := by
  have physicalSide : ¬ map.covers physical.value = true := by
    rw [covers_iff]
    exact Nat.not_le.mpr overflows.1
  rw [toVirtual, if_neg physicalSide]

/-- A sum that is no word is the only reason for debug to stop. -/
theorem toVirtual_debug_error_iff
    {physical : PhysicalAddress} {fault : Fault} :
    map.toVirtual .debug physical = .error fault ↔
      fault = .addOverflow ∧ map.Overflows physical := by
  by_cases overflows : map.Overflows physical
  · have stopped :
        Profile.debug.add physical.value.toNat map.offset.toNat =
          .error .addOverflow :=
      Profile.fit_debug_of_le .addOverflow overflows.2
    rw [overflows.toVirtual_eq .debug, Profile.addWord, stopped]
    simp [Except.map, overflows, eq_comm]
  · have room : map.HasRoom physical.value := hasRoom_iff.mpr overflows
    rcases room.exists_toVirtual .debug with ⟨accessible, raised, -⟩
    rw [raised]
    simp [overflows]

/-- Release takes the sum modulo the number of words. -/
theorem Overflows.toVirtual_release
    {physical : PhysicalAddress} (overflows : map.Overflows physical) :
    ∃ accessible,
      map.toVirtual .release physical = .ok accessible ∧
        accessible.value.toNat =
          physical.value.toNat + map.offset.toNat - wordCount := by
  have physicalBound := physical.value.toNat_lt
  have offsetBound := map.offset.toNat_lt
  have beyond := overflows.2
  refine ⟨_, overflows.toVirtual_eq .release, ?_⟩
  rw [UInt64.toNat_ofNat']
  simp only [wordCount] at beyond ⊢
  omega

/-! ## Stretches of memory -/

variable {start : PhysicalAddress} {length : Nat}

theorem RaisesStretch.first
    (raises : map.RaisesStretch start length) (nonempty : 0 < length) :
    map.Raises start := by
  rcases raises with ⟨below, room⟩
  constructor
  · omega
  · omega

/-- The bytes of a raised stretch are raised. -/
theorem RaisesStretch.byte
    (raises : map.RaisesStretch start length) {index : Nat}
    (inside : index < length) :
    map.Raises ⟨start.value + UInt64.ofNat index⟩ ∧
      (start.value + UInt64.ofNat index).toNat =
        start.value.toNat + index := by
  have offsetBound := map.offset.toNat_lt
  rcases raises with ⟨below, room⟩
  have value :
      (start.value + UInt64.ofNat index).toNat =
        start.value.toNat + index := by
    rw [UInt64.toNat_add, UInt64.toNat_ofNat']
    omega
  refine ⟨⟨?_, ?_⟩, value⟩
  · rw [value]
    omega
  · rw [value]
    omega

/-- A stretch is accessed where its bytes are raised to. -/
theorem RaisesStretch.toVirtual_byte
    (raises : map.RaisesStretch start length) {index : Nat}
    (inside : index < length) {reached : VirtualAddress}
    (raised : map.toVirtual profile start = .ok reached) :
    map.toVirtual profile ⟨start.value + UInt64.ofNat index⟩ =
      .ok ⟨reached.value + UInt64.ofNat index⟩ := by
  have first := raises.first (Nat.zero_lt_of_lt inside)
  rcases raises.byte inside with ⟨later, value⟩
  rw [first.toVirtual_eq profile] at raised
  cases raised
  rw [later.toVirtual_eq profile, value, ← UInt64.ofNat_add,
    Nat.add_right_comm]

/-- An address at which a stretch is accessed is where a byte is raised to. -/
theorem RaisesStretch.exists_byte
    (raises : map.RaisesStretch start length) {address : UInt64}
    (accesses : (Mapper.direct map).Accesses profile start length address) :
    ∃ byte : PhysicalAddress,
      Memory.distance start.value byte.value < length ∧
        map.Raises byte ∧ map.toVirtual profile byte = .ok ⟨address⟩ := by
  rcases accesses with ⟨reached, raised, inside⟩
  have bound := Memory.distance_lt reached.value address
  have translated := raises.toVirtual_byte inside raised
  rw [Memory.add_ofNat_distance] at translated
  refine ⟨_, ?_, (raises.byte inside).1, translated⟩
  rw [Memory.distance_add_ofNat start.value bound]
  exact inside

theorem RaisesStretch.exists_reached
    (raises : map.RaisesStretch start length) (nonempty : 0 < length)
    (profile : Profile) :
    ∃ reached, (Mapper.direct map).reach profile start = .ok reached := by
  exact ⟨_, (raises.first nonempty).toVirtual_eq profile⟩

/-- Stretches that share no byte are accessed at addresses that they share not. -/
theorem RaisesStretch.apart
    {other : PhysicalAddress} {otherLength : Nat}
    (raises : map.RaisesStretch start length)
    (otherRaises : map.RaisesStretch other otherLength)
    (apart : Memory.Apart start.value length other.value otherLength)
    {address : UInt64}
    (accesses : (Mapper.direct map).Accesses profile start length address) :
    ¬ (Mapper.direct map).Accesses profile other otherLength address := by
  intro otherAccesses
  rcases raises.exists_byte accesses with ⟨byte, inside, raised, translated⟩
  rcases otherRaises.exists_byte otherAccesses with
    ⟨otherByte, otherInside, otherRaised, otherTranslated⟩
  have same : byte = otherByte :=
    raised.eq_of_toVirtual_eq otherRaised
      (translated.trans otherTranslated.symm)
  rw [← same] at otherInside
  exact apart byte.value inside otherInside

/-! ## The direct map as a whole -/

/-- Raising and lowering are inverse to each other where there is room. -/
structure Inverts (profile : Profile) (map : DirectMap) : Prop where
  raised : ∀ physical, map.Raises physical →
    ∃ accessible,
      map.toVirtual profile physical = .ok accessible ∧
        map.Shows accessible ∧
          map.toPhysical profile accessible = .ok physical
  injective : ∀ left right, map.Raises left → map.Raises right →
    map.toVirtual profile left = map.toVirtual profile right → left = right
  lowered : ∀ accessible, map.Shows accessible →
    ∃ physical : PhysicalAddress,
      map.toPhysical profile accessible = .ok physical ∧
        map.Raises physical ∧
          map.toVirtual profile physical = .ok accessible

/-- Raised memory is accessed, and without aliasing. -/
structure KeepsApart (profile : Profile) (map : DirectMap) : Prop where
  reached : ∀ start length, map.RaisesStretch start length → 0 < length →
    ∃ reached, (Mapper.direct map).reach profile start = .ok reached
  apart : ∀ left leftLength right rightLength,
    map.RaisesStretch left leftLength → map.RaisesStretch right rightLength →
      Memory.Apart left.value leftLength right.value rightLength →
        ∀ address,
          (Mapper.direct map).Accesses profile left leftLength address →
            ¬ (Mapper.direct map).Accesses profile right rightLength address
  unread : ∀ left leftLength right rightLength,
    map.RaisesStretch left leftLength → map.RaisesStretch right rightLength →
      Memory.Apart left.value leftLength right.value rightLength →
        ∀ memory later byte,
          (Mapper.direct map).fill profile memory left leftLength byte =
              .ok later →
            (Mapper.direct map).readRange profile later right rightLength =
              (Mapper.direct map).readRange profile memory right rightLength

theorem inverts (profile : Profile) (map : DirectMap) :
    map.Inverts profile where
  raised := fun _ raises => raises.exists_accessible profile
  injective := fun _ _ left right same => left.eq_of_toVirtual_eq right same
  lowered := fun _ shows => shows.exists_physical profile

theorem keepsApart (profile : Profile) (map : DirectMap) :
    map.KeepsApart profile where
  reached := fun _ _ raises nonempty => raises.exists_reached nonempty profile
  apart := fun _ _ _ _ left right apart _ accesses =>
    left.apart right apart accesses
  unread := fun _ _ _ _ left right apart _ _ _ filled =>
    Mapper.readRange_fill
      (fun _ accesses => left.apart right apart accesses) filled

/--
A direct map is one-to-one where its offset can be added, and its sum is all
that can fail: then debug stops, and release takes the sum modulo `wordCount`.
-/
theorem oneToOne (profile : Profile) (map : DirectMap) :
    map.Inverts profile ∧
    (∀ physical fault, map.toVirtual .debug physical = .error fault ↔
      fault = .addOverflow ∧ map.Overflows physical) ∧
    (∀ physical, map.Overflows physical →
      ∃ accessible, map.toVirtual .release physical = .ok accessible ∧
        accessible.value.toNat =
          physical.value.toNat + map.offset.toNat - wordCount) ∧
    (∀ accessible, ∃ physical,
      map.toPhysical profile accessible = .ok physical) ∧
    map.KeepsApart profile := by
  refine ⟨inverts profile map, ?_, ?_, ?_, keepsApart profile map⟩
  · intro physical fault
    exact toVirtual_debug_error_iff
  · intro physical overflows
    exact overflows.toVirtual_release
  · intro accessible
    rcases exists_toPhysical profile map accessible with
      ⟨physical, lowered, -⟩
    exact ⟨physical, lowered⟩

end DirectMap

namespace Sample

/-- An offset so high that the addresses below it are not all raised. -/
def upperMap : DirectMap := ⟨0x8000000000001000⟩

/-- The last address that is raised, the one after it, and two frames. -/
theorem upper_oneToOne :
    (upperMap.Raises ⟨0x7fffffffffffefff⟩ ∧
      ∃ accessible,
        upperMap.toVirtual .debug ⟨0x7fffffffffffefff⟩ = .ok accessible ∧
          upperMap.Shows accessible ∧
            upperMap.toPhysical .debug accessible =
              .ok ⟨0x7fffffffffffefff⟩) ∧
    upperMap.toVirtual .debug ⟨0x7ffffffffffff000⟩ = .error .addOverflow ∧
    (upperMap.RaisesStretch ⟨4096⟩ 4096 ∧
      upperMap.RaisesStretch ⟨8192⟩ 4096 ∧
        ∀ address,
          (Mapper.direct upperMap).Accesses .debug ⟨4096⟩ 4096 address →
            ¬ (Mapper.direct upperMap).Accesses .debug ⟨8192⟩ 4096
              address) := by
  have raises : upperMap.Raises ⟨0x7fffffffffffefff⟩ := by
    unfold DirectMap.Raises
    decide
  have overflows : upperMap.Overflows ⟨0x7ffffffffffff000⟩ := by
    unfold DirectMap.Overflows
    decide
  have first : upperMap.RaisesStretch ⟨4096⟩ 4096 := by
    unfold DirectMap.RaisesStretch
    decide
  have second : upperMap.RaisesStretch ⟨8192⟩ 4096 := by
    unfold DirectMap.RaisesStretch
    decide
  rcases DirectMap.oneToOne .debug upperMap with
    ⟨inverts, stopped, -, -, keepsApart⟩
  refine ⟨⟨raises, inverts.raised _ raises⟩,
    (stopped _ _).mpr ⟨rfl, overflows⟩, first, second, ?_⟩
  exact keepsApart.apart _ _ _ _ first second
    (Memory.apart_of_le (by decide) (by decide))

end Sample

end BootMemory
