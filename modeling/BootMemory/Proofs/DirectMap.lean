import BootMemory.DirectMap
import Mathlib.Algebra.Group.Nat.Defs

/-!
# Translating twice

A direct map decides by one comparison with its offset on which side an address
lies.  Towards accessible memory that is enough: what was raised by the offset is
not below it, so a second translation changes nothing.

Towards physical memory it is not.  From twice the offset on, an address that was
lowered by the offset is still not below it, and the second translation lowers it
again.  `DirectMap.idempotent_iff` draws the line for every offset and address;
`Sample.not_every_translation_idempotent` is an address beyond it.
-/

namespace BootMemory

namespace DirectMap

variable {map : DirectMap}

theorem covers_iff {address : UInt64} :
    map.covers address = true ↔ map.offset.toNat ≤ address.toNat := by
  rw [covers, decide_eq_true_iff, UInt64.le_iff_toNat_le]

/-- The translation into the direct map stays inside the words. -/
def HasRoom (map : DirectMap) (address : UInt64) : Prop :=
  address.toNat < map.offset.toNat →
    address.toNat + map.offset.toNat < wordCount

/-! ## One translation -/

theorem toVirtual_of_le
    (profile : Profile) {address : PhysicalAddress}
    (above : map.offset.toNat ≤ address.value.toNat) :
    map.toVirtual profile address = .ok ⟨address.value⟩ := by
  rw [toVirtual, if_pos (covers_iff.mpr above)]

/-- A direct map whose sum stays inside the word adds its offset. -/
theorem toVirtual_of_lt
    (profile : Profile) {address : PhysicalAddress}
    (below : address.value.toNat < map.offset.toNat)
    (room : address.value.toNat + map.offset.toNat < wordCount) :
    map.toVirtual profile address =
      .ok ⟨UInt64.ofNat (address.value.toNat + map.offset.toNat)⟩ := by
  have physical : ¬ map.covers address.value = true := by
    rw [covers_iff]
    omega
  rw [toVirtual, if_neg physical, Profile.addWord, profile.add_of_lt room]
  rfl

/-- A direct map takes its offset off whatever lies inside it. -/
theorem toPhysical_of_le
    (profile : Profile) {address : VirtualAddress}
    (above : map.offset.toNat ≤ address.value.toNat) :
    map.toPhysical profile address =
      .ok ⟨UInt64.ofNat (address.value.toNat - map.offset.toNat)⟩ := by
  have bound := address.value.toNat_lt
  rw [toPhysical, if_pos (covers_iff.mpr above), Profile.subWord,
    profile.sub_of_le bound above]
  rfl

theorem toPhysical_of_lt
    (profile : Profile) {address : VirtualAddress}
    (below : address.value.toNat < map.offset.toNat) :
    map.toPhysical profile address = .ok ⟨address.value⟩ := by
  have outside : ¬ map.covers address.value = true := by
    rw [covers_iff]
    omega
  rw [toPhysical, if_neg outside]

/-- What a translation with room yields lies inside the direct map. -/
theorem HasRoom.exists_toVirtual
    {address : UInt64} (room : map.HasRoom address) (profile : Profile) :
    ∃ accessible,
      map.toVirtual profile ⟨address⟩ = .ok accessible ∧
        map.offset.toNat ≤ accessible.value.toNat := by
  by_cases above : map.offset.toNat ≤ address.toNat
  · exact ⟨_, toVirtual_of_le profile above, above⟩
  · have below : address.toNat < map.offset.toNat := by omega
    have small := room below
    refine ⟨_, toVirtual_of_lt profile below small, ?_⟩
    rw [UInt64.toNat_ofNat', Nat.mod_eq_of_lt small]
    exact Nat.le_add_left _ _

/-- Every address has a physical one, which is not above it. -/
theorem exists_toPhysical
    (profile : Profile) (map : DirectMap) (address : VirtualAddress) :
    ∃ physical,
      map.toPhysical profile address = .ok physical ∧
        physical.value.toNat =
          if map.offset.toNat ≤ address.value.toNat then
            address.value.toNat - map.offset.toNat
          else
            address.value.toNat := by
  have bound := address.value.toNat_lt
  by_cases above : map.offset.toNat ≤ address.value.toNat
  · refine ⟨_, toPhysical_of_le profile above, ?_⟩
    rw [if_pos above, UInt64.toNat_ofNat', Nat.mod_eq_of_lt (by omega)]
  · refine ⟨_, toPhysical_of_lt profile (by omega), ?_⟩
    rw [if_neg above]

/-- What was raised by the offset is lowered to where it came from. -/
theorem toPhysical_of_toVirtual
    (profile : Profile) {physical : PhysicalAddress}
    {accessible : VirtualAddress}
    (room : map.HasRoom physical.value)
    (near :
      map.offset.toNat = 0 ∨ physical.value.toNat < map.offset.toNat)
    (raised : map.toVirtual profile physical = .ok accessible) :
    map.toPhysical profile accessible = .ok physical ∧
      accessible.value.toNat =
        map.offset.toNat + physical.value.toNat := by
  have value :
      accessible.value.toNat =
        map.offset.toNat + physical.value.toNat := by
    rcases near with zero | below
    · rw [toVirtual_of_le profile (by omega)] at raised
      cases raised
      dsimp only
      omega
    · have small := room below
      rw [toVirtual_of_lt profile below small] at raised
      cases raised
      rw [UInt64.toNat_ofNat', Nat.mod_eq_of_lt small]
      exact Nat.add_comm _ _
  refine ⟨?_, value⟩
  rw [toPhysical_of_le profile (by omega), Except.ok.injEq]
  apply Address.eq_of_toNat_eq
  have bound := physical.value.toNat_lt
  rw [value, Nat.add_sub_cancel_left, UInt64.toNat_ofNat',
    Nat.mod_eq_of_lt bound]

/-! ## Two translations -/

/-- A physical address stays as it is exactly if it lies below the offset. -/
theorem toPhysical_self_iff
    (profile : Profile) {physical : PhysicalAddress} :
    map.toPhysical profile ⟨physical.value⟩ = .ok physical ↔
      map.offset = 0 ∨ physical.value.toNat < map.offset.toNat := by
  have zero : map.offset = 0 ↔ map.offset.toNat = 0 := by
    rw [← UInt64.toNat_inj, UInt64.toNat_zero]
  rw [zero]
  rcases exists_toPhysical profile map ⟨physical.value⟩ with
    ⟨again, translated, value⟩
  rw [translated, Except.ok.injEq]
  dsimp only at value
  constructor
  · intro same
    rw [same] at value
    split at value <;> omega
  · intro settled
    apply Address.eq_of_toNat_eq
    rw [value]
    split <;> omega

/--
Translating twice into a direct map is translating once.  Out of it that is so
exactly for the addresses below twice the offset, or if the offset is zero.
-/
theorem idempotent_iff
    (profile : Profile) (map : DirectMap) {address : UInt64}
    (room : map.HasRoom address) :
    (∃ accessible,
      map.toVirtual profile ⟨address⟩ = .ok accessible ∧
        map.toVirtual profile ⟨accessible.value⟩ = .ok accessible) ∧
    ∃ physical,
      map.toPhysical profile ⟨address⟩ = .ok physical ∧
        (map.toPhysical profile ⟨physical.value⟩ = .ok physical ↔
          map.offset = 0 ∨ address.toNat < 2 * map.offset.toNat) := by
  constructor
  · rcases room.exists_toVirtual profile with ⟨accessible, reached, inside⟩
    exact ⟨accessible, reached, toVirtual_of_le profile inside⟩
  · rcases exists_toPhysical profile map ⟨address⟩ with
      ⟨physical, lowered, value⟩
    dsimp only at value
    refine ⟨physical, lowered, ?_⟩
    rw [toPhysical_self_iff, value]
    apply or_congr_right
    split <;> omega

end DirectMap

namespace Sample

/-- The last address that one translation takes below an offset of 4096. -/
theorem last_idempotent :
    DirectMap.HasRoom ⟨4096⟩ 8191 ∧
      ∃ physical,
        DirectMap.toPhysical .debug ⟨4096⟩ ⟨8191⟩ = .ok physical ∧
          DirectMap.toPhysical .debug ⟨4096⟩ ⟨physical.value⟩ =
            .ok physical := by
  have room : DirectMap.HasRoom ⟨4096⟩ 8191 := by
    unfold DirectMap.HasRoom
    decide
  rcases DirectMap.idempotent_iff .debug ⟨4096⟩ room with
    ⟨-, physical, lowered, settled⟩
  exact ⟨room, physical, lowered, settled.mpr (.inr (by decide))⟩

/-- From twice the offset on, a second translation lowers an address again. -/
theorem not_every_translation_idempotent :
    ¬ ∀ (profile : Profile) (map : DirectMap) (address : UInt64),
      map.HasRoom address →
        (∃ accessible,
          map.toVirtual profile ⟨address⟩ = .ok accessible ∧
            map.toVirtual profile ⟨accessible.value⟩ = .ok accessible) ∧
        ∃ physical,
          map.toPhysical profile ⟨address⟩ = .ok physical ∧
            map.toPhysical profile ⟨physical.value⟩ = .ok physical := by
  intro idempotent
  have room : DirectMap.HasRoom ⟨4096⟩ 12288 := by
    unfold DirectMap.HasRoom
    decide
  rcases idempotent .debug ⟨4096⟩ 12288 room with
    ⟨-, physical, lowered, settled⟩
  have once :
      DirectMap.toPhysical .debug ⟨4096⟩ ⟨12288⟩ = .ok ⟨8192⟩ := by
    rw [DirectMap.toPhysical_of_le .debug (by decide)]
    rfl
  rw [once] at lowered
  cases lowered
  rw [DirectMap.toPhysical_self_iff] at settled
  revert settled
  decide

end Sample

end BootMemory
