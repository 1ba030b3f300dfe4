import BootMemory.Proofs.Frames.Completeness

/-!
# Exclusive ownership

Every block that is handed out belongs to its holder alone: no live block
shares a byte with another one, with frame zero, with the bitmap, with memory
that is never touched, or with memory in use at boot that was not given back.

The bytes of a block are those of its frames, and each of its frames may be
lent, so all of this is read off the invariant `Ledger.BitsAccounted`.
-/

namespace BootMemory

namespace Ledger

variable {offset : UInt64} {map : List Region} {ledger : Ledger}

/-- No byte of a live block belongs to anything else. -/
structure Exclusive
    (offset : UInt64) (map : List Region) (ledger : Ledger) : Prop where
  blocks : ledger.live.Pairwise fun left right =>
    ∀ byte, left.Contains byte → ¬ right.Contains byte
  frameZero : ∀ block ∈ ledger.live, ∀ byte, block.Contains byte →
    frameSize ≤ byte
  bitmap : ∀ block ∈ ledger.live, ∀ byte, block.Contains byte →
    ¬ (ledger.machine.place offset ≤ byte ∧
      byte < ledger.machine.place offset +
        ledger.machine.allocator.storage.length)
  untouched : ∀ block ∈ ledger.live, ∀ byte, block.Contains byte →
    ∀ region ∈ map, region.kind = .reserved ∨ region.kind = .other →
      ¬ region.Contains byte
  occupied : ∀ block ∈ ledger.live, ∀ byte, block.Contains byte →
    ∀ region ∈ map, region.isOccupied = true → region.Contains byte →
      byte / frameSize ∈ ledger.released

namespace BitsAccounted

/-- The bytes of a live block are those of its frames. -/
theorem contains_iff
    (account : ledger.BitsAccounted offset map) {block : Block}
    (member : block ∈ ledger.live) (byte : Nat) :
    block.Contains byte ↔ byte / frameSize ∈ block.frames := by
  have aligned := account.aligned block member
  rw [Block.Contains, Block.mem_frames, aligned]
  simp only [frameSize]
  omega

theorem lends_of_contains
    (account : ledger.BitsAccounted offset map) {block : Block}
    (member : block ∈ ledger.live) {byte : Nat}
    (inside : block.Contains byte) :
    ledger.Lends offset map (byte / frameSize) :=
  account.lent block member _ ((account.contains_iff member byte).mp inside)

/-- A byte of a frame that may be lent lies in memory of the map only. -/
theorem region_of_lends
    (account : ledger.BitsAccounted offset map) (mapSound : SoundMap map)
    {byte : Nat} (lends : ledger.Lends offset map (byte / frameSize))
    {region : Region} (member : region ∈ map)
    (inside : region.Contains byte) :
    region.isUsable = true ∨
      region.isOccupied = true ∧ byte / frameSize ∈ ledger.released := by
  rcases lends.2 with
    ⟨⟨offered, offeredMember, usable, holds⟩, -⟩ | released
  · have same : offered = region :=
      mapSound.eq_of_contains offeredMember member (holds.contains rfl) inside
    rw [← same]
    exact Or.inl usable
  · rcases account.released_occupied _ released with
      ⟨inUse, inUseMember, occupied, holds⟩
    have same : inUse = region :=
      mapSound.eq_of_contains inUseMember member (holds.contains rfl) inside
    rw [← same]
    exact Or.inr ⟨occupied, released⟩

theorem exclusive
    (account : ledger.BitsAccounted offset map) (mapSound : SoundMap map) :
    ledger.Exclusive offset map where
  blocks := by
    refine account.disjoint.imp_of_mem ?_
    intro left right leftMember rightMember disjoint byte inLeft inRight
    exact
      Finset.disjoint_left.mp disjoint
        ((account.contains_iff leftMember byte).mp inLeft)
        ((account.contains_iff rightMember byte).mp inRight)
  frameZero := by
    intro block member byte inside
    have lends := account.lends_of_contains member inside
    have nonzero := lends.1
    simp only [frameSize] at nonzero ⊢
    omega
  bitmap := by
    rintro block member byte inside ⟨lower, upper⟩
    have lends := account.lends_of_contains member inside
    have apart := account.apart mapSound lends
    simp only [Machine.Apart, frameSize] at apart
    omega
  untouched := by
    intro block member byte inside region regionMember kind inRegion
    have lends := account.lends_of_contains member inside
    rcases account.region_of_lends mapSound lends regionMember inRegion with
      usable | ⟨occupied, -⟩
    · rcases kind with reserved | other
      · simp [Region.isUsable, reserved] at usable
      · simp [Region.isUsable, other] at usable
    · rcases kind with reserved | other
      · simp [Region.isOccupied, RegionKind.isOccupiedRam, reserved]
          at occupied
      · simp [Region.isOccupied, RegionKind.isOccupiedRam, other] at occupied
  occupied := by
    intro block member byte inside region regionMember occupied inRegion
    have lends := account.lends_of_contains member inside
    rcases account.region_of_lends mapSound lends regionMember inRegion with
      usable | ⟨-, released⟩
    · rw [Region.not_isOccupied_of_isUsable usable] at occupied
      cases occupied
    · exact released

end BitsAccounted

/--
Throughout a run live blocks are owned exclusively, and so is the block that
the next request is granted.
-/
theorem Reachable.exclusive_ownership
    {profile : Profile} (mapSound : SoundMap map)
    (reaches : DirectMap.Reaches ⟨offset⟩ map)
    (reachable : Reachable profile offset map ledger) :
    ledger.Exclusive offset map ∧
      ∀ (size : UInt64) (address : PhysicalAddress) (machine : Machine),
        size ≠ 0 →
          ledger.machine.allocate profile size =
              .ok (.ok address) machine →
            Exclusive offset map
              { ledger with
                machine, live := ⟨address, size⟩ :: ledger.live } := by
  have account := reachable.accounted mapSound reaches
  constructor
  · exact account.exclusive mapSound
  · intro size address machine nonzero ran
    exact (account.granted mapSound nonzero ran).exclusive mapSound

end Ledger

namespace Sample

/-- The block that the sample grants is owned exclusively. -/
theorem granted_exclusive_ownership :
    SoundMap gapMap ∧ DirectMap.Reaches ⟨offset⟩ gapMap ∧
      ∃ ledger, Ledger.Reachable .debug offset gapMap ledger ∧
        ledger.live = [⟨Address.ofFrame 4, 8192⟩] ∧
          ledger.Exclusive offset gapMap ∧
            ∀ (size : UInt64) (address : PhysicalAddress)
                (machine : Machine),
              size ≠ 0 →
                ledger.machine.allocate .debug size =
                    .ok (.ok address) machine →
                  Ledger.Exclusive offset gapMap
                    { ledger with
                      machine, live := ⟨address, size⟩ :: ledger.live } := by
  rcases exists_granted with ⟨ledger, state⟩
  exact
    ⟨gapMap_sound, gapMap_reaches, ledger, state.reachable, state.live_eq,
      Ledger.Reachable.exclusive_ownership gapMap_sound gapMap_reaches
        state.reachable⟩

end Sample

end BootMemory
