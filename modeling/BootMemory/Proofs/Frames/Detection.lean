import BootMemory.Proofs.Frames.Ownership

/-!
# Which bad releases are detected

The debug profile looks at the bits of the frames that are given back.  A bit is
also set for frames that nobody was ever lent: memory that is never touched,
frames that lie in a region only in part, those of the bitmap and the padding
behind the end of memory.

`Reachable.free_fault_iff` compares the bits with what is allocated.  A release
is stopped exactly if it names frame zero, a frame without a bit, or a frame
that may be lent and is not allocated; other unallocated frames pass.
`Sample.reservedMap` is a map on which a reserved frame passes.
-/

namespace BootMemory

namespace Ledger

variable {offset : UInt64} {map : List Region} {ledger : Ledger}

/-- A frame of a live block, or of memory in use at boot and not given back. -/
def Allocated (map : List Region) (ledger : Ledger) (frame : Nat) : Prop :=
  (∃ block ∈ ledger.live, frame ∈ block.frames) ∨
    (Region.OccupiedFrame map frame ∧ frame ∉ ledger.released)

/-- Idle frames that may be lent are the ones that are not allocated. -/
theorem lends_idle_iff
    (mapSound : SoundMap map) (frame : Nat) :
    (ledger.Lends offset map frame ∧ ledger.Idle frame) ↔
      ¬ ledger.Allocated map frame ∧ ledger.Lends offset map frame := by
  constructor
  · rintro ⟨lends, idle⟩
    refine ⟨?_, lends⟩
    rintro (⟨block, member, inBlock⟩ | ⟨occupied, kept⟩)
    · exact idle block member inBlock
    · exact BitsAccounted.not_lends_of_occupied mapSound occupied kept lends
  · rintro ⟨unallocated, lends⟩
    refine ⟨lends, ?_⟩
    intro block member inBlock
    exact unallocated (Or.inl ⟨block, member, inBlock⟩)

/-- A frame passes the assertions of a release. -/
def Passes
    (offset : UInt64) (map : List Region) (ledger : Ledger)
    (frame : Nat) : Prop :=
  frame ≠ 0 ∧ frame < ledger.machine.allocator.storage.bits ∧
    (ledger.Allocated map frame ∨ ¬ ledger.Lends offset map frame)

theorem BitsAccounted.passes_iff
    (account : ledger.BitsAccounted offset map) (mapSound : SoundMap map)
    (frame : Nat) :
    ledger.Passes offset map frame ↔
      frame ≠ 0 ∧ frame < ledger.machine.allocator.storage.bits ∧
        ledger.machine.table.bitmap.bit frame = true := by
  have held : frame < ledger.machine.allocator.storage.bits →
      (ledger.machine.table.bitmap.bit frame = true ↔
        ledger.Allocated map frame ∨ ¬ ledger.Lends offset map frame) := by
    intro readable
    rw [← Bool.not_eq_false, account.clear_iff frame readable,
      lends_idle_iff mapSound]
    tauto
  unfold Passes
  constructor
  · rintro ⟨nonzero, readable, kept⟩
    exact ⟨nonzero, readable, (held readable).mpr kept⟩
  · rintro ⟨nonzero, readable, bit⟩
    exact ⟨nonzero, readable, (held readable).mp bit⟩

end Ledger

namespace Sample

/-- The bitmap takes frame 1, frame 2 is never touched, and frame 3 is free. -/
def reservedMap : List Region :=
  [⟨4096, 4096, .usable⟩, ⟨8192, 4096, .reserved⟩, ⟨12288, 4096, .usable⟩]

/-- The bitmap takes up all of the first region. -/
def reservedHost : Host :=
  ⟨[], ⟨4096, 4096, .usable⟩,
    [⟨8192, 4096, .reserved⟩, ⟨12288, 4096, .usable⟩]⟩

theorem reservedMap_sound : SoundMap reservedMap :=
  .of_sorted (by decide) (by decide)

theorem reservedMap_reaches : DirectMap.Reaches ⟨offset⟩ reservedMap :=
  reaches_of_low (by decide)

theorem reservedMap_found :
    Host.find (Boot.bitmapFrames reservedMap * frameSize)
      (reservedMap.map Region.pastFrameZero) = some reservedHost := by
  have frames : Boot.bitmapFrames reservedMap = 1 := by decide
  rw [frames]
  rfl

/-- The frames that a release of the reserved frame names. -/
theorem mem_reservedBlock (frame : Nat) :
    frame ∈ (Block.mk ⟨8192⟩ 4096).frames ↔ frame = 2 := by
  have frames : (Block.mk ⟨8192⟩ 4096).frames = {2} := by decide
  rw [frames, Finset.mem_singleton]

/-- Giving back the reserved frame passes, although nobody was lent it. -/
theorem exists_undetected :
    ∃ ledger, Ledger.Reachable .debug offset reservedMap ledger ∧
      ¬ ledger.Allocated reservedMap 2 ∧
        ∃ later, ledger.machine.free .debug ⟨8192⟩ 4096 = .ok () later := by
  rcases Ledger.Reachable.exists_start .debug reservedMap_sound
    reservedMap_reaches reservedMap_found Memory.zero with
    ⟨ledger, reachable, live, released, books⟩
  have account := reachable.accounted reservedMap_sound reservedMap_reaches
  have bits : ledger.machine.allocator.storage.bits = 32768 := by
    rw [books]
    decide
  have unusable : ¬ Region.UsableFrame reservedMap 2 := by
    unfold Region.UsableFrame
    decide
  have unoccupied : ¬ Region.OccupiedFrame reservedMap 2 := by
    unfold Region.OccupiedFrame
    decide
  have held : ledger.machine.table.bitmap.bit 2 = true := by
    cases bit : ledger.machine.table.bitmap.bit 2 with
    | true => rfl
    | false =>
        have clear := (account.clear_iff 2 (by omega)).mp bit
        rcases clear.1.2 with offers | given
        · exact absurd offers.1 unusable
        · rw [released] at given
          exact absurd given (Finset.notMem_empty 2)
  refine ⟨ledger, reachable, ?_, ?_⟩
  · rintro (⟨block, member, -⟩ | ⟨occupied, -⟩)
    · rw [live] at member
      cases member
    · exact unoccupied occupied
  · refine
      ⟨_, Machine.free_of_held .debug (by decide) (by decide)
        account.fits.placed.bits_lt ?_⟩
    intro frame lower upper
    have named :=
      (mem_reservedBlock frame).mp (Block.mem_frames.mpr ⟨lower, upper⟩)
    rw [named, bits]
    exact ⟨by omega, by omega, held⟩

end Sample

/-! ## The criterion -/

namespace Ledger

variable {offset : UInt64} {map : List Region} {ledger : Ledger}

/--
The debug profile stops a release exactly if one of its frames is frame zero,
has no bit, or may be lent and is not allocated.  It changes nothing then, and
otherwise it takes the frames back.
-/
theorem Reachable.free_fault_iff
    (mapSound : SoundMap map)
    (reaches : DirectMap.Reaches ⟨offset⟩ map)
    (reachable : Reachable .debug offset map ledger)
    {address : PhysicalAddress} {size : UInt64}
    (named : address ≠ Address.null) (nonzero : size ≠ 0) :
    ((∃ fault,
        ledger.machine.free .debug address size =
          .error fault ledger.machine) ↔
      ∃ frame ∈ (Block.mk address size).frames,
        frame = 0 ∨ ledger.machine.allocator.storage.bits ≤ frame ∨
          (¬ ledger.Allocated map frame ∧
            ledger.Lends offset map frame)) ∧
    ((∀ frame ∈ (Block.mk address size).frames,
        ledger.Passes offset map frame) →
      ledger.machine.free .debug address size =
        .ok () (ledger.machine.takeBack address (framesFor size.toNat))) := by
  have account := reachable.accounted mapSound reaches
  have granted : (∀ frame ∈ (Block.mk address size).frames,
      ledger.Passes offset map frame) →
        ledger.machine.free .debug address size =
          .ok ()
            (ledger.machine.takeBack address (framesFor size.toNat)) := by
    intro all
    apply Machine.free_of_held .debug named nonzero
      account.fits.placed.bits_lt
    intro frame lower upper
    exact
      (account.passes_iff mapSound frame).mp
        (all frame (Block.mem_frames.mpr ⟨lower, upper⟩))
  have stopped : ∀ frame,
      ¬ ledger.Passes offset map frame ↔
        frame = 0 ∨ ledger.machine.allocator.storage.bits ≤ frame ∨
          (¬ ledger.Allocated map frame ∧
            ledger.Lends offset map frame) := by
    intro frame
    rw [← Nat.not_lt]
    unfold Passes
    tauto
  refine ⟨?_, granted⟩
  constructor
  · rintro ⟨fault, faulted⟩
    by_contra none
    have all : ∀ frame ∈ (Block.mk address size).frames,
        ledger.Passes offset map frame := by
      intro frame member
      by_contra refused
      exact none ⟨frame, member, (stopped frame).mp refused⟩
    rw [granted all] at faulted
    cases faulted
  · rintro ⟨frame, member, bad⟩
    apply Machine.free_debug_of_unheld named nonzero
    intro held
    have bounds := Block.mem_frames.mp member
    exact
      (stopped frame).mpr bad
        ((account.passes_iff mapSound frame).mpr
          (held frame bounds.1 bounds.2))

end Ledger

namespace Sample

/-- The criterion for the release of the reserved frame. -/
theorem reserved_free_fault_iff :
    SoundMap reservedMap ∧ DirectMap.Reaches ⟨offset⟩ reservedMap ∧
      (⟨8192⟩ : PhysicalAddress) ≠ Address.null ∧ (4096 : UInt64) ≠ 0 ∧
        ∃ ledger, Ledger.Reachable .debug offset reservedMap ledger ∧
          ((∃ fault,
              ledger.machine.free .debug ⟨8192⟩ 4096 =
                .error fault ledger.machine) ↔
            ∃ frame ∈ (Block.mk ⟨8192⟩ 4096).frames,
              frame = 0 ∨
                ledger.machine.allocator.storage.bits ≤ frame ∨
                  (¬ ledger.Allocated reservedMap frame ∧
                    ledger.Lends offset reservedMap frame)) ∧
          ((∀ frame ∈ (Block.mk ⟨8192⟩ 4096).frames,
              ledger.Passes offset reservedMap frame) →
            ledger.machine.free .debug ⟨8192⟩ 4096 =
              .ok () (ledger.machine.takeBack ⟨8192⟩ 1)) := by
  rcases exists_undetected with ⟨ledger, reachable, -, -⟩
  exact
    ⟨reservedMap_sound, reservedMap_reaches, by decide, by decide, ledger,
      reachable,
      Ledger.Reachable.free_fault_iff reservedMap_sound reservedMap_reaches
        reachable (by decide) (by decide)⟩

/-- Frames that are not allocated can be given back in the debug profile. -/
theorem not_every_bad_free_stopped :
    ¬ ∀ (offset : UInt64) (map : List Region) (ledger : Ledger)
        (address : PhysicalAddress) (size : UInt64),
      SoundMap map → DirectMap.Reaches ⟨offset⟩ map →
        Ledger.Reachable .debug offset map ledger →
          address ≠ Address.null → size ≠ 0 →
            (∃ frame ∈ (Block.mk address size).frames,
              ¬ ledger.Allocated map frame) →
              ∃ fault,
                ledger.machine.free .debug address size =
                  .error fault ledger.machine := by
  intro detected
  rcases exists_undetected with
    ⟨ledger, reachable, unallocated, later, passed⟩
  rcases detected offset reservedMap ledger ⟨8192⟩ 4096 reservedMap_sound
    reservedMap_reaches reachable (by decide) (by decide)
    ⟨2, (mem_reservedBlock 2).mpr rfl, unallocated⟩ with
    ⟨fault, stopped⟩
  rw [passed] at stopped
  cases stopped

end Sample

end BootMemory
