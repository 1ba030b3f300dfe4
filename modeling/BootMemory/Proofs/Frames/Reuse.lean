import BootMemory.Proofs.Frames.LiveSet

/-!
# Frames that were given back are found next

A release moves the cursor back to its first frame, if the cursor stands behind
it.  The next search then starts no later than there, and the frames that were
just given back are a run that it cannot miss: a request that fits into them is
granted, at the latest where they start.  If the cursor was behind them, it is
granted exactly there.

`Ledger.Reachable.found_after_release` says so of everything that a caller may
give back from a frame boundary on, up to the null address.  A release with the
null address is ignored, also where memory in use at boot starts there;
`Sample.not_every_release_found_next` is such a map.
-/

namespace BootMemory

namespace Machine

variable {offset : UInt64} {machine : Machine}

/-- A free run ahead of the cursor bounds the run that is granted. -/
theorem RunsGrantable.granted_up_to
    (grantable : machine.RunsGrantable offset) (profile : Profile)
    {size : UInt64} (nonzero : size ≠ 0) {first : Nat}
    (ahead : machine.allocator.cursor ≤ first)
    (inside : first + framesFor size.toNat ≤ machine.table.scanLimit)
    (free : machine.table.bitmap.FreeRun first (framesFor size.toNat)) :
    ∃ found later,
      machine.allocator.cursor ≤ found ∧ found ≤ first ∧
        machine.allocate profile size =
          .ok (.ok (Address.ofFrame found)) later := by
  rcases allocate_outcome grantable profile nonzero with
    ⟨found, run, granted⟩ | ⟨missing, -⟩
  · refine ⟨found, _, run.start_le, ?_, granted⟩
    by_contra beyond
    exact run.least first ahead (Nat.lt_of_not_le beyond) free
  · exact absurd free (missing first ahead inside)

end Machine

namespace Ledger

variable {profile : Profile} {offset : UInt64} {map : List Region}
  {ledger : Ledger} {block : Block}

/--
What a caller may give back from a frame boundary on: a live block, or whole
frames in use at boot that were not given back before.
-/
inductive Returnable (map : List Region) (ledger : Ledger) : Block → Prop where
  | live {block : Block} {size : UInt64}
      (member : block ∈ ledger.live)
      (same : framesFor size.toNat = block.count) :
      Returnable map ledger ⟨block.address, size⟩
  | occupied {block : Block}
      (aligned :
        block.address.value.toNat = block.address.frame * frameSize)
      (nonzero : block.size ≠ 0)
      (whole : ∀ frame ∈ block.frames,
        Region.OccupiedFrame map frame ∧ frame ∉ ledger.released) :
      Returnable map ledger block

namespace BitsAccounted

theorem returnable_aligned
    (account : ledger.BitsAccounted offset map)
    (returnable : ledger.Returnable map block) :
    block.address.value.toNat = block.address.frame * frameSize := by
  cases returnable with
  | @live held size member same => exact account.aligned held member
  | occupied aligned nonzero whole => exact aligned

/-- Only the null address is a frame boundary of frame zero. -/
theorem returnable_frame_pos
    (account : ledger.BitsAccounted offset map)
    (returnable : ledger.Returnable map block)
    (named : block.address ≠ Address.null) : 0 < block.address.frame := by
  have aligned := account.returnable_aligned returnable
  apply Nat.pos_of_ne_zero
  intro zero
  rw [zero, Nat.zero_mul] at aligned
  exact named (Address.eq_of_toNat_eq aligned)

/-- What may be given back is memory of the map. -/
theorem returnable_inside
    (account : ledger.BitsAccounted offset map) (mapSound : SoundMap map)
    (returnable : ledger.Returnable map block) :
    block.address.frame + block.count ≤
      ledger.machine.allocator.frameLimit := by
  cases returnable with
  | @live block size member same =>
      have count : (Block.mk block.address size).count = block.count := same
      rw [count]
      apply account.run_inside mapSound (account.positive block member)
      intro frame lower upper
      have lends :=
        account.lent block member frame (Block.mem_frames.mpr ⟨lower, upper⟩)
      exact lends.exists_ram account.released_occupied
  | occupied aligned nonzero whole =>
      apply account.run_inside mapSound
        (framesFor_pos (Machine.toNat_pos_of_ne_zero nonzero))
      intro frame lower upper
      rcases (whole frame (Block.mem_frames.mpr ⟨lower, upper⟩)).1 with
        ⟨region, member, occupied, holds⟩
      exact ⟨region, member, Region.isRam_of_isOccupied occupied, holds⟩

/-- What may be given back is taken back, in either profile. -/
theorem free_returnable
    (account : ledger.BitsAccounted offset map) (mapSound : SoundMap map)
    (profile : Profile) (returnable : ledger.Returnable map block)
    (named : block.address ≠ Address.null) :
    ledger.machine.free profile block.address block.size =
        .ok () (ledger.machine.takeBack block.address block.count) ∧
      ∃ after : Ledger, after.BitsAccounted offset map ∧
        after.machine =
          ledger.machine.takeBack block.address block.count := by
  have positive := account.returnable_frame_pos returnable named
  cases returnable with
  | @live block size member same =>
      have freed := account.free_live mapSound profile member same
      have count : (Block.mk block.address size).count = block.count := same
      rw [count]
      exact ⟨freed, _, account.freed mapSound member same freed, rfl⟩
  | occupied aligned nonzero whole =>
      have covered := account.fits.covered
      have freed :
          ledger.machine.free profile block.address block.size =
            .ok () (ledger.machine.takeBack block.address block.count) := by
        apply Machine.free_of_held profile named nonzero
          account.fits.placed.bits_lt
        intro frame lower upper
        rcases whole frame (Block.mem_frames.mpr ⟨lower, upper⟩) with
          ⟨occupied, kept⟩
        rcases account.held_of_occupied mapSound occupied kept with
          ⟨below, used⟩
        exact ⟨by omega, Nat.lt_of_lt_of_le below covered, used⟩
      exact
        ⟨freed, _, account.handedBack mapSound named nonzero whole freed, rfl⟩

/--
What was given back is granted next, as far as needed, or an earlier run is.
With the cursor behind it there is no earlier run to be found.
-/
theorem granted_up_to_returned
    (account : ledger.BitsAccounted offset map) (mapSound : SoundMap map)
    (profile : Profile) (returnable : ledger.Returnable map block)
    (named : block.address ≠ Address.null)
    {size : UInt64} (nonzero : size ≠ 0)
    (fits : framesFor size.toNat ≤ block.count) :
    ∃ found later,
      found ≤ block.address.frame ∧
        (block.address.frame ≤ ledger.machine.allocator.cursor →
          found = block.address.frame) ∧
        (ledger.machine.takeBack block.address block.count).allocate profile
            size =
          .ok (.ok (Address.ofFrame found)) later := by
  have placed := account.fits.placed
  have covered := account.fits.covered
  have positive := account.returnable_frame_pos returnable named
  have inside := account.returnable_inside mapSound returnable
  rcases account.free_returnable mapSound profile returnable named with
    ⟨-, after, returned, machine_eq⟩
  have grantable := returned.runsGrantable mapSound
  have limit := returned.fits.scanLimit_eq
  rw [machine_eq] at grantable limit
  have within :
      block.address.frame + framesFor size.toNat ≤
        (ledger.machine.takeBack block.address
          block.count).table.scanLimit := by
    rw [limit]
    exact Nat.le_trans (Nat.add_le_add_left fits _) inside
  have free :
      (ledger.machine.takeBack block.address
        block.count).table.bitmap.FreeRun block.address.frame
          (framesFor size.toNat) := by
    intro frame lower upper
    rw [Machine.bit_takeBack placed (by omega), if_pos (by omega)]
  have cursor :=
    ledger.machine.cursor_takeBack block.address block.count
  have ahead :
      (ledger.machine.takeBack block.address
        block.count).allocator.cursor ≤ block.address.frame := by
    rw [cursor]
    split <;> omega
  rcases grantable.granted_up_to profile nonzero ahead within free with
    ⟨found, later, lower, upper, granted⟩
  refine ⟨found, later, upper, ?_, granted⟩
  intro behind
  rw [cursor] at lower
  split at lower <;> omega

end BitsAccounted

/--
What was given back is found by the next request that fits into it, or an
earlier run is.  If the cursor was not below it, nothing else is found.
-/
theorem Reachable.found_after_release
    (mapSound : SoundMap map) (reaches : DirectMap.Reaches ⟨offset⟩ map)
    (reachable : Reachable profile offset map ledger)
    (returnable : ledger.Returnable map block)
    (named : block.address ≠ Address.null)
    {size : UInt64} (nonzero : size ≠ 0)
    (fits : framesFor size.toNat ≤ block.count) :
    ∃ freed address later,
      ledger.machine.free profile block.address block.size =
          .ok () freed ∧
        freed.allocate profile size = .ok (.ok address) later ∧
        address.value.toNat ≤ block.address.value.toNat ∧
        (block.address.frame ≤ ledger.machine.allocator.cursor →
          address = block.address) := by
  have account := reachable.accounted mapSound reaches
  have aligned := account.returnable_aligned returnable
  have inside := account.returnable_inside mapSound returnable
  have some := framesFor_pos (Machine.toNat_pos_of_ne_zero nonzero)
  have freed := (account.free_returnable mapSound profile returnable named).1
  rcases
    account.granted_up_to_returned mapSound profile returnable named nonzero
      fits with
    ⟨found, later, upper, same_of_behind, granted⟩
  have value := account.fits.placed.toNat_ofFrame (by omega : found < _)
  refine ⟨_, _, later, freed, granted, ?_, ?_⟩
  · rw [value, aligned]
    exact Nat.mul_le_mul_right frameSize upper
  · intro behind
    have same := same_of_behind behind
    rw [same, ← aligned] at value
    rw [same]
    exact Address.eq_of_toNat_eq value

end Ledger

namespace Sample

/-- Frame 2 is free as well, but behind the two frames given back. -/
theorem granted_found_again :
    SoundMap gapMap ∧ DirectMap.Reaches ⟨offset⟩ gapMap ∧
      ∃ ledger, Ledger.Reachable .debug offset gapMap ledger ∧
        ledger.Returnable gapMap ⟨Address.ofFrame 4, 8000⟩ ∧
          ledger.machine.table.bitmap.bit 2 = false ∧
            ∃ freed later,
              ledger.machine.free .debug (Address.ofFrame 4) 8000 =
                  .ok () freed ∧
                freed.allocate .debug 4096 =
                  .ok (.ok (Address.ofFrame 4)) later := by
  rcases exists_granted with ⟨ledger, state⟩
  have first : (Address.ofFrame 4).frame = 4 := by decide
  have member : Block.mk (Address.ofFrame 4) 8192 ∈ ledger.live := by
    rw [state.live_eq]
    exact List.mem_singleton.mpr rfl
  have returnable :
      ledger.Returnable gapMap ⟨Address.ofFrame 4, 8000⟩ :=
    .live member (by decide : framesFor (8000 : UInt64).toNat = 2)
  have clear : ledger.machine.table.bitmap.bit 2 = false := by
    rw [state.clear_iff (by omega)]
    simp [Block.mem_frames, first]
  rcases
    Ledger.Reachable.found_after_release gapMap_sound gapMap_reaches
      state.reachable returnable (by decide)
      (by decide : (4096 : UInt64) ≠ 0) (by decide) with
    ⟨freed, address, later, returned, granted, -, exact_of_behind⟩
  have behind :
      (Address.ofFrame 4).frame ≤ ledger.machine.allocator.cursor := by
    rw [first, state.cursor_eq]
    omega
  rw [exact_of_behind behind] at granted
  exact
    ⟨gapMap_sound, gapMap_reaches, ledger, state.reachable, returnable,
      clear, freed, later, returned, granted⟩

/-- A request is never granted at the null address. -/
theorem not_every_release_found_next :
    ¬ ∀ (profile : Profile) (offset : UInt64) (map : List Region)
        (ledger : Ledger) (block : Block) (size : UInt64),
      SoundMap map → DirectMap.Reaches ⟨offset⟩ map →
        Ledger.Reachable profile offset map ledger →
          ledger.Returnable map block → size ≠ 0 →
            framesFor size.toNat ≤ block.count →
              ∃ freed address later,
                ledger.machine.free profile block.address block.size =
                    .ok () freed ∧
                  freed.allocate profile size =
                      .ok (.ok address) later ∧
                    address.value.toNat ≤ block.address.value.toNat ∧
                      (block.address.frame ≤
                          ledger.machine.allocator.cursor →
                        address = block.address) := by
  intro found
  rcases Ledger.Reachable.exists_start .debug lowMap_sound lowMap_reaches
    lowMap_found Memory.zero with ⟨ledger, reachable, -, released, -⟩
  have returnable : ledger.Returnable lowMap ⟨Address.null, 8192⟩ := by
    refine .occupied (by decide) (by decide) ?_
    intro frame member
    rw [released]
    exact ⟨lowMap_occupied frame member, Finset.notMem_empty frame⟩
  rcases
    found .debug offset lowMap ledger ⟨Address.null, 8192⟩ 4096
      lowMap_sound lowMap_reaches reachable returnable (by decide)
      (by decide) with
    ⟨freed, address, later, returned, granted, least, -⟩
  rw [Machine.free_ignored .debug ledger.machine (.inl rfl)] at returned
  cases returned
  have account := reachable.accounted lowMap_sound lowMap_reaches
  have held := account.granted lowMap_sound (by decide) granted
  apply held.address_ne_null (List.mem_cons_self ..)
  exact Address.eq_of_toNat_eq (Nat.le_zero.mp least)

end Sample

end BootMemory
