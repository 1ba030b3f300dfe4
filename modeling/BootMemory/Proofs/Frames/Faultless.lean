import BootMemory.Proofs.Calls
import BootMemory.Proofs.Frames.Completeness

/-!
# Runs without a fault

In the debug profile every sum, difference and product is checked, and so is
every index into the bitmap.  On a sound map that the direct map reaches, none of
these checks ever fails: not while the allocator is set up, and not in any call
that keeps to the contract.

`Ledger.Permits` says which calls those are; sizes and addresses that are only
asked about are arbitrary.  One assertion is left that such a call can trip:
memory in use at boot may include frame zero, which stays reserved, and giving
it back is refused by `Fault.releaseFrameZero`.
-/

namespace BootMemory

namespace Ledger

/-- A call that keeps to the contract: only giving back is restricted. -/
inductive Permits (map : List Region) (ledger : Ledger) :
    Machine.Call → Prop where
  | allocate (size : UInt64) : Permits map ledger (.allocate size)
  | allocateAccessible (size : UInt64) :
      Permits map ledger (.allocateAccessible size)
  | ignored {address : PhysicalAddress} {size : UInt64}
      (nothing : address = Address.null ∨ size = 0) :
      Permits map ledger (.free address size)
  | live {block : Block} {size : UInt64}
      (member : block ∈ ledger.live)
      (same : framesFor size.toNat = block.count) :
      Permits map ledger (.free block.address size)
  | occupied {block : Block}
      (named : block.address ≠ Address.null) (nonzero : block.size ≠ 0)
      (whole : ∀ frame ∈ block.frames,
        Region.OccupiedFrame map frame ∧ frame ∉ ledger.released) :
      Permits map ledger (.free block.address block.size)
  | info : Permits map ledger .info
  | stats : Permits map ledger .stats
  | isPageUsed (address : PhysicalAddress) :
      Permits map ledger (.isPageUsed address)

variable {offset : UInt64} {map : List Region} {ledger : Ledger}

/-- A call that is permitted and yet stopped names frame zero. -/
def NamesFrameZero : Machine.Call → Prop
  | .free address _ => address ≠ Address.null ∧ address.frame = 0
  | _ => False

namespace BitsAccounted

/-! ## Reports -/

/-- The totals in the books are small enough to be reported in bytes. -/
theorem info_runs
    (account : ledger.BitsAccounted offset map) (mapSound : SoundMap map)
    (profile : Profile) :
    ∃ later, ledger.machine.info profile = .ok () later := by
  have pages := mapSound.pagesWhere_le Region.isRam
  have balance := account.balance_le
  have total := account.fits.total_eq
  have usable := account.fits.usable_eq
  have used :
      ledger.machine.allocator.usedPages ≤ ledger.machine.balance :=
    Nat.le_add_right _ _
  have shown :
      ∃ line, ledger.machine.stats.display profile = .ok line := by
    apply Stats.exists_display
    · change ledger.machine.allocator.totalPages * frameSize < wordCount
      simp only [frameSize, wordCount]
      omega
    · change ledger.machine.allocator.usablePages * frameSize < wordCount
      simp only [frameSize, wordCount]
      omega
    · change ledger.machine.allocator.usedPages * frameSize < wordCount
      simp only [frameSize, wordCount]
      omega
  rcases shown with ⟨line, shown⟩
  unfold Machine.info
  rw [Action.bind_get, Action.bind_lift_of_ok shown]
  exact ⟨_, rfl⟩

/-! ## Accessible memory -/

/-- Memory that was handed out is reached at a proper address. -/
theorem toAccessible_of_live
    (account : ledger.BitsAccounted offset map) (mapSound : SoundMap map)
    (profile : Profile) {block : Block} (member : block ∈ ledger.live) :
    ∃ accessible : VirtualAddress,
      ledger.machine.toAccessible profile block.address = .ok accessible ∧
        ¬ accessible.isNull = true := by
  have placed := account.fits.placed
  have positive := account.positive block member
  have first : block.address.frame ∈ block.frames := by
    rw [Block.mem_frames]
    omega
  have lends := account.lent block member _ first
  have inside := account.frame_lt_limit mapSound lends
  have nonzero := lends.1
  have aligned := account.aligned block member
  have low := placed.frames_le
  have high := placed.reach_le
  simp only [frameSize] at aligned low high
  have below : block.address.value.toNat < offset.toNat := by omega
  have room : block.address.value.toNat + offset.toNat < wordCount := by omega
  refine
    ⟨⟨UInt64.ofNat (block.address.value.toNat + offset.toNat)⟩, ?_, ?_⟩
  · rw [Machine.toAccessible, placed.mapper_eq]
    exact
      @DirectMap.toVirtual_of_lt ⟨offset⟩ profile block.address below room
  · rw [Address.isNull_iff]
    intro null
    have value := congrArg (fun address => address.value.toNat) null
    simp only [UInt64.toNat_ofNat', Address.null, UInt64.toNat_zero,
      wordCount] at value room
    omega

/-- Memory that is granted is exposed as well. -/
theorem allocateAccessible_of_granted
    (account : ledger.BitsAccounted offset map) (mapSound : SoundMap map)
    {profile : Profile} {size : UInt64} {address : PhysicalAddress}
    {machine : Machine} (nonzero : size ≠ 0)
    (served :
      ledger.machine.allocate profile size = .ok (.ok address) machine) :
    ∃ accessible,
      machine.toAccessible profile address = .ok accessible ∧
        ledger.machine.allocateAccessible profile size =
          .ok (.ok accessible) machine := by
  have granted := account.granted mapSound nonzero served
  have member : ⟨address, size⟩ ∈ Block.mk address size :: ledger.live :=
    List.mem_cons_self ..
  rcases granted.toAccessible_of_live mapSound profile member with
    ⟨accessible, raised, proper⟩
  rw [Address.isNull_iff] at proper
  exact
    ⟨accessible, raised,
      Machine.allocateAccessible_of_exposed served
        (Machine.expose_of_ok (granted.address_ne_null member) raised)
        proper⟩

/-- A request for accessible memory is answered. -/
theorem allocateAccessible_runs
    (account : ledger.BitsAccounted offset map) (mapSound : SoundMap map)
    (profile : Profile) (size : UInt64) :
    ∃ result later,
      ledger.machine.allocateAccessible profile size = .ok result later := by
  by_cases zero : size = 0
  · rw [zero, Machine.allocateAccessible_zero]
    exact ⟨_, _, rfl⟩
  rcases (account.runsGrantable mapSound).answers profile size with
    ⟨result, later, served⟩
  cases result with
  | error refusal =>
      exact ⟨_, _, Machine.allocateAccessible_of_refused served⟩
  | ok address =>
      rcases account.allocateAccessible_of_granted mapSound zero served with
        ⟨accessible, -, ran⟩
      exact ⟨_, _, ran⟩

/-! ## Giving back -/

/-- Memory in use at boot is taken back, unless frame zero is the first of it. -/
theorem free_occupied
    (account : ledger.BitsAccounted offset map) (mapSound : SoundMap map)
    {block : Block} (named : block.address ≠ Address.null)
    (nonzero : block.size ≠ 0)
    (whole : ∀ frame ∈ block.frames,
      Region.OccupiedFrame map frame ∧ frame ∉ ledger.released) :
    (∃ later,
      ledger.machine.free .debug block.address block.size = .ok () later) ∨
    block.address.frame = 0 ∧
      ledger.machine.free .debug block.address block.size =
        .error .releaseFrameZero ledger.machine := by
  have placed := account.fits.placed
  have covered := account.fits.covered
  have held : ∀ frame ∈ block.frames,
      frame < ledger.machine.allocator.storage.bits ∧
        ledger.machine.table.bitmap.bit frame = true := by
    intro frame member
    rcases whole frame member with ⟨occupied, kept⟩
    rcases account.held_of_occupied mapSound occupied kept with ⟨below, used⟩
    exact ⟨Nat.lt_of_lt_of_le below covered, used⟩
  have positive := framesFor_pos (Machine.toNat_pos_of_ne_zero nonzero)
  by_cases zero : block.address.frame = 0
  · refine Or.inr ⟨zero, Machine.free_of_assert_error named nonzero ?_⟩
    have last :
        block.address.frame + (framesFor block.size.toNat - 1) ∈
          block.frames := by
      rw [Block.mem_frames, Block.count]
      omega
    have stop := Machine.runStop_eq block.address block.size
    have inside := (held _ last).1
    rw [zero] at stop inside ⊢
    refine
      FrameTable.assertReleasable_debug_of_stops (by decide)
        (.frameZero ?_ rfl)
    rw [stop, Machine.bits_table]
    omega
  · refine
      Or.inl
        ⟨_, Machine.free_of_held .debug named nonzero placed.bits_lt ?_⟩
    intro frame lower upper
    have facts := held frame (Block.mem_frames.mpr ⟨lower, upper⟩)
    exact ⟨by omega, facts⟩

/-- With all bits accounted for, a permitted call runs or names frame zero. -/
theorem permitted_runs
    (account : ledger.BitsAccounted offset map) (mapSound : SoundMap map)
    {call : Machine.Call} (permitted : ledger.Permits map call) :
    (∃ answer later,
      ledger.machine.perform .debug call = .ok answer later) ∨
    NamesFrameZero call ∧
      ledger.machine.perform .debug call =
        .error .releaseFrameZero ledger.machine := by
  cases permitted with
  | allocate size =>
      rcases (account.runsGrantable mapSound).answers .debug size with
        ⟨result, later, served⟩
      exact Or.inl ⟨_, _, Action.bind_of_ok served⟩
  | allocateAccessible size =>
      rcases account.allocateAccessible_runs mapSound .debug size with
        ⟨result, later, served⟩
      exact Or.inl ⟨_, _, Action.bind_of_ok served⟩
  | ignored nothing =>
      have skipped := Machine.free_ignored .debug ledger.machine nothing
      exact Or.inl ⟨_, _, Action.bind_of_ok skipped⟩
  | live member same =>
      have freed := account.free_live mapSound .debug member same
      exact Or.inl ⟨_, _, Action.bind_of_ok freed⟩
  | occupied named nonzero whole =>
      rcases account.free_occupied mapSound named nonzero whole with
        ⟨later, freed⟩ | ⟨zero, refused⟩
      · exact Or.inl ⟨_, _, Action.bind_of_ok freed⟩
      · exact Or.inr ⟨⟨named, zero⟩, Action.bind_of_error refused⟩
  | info =>
      rcases account.info_runs mapSound .debug with ⟨later, ran⟩
      exact Or.inl ⟨_, _, Action.bind_of_ok ran⟩
  | stats => exact Or.inl ⟨_, _, rfl⟩
  | isPageUsed address => exact Or.inl ⟨_, _, rfl⟩

end BitsAccounted

/--
In the debug profile no arithmetic overflows and no index leaves the bitmap: a
set-up finishes, and so does every permitted call in every reachable state, up
to the assertion that frame zero is not given back.
-/
theorem Reachable.runs_without_fault
    (mapSound : SoundMap map) (reaches : DirectMap.Reaches ⟨offset⟩ map) :
    (∀ boot : Boot, boot.map = map →
      ∃ result middle,
        boot.setUp .debug (.direct ⟨offset⟩) = .ok result middle) ∧
    ∀ (ledger : Ledger) (call : Machine.Call),
      Reachable .debug offset map ledger → ledger.Permits map call →
        (∃ answer later,
          ledger.machine.perform .debug call = .ok answer later) ∨
        NamesFrameZero call ∧
          ledger.machine.perform .debug call =
            .error .releaseFrameZero ledger.machine := by
  constructor
  · rintro boot rfl
    rcases Boot.setUp_outcome .debug mapSound reaches with
      ⟨-, middle, ran⟩ | ⟨-, -, middle, ran⟩ | ⟨host, log, -, ran⟩
    · exact ⟨_, _, ran⟩
    · exact ⟨_, _, ran⟩
    · exact ⟨_, _, ran⟩
  · intro ledger call reachable permitted
    exact
      (reachable.accounted mapSound reaches).permitted_runs mapSound permitted

end Ledger

namespace Sample

/-- The greatest size there is can be asked for on the sample. -/
theorem gap_runs_without_fault :
    SoundMap gapMap ∧ DirectMap.Reaches ⟨offset⟩ gapMap ∧
      (∃ result middle,
        Boot.setUp .debug (.direct ⟨offset⟩) ⟨gapMap, .zero, []⟩ =
          .ok result middle) ∧
      ∃ ledger, Ledger.Reachable .debug offset gapMap ledger ∧
        ∃ answer later,
          ledger.machine.perform .debug
              (.allocateAccessible 0xffff_ffff_ffff_ffff) =
            .ok answer later := by
  rcases exists_granted with ⟨ledger, state⟩
  have runs := Ledger.Reachable.runs_without_fault gapMap_sound gapMap_reaches
  refine
    ⟨gapMap_sound, gapMap_reaches, runs.1 ⟨gapMap, .zero, []⟩ rfl, ledger,
      state.reachable, ?_⟩
  rcases
    runs.2 ledger _ state.reachable
      (.allocateAccessible 0xffff_ffff_ffff_ffff) with
    served | ⟨named, -⟩
  · exact served
  · cases named

end Sample

end BootMemory
