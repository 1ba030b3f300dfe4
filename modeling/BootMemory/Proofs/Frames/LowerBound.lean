import BootMemory.Proofs.Frames.Reuse

/-!
# The reported lower bound

The statistics name the lowest address that the allocator may hand out.  It is
computed once, from the memory that is free at boot, but memory in use at boot
can be given back later and is handed out like any other, also where it lies
below all that was free.

`Ledger.Opening.lowestUsable_le_iff` says which addresses keep to the bound: all
of a run, except those of frames given back before which no free memory starts.
The bound holds of all runs exactly if no frame in use at boot, frame zero
excepted, is of that kind.  `Sample.exists_grant_below` is a run on a map that
has one.
-/

namespace BootMemory

/-! ## The least base of free memory -/

/-- Memory that is free at boot starts with a frame or before it. -/
def Region.FreeBy (map : List Region) (frame : Nat) : Prop :=
  ∃ region ∈ map, region.isOffered = true ∧
    region.base.toNat ≤ frame * frameSize

theorem Region.UsableFrame.freeBy
    {map : List Region} {frame : Nat}
    (usable : Region.UsableFrame map frame) : Region.FreeBy map frame := by
  rcases usable with ⟨region, member, isUsable, holds⟩
  exact
    ⟨region, member,
      Region.isOffered_iff.mpr ⟨isUsable, holds.length_ne_zero⟩, holds.1⟩

namespace Census

/-- What the census has met so far starts at or below a bound. -/
def StartsBy (census : Census) (bound : Nat) : Prop :=
  ∃ lowest ∈ census.lowestUsable, lowest ≤ bound

theorem startsBy_tally
    (census : Census) (region : Region) (bound : Nat) :
    (census.tally region).StartsBy bound ↔
      census.StartsBy bound ∨
        region.isOffered = true ∧ region.base.toNat ≤ bound := by
  unfold StartsBy
  rw [lowestUsable_tally]
  cases region.isOffered with
  | false => simp
  | true =>
      unfold lower
      cases census.lowestUsable with
      | none => simp
      | some lowest => simp

theorem startsBy_foldl
    (map : List Region) (census : Census) (bound : Nat) :
    (map.foldl tally census).StartsBy bound ↔
      census.StartsBy bound ∨
        ∃ region ∈ map, region.isOffered = true ∧
          region.base.toNat ≤ bound := by
  induction map generalizing census with
  | nil => simp
  | cons head map inductionHypothesis =>
      rw [List.foldl_cons, inductionHypothesis, startsBy_tally]
      simp [or_assoc]

theorem startsBy_ofMap (map : List Region) (bound : Nat) :
    (ofMap map).StartsBy bound ↔
      ∃ region ∈ map, region.isOffered = true ∧
        region.base.toNat ≤ bound := by
  rw [ofMap, startsBy_foldl]
  simp [StartsBy, empty]

/-- What the census reports is the least base of free memory. -/
theorem exists_base_eq
    {map : List Region} {lowest : Nat}
    (least : (ofMap map).lowestUsable = some lowest) :
    ∃ region ∈ map, region.isOffered = true ∧
      region.base.toNat = lowest := by
  rcases
    (startsBy_ofMap map lowest).mp ⟨lowest, least, Nat.le_refl _⟩ with
    ⟨region, member, offered, below⟩
  rcases
    (startsBy_ofMap map region.base.toNat).mpr
      ⟨region, member, offered, Nat.le_refl _⟩ with
    ⟨other, same, above⟩
  rw [least] at same
  cases same
  exact ⟨region, member, offered, Nat.le_antisymm below above⟩

end Census

namespace Ledger

variable {profile : Profile} {offset : UInt64} {map : List Region}
  {start before after ledger : Ledger}

/-! ## The bound never moves -/

theorem BitsAccounted.lowestUsable_step
    (account : before.BitsAccounted offset map) (mapSound : SoundMap map)
    (taken : Step profile map before after) :
    after.machine.stats.lowestUsable = before.machine.stats.lowestUsable := by
  cases taken with
  | granted nonzero ran =>
      rcases account.granted_run mapSound nonzero ran with
        ⟨first, wrapped, -, rfl, -, -⟩
      rfl
  | unserved nothing ran =>
      rcases account.unserved_run mapSound nothing ran with ⟨log, rfl⟩
      rfl
  | ignored nothing ran =>
      rw [Machine.free_ignored profile before.machine nothing] at ran
      cases ran
      rfl
  | freed member same ran =>
      rw [account.free_live mapSound profile member same] at ran
      cases ran
      rfl
  | handedBack named nonzero whole ran =>
      rw [
        Machine.free_ok named nonzero account.fits.placed.bits_lt ran]
      rfl

theorem Run.lowestUsable_eq
    (mapSound : SoundMap map) (account : start.BitsAccounted offset map)
    (run : Run profile map start ledger) :
    ledger.machine.stats.lowestUsable =
      start.machine.stats.lowestUsable := by
  induction run with
  | refl => rfl
  | tail earlier taken inductionHypothesis =>
      have reached := (Run.accounted mapSound account earlier).1
      exact
        (reached.lowestUsable_step mapSound taken).trans inductionHypothesis

/-- A frame starts at the bound or above if free memory starts no later. -/
theorem Opening.lowestUsable_le_ofFrame
    (mapSound : SoundMap map) (reaches : DirectMap.Reaches ⟨offset⟩ map)
    (opening : Opening profile offset map start)
    {frame : Nat} (nonzero : frame ≠ 0)
    (small : frame < frameCount) :
    start.machine.stats.lowestUsable.value ≤
        (Address.ofFrame frame).value ↔
      Region.FreeBy map frame := by
  cases opening with
  | @setUp boot middle allocator same ran =>
      subst same
      rcases Boot.setUp_ok mapSound reaches ran with ⟨host, found, rfl, -⟩
      rcases
        Boot.exists_lowestUsable
          (Boot.any_isOffered_of_found found mapSound) with
        ⟨lowest, least⟩
      rcases Census.exists_base_eq least with ⟨region, -, -, base⟩
      have word := region.base.toNat_lt
      have reported :
          (middle.start
              (Boot.founder offset boot.map host)).stats.lowestUsable =
            ⟨UInt64.ofNat (max lowest frameSize)⟩ := by
        simp only [Machine.stats, Allocator.stats, Boot.start, Boot.founder,
          Boot.founded, least, Option.getD_some]
      have value :
          (UInt64.ofNat (max lowest frameSize)).toNat =
            max lowest frameSize := by
        rw [UInt64.toNat_ofNat']
        simp only [frameSize]
        omega
      rw [reported, UInt64.le_iff_toNat_le, value,
        Address.toNat_ofFrame small, Region.FreeBy,
        ← Census.startsBy_ofMap, Census.StartsBy, least]
      simp only [Option.mem_def, Option.some.injEq, exists_eq_left',
        frameSize]
      omega

/-! ## Frames in use at boot are handed out in their turn -/

/-- An address that the next request of some size is granted. -/
def Grants
    (profile : Profile) (ledger : Ledger) (address : PhysicalAddress) :
    Prop :=
  ∃ size later, size ≠ 0 ∧
    ledger.machine.allocate profile size = .ok (.ok address) later

/-- A granted address is that of a frame that may be lent. -/
theorem BitsAccounted.lends_of_grants
    (account : ledger.BitsAccounted offset map) (mapSound : SoundMap map)
    {address : PhysicalAddress} (grants : ledger.Grants profile address) :
    ∃ frame, frame < frameCount ∧
      address = Address.ofFrame frame ∧ ledger.Lends offset map frame := by
  rcases grants with ⟨size, later, nonzero, ran⟩
  have positive :=
    framesFor_pos (Machine.toNat_pos_of_ne_zero nonzero)
  have covered := account.fits.covered
  rcases account.granted_run mapSound nonzero ran with
    ⟨first, -, rfl, -, inside, free⟩
  have clear := free first (Nat.le_refl _) (by omega)
  exact
    ⟨first, account.fits.placed.lt_frameCount (by omega), rfl,
      ((account.clear_iff first (by omega)).mp clear).1⟩

/-- A frame in use at boot can be handed back, and is granted in its turn. -/
theorem BitsAccounted.grants_up_to_occupied
    (account : ledger.BitsAccounted offset map) (mapSound : SoundMap map)
    (profile : Profile) {frame : Nat} (nonzero : frame ≠ 0)
    (occupied : Region.OccupiedFrame map frame)
    (kept : frame ∉ ledger.released) :
    ∃ after : Ledger, Step profile map ledger after ∧
      ∃ found, found ≤ frame ∧
        after.Grants profile (Address.ofFrame found) := by
  have below := (account.held_of_occupied mapSound occupied kept).1
  have small := account.fits.placed.lt_frameCount below
  have first : (Address.ofFrame frame).frame = frame :=
    Address.frame_ofFrame_of_lt small
  have one : framesFor (4096 : UInt64).toNat = 1 := by decide
  have some : (4096 : UInt64) ≠ 0 := by decide
  have named := Address.ofFrame_ne_null small nonzero
  have whole : ∀ other ∈ (Block.mk (Address.ofFrame frame) 4096).frames,
      Region.OccupiedFrame map other ∧ other ∉ ledger.released := by
    intro other member
    rw [Block.mem_frames_ofFrame small, one] at member
    have same : other = frame := by omega
    rw [same]
    exact ⟨occupied, kept⟩
  have returnable :
      ledger.Returnable map ⟨Address.ofFrame frame, 4096⟩ := by
    refine .occupied ?_ some whole
    rw [first]
    exact account.fits.placed.toNat_ofFrame below
  have freed := (account.free_returnable mapSound profile returnable named).1
  rcases
    account.granted_up_to_returned mapSound profile returnable named some
      (Nat.le_refl _) with
    ⟨found, later, upper, -, granted⟩
  rw [first] at upper
  exact
    ⟨_, .handedBack named some whole freed, found, upper, 4096, later, some,
      granted⟩

/-- A granted address is below the bound only if it was in use at boot. -/
theorem Opening.lowestUsable_le_of_grants
    (mapSound : SoundMap map) (reaches : DirectMap.Reaches ⟨offset⟩ map)
    (opening : Opening profile offset map start)
    (run : Run profile map start ledger) {address : PhysicalAddress}
    (grants : ledger.Grants profile address) :
    ledger.machine.stats.lowestUsable.value ≤ address.value ↔
      (address.frame ∈ ledger.released →
        Region.FreeBy map address.frame) := by
  have opened := opening.accounted mapSound reaches
  have account := (Run.accounted mapSound opened run).1
  rcases account.lends_of_grants mapSound grants with
    ⟨frame, small, rfl, nonzero, lends⟩
  rw [Run.lowestUsable_eq mapSound opened run,
    opening.lowestUsable_le_ofFrame mapSound reaches nonzero small,
    Address.frame_ofFrame_of_lt small]
  constructor
  · exact fun free _ => free
  · intro settled
    rcases lends with offers | released
    · exact offers.1.freeBy
    · exact settled released

/--
An address that is granted in a run keeps to the reported bound, unless its
frame was given back and no memory free at boot starts there or before.  The
bound holds throughout all runs exactly if no frame in use at boot but frame
zero is of that kind.
-/
theorem Opening.lowestUsable_le_iff
    (mapSound : SoundMap map) (reaches : DirectMap.Reaches ⟨offset⟩ map)
    (opening : Opening profile offset map start) :
    (∀ ledger address, Run profile map start ledger →
      ledger.Grants profile address →
        (ledger.machine.stats.lowestUsable.value ≤ address.value ↔
          (address.frame ∈ ledger.released →
            Region.FreeBy map address.frame))) ∧
    ((∀ ledger address, Run profile map start ledger →
        ledger.Grants profile address →
          ledger.machine.stats.lowestUsable.value ≤ address.value) ↔
      ∀ frame, frame ≠ 0 → Region.OccupiedFrame map frame →
        Region.FreeBy map frame) := by
  have opened := opening.accounted mapSound reaches
  refine ⟨?_, ?_, ?_⟩
  · intro ledger address run grants
    exact opening.lowestUsable_le_of_grants mapSound reaches run grants
  · intro bounded frame nonzero occupied
    have kept : frame ∉ start.released := by
      rw [(opening.descends mapSound reaches .refl).released_empty]
      exact Finset.notMem_empty frame
    rcases
      opened.grants_up_to_occupied mapSound profile nonzero occupied
        kept with
      ⟨after, taken, found, upper, grants⟩
    have run : Run profile map start after := .single taken
    have bound := bounded after _ run grants
    rcases
      (Run.accounted mapSound opened run).1.lends_of_grants mapSound grants with
      ⟨first, small, same, positive, -⟩
    have frames := congrArg Address.frame same
    have below := (opened.held_of_occupied mapSound occupied kept).1
    have last := opened.fits.placed.lt_frameCount below
    rw [Address.frame_ofFrame_of_lt small,
      Address.frame_ofFrame_of_lt (Nat.lt_of_le_of_lt upper last)] at frames
    rw [same, Run.lowestUsable_eq mapSound opened run,
      opening.lowestUsable_le_ofFrame mapSound reaches positive small]
      at bound
    rcases bound with ⟨region, member, offered, base⟩
    refine ⟨region, member, offered, Nat.le_trans base ?_⟩
    exact Nat.mul_le_mul_right frameSize (by omega)
  · intro preceded ledger address run grants
    rw [opening.lowestUsable_le_of_grants mapSound reaches run grants]
    intro released
    have account := (Run.accounted mapSound opened run).1
    rcases account.lends_of_grants mapSound grants with
      ⟨frame, small, rfl, nonzero, -⟩
    rw [Address.frame_ofFrame_of_lt small] at released ⊢
    exact
      preceded frame nonzero (account.released_occupied frame released)

end Ledger

namespace Sample

/-- The sample with a gap has free memory from frame 1 on: its bound holds. -/
theorem gap_lowestUsable_le :
    SoundMap gapMap ∧ DirectMap.Reaches ⟨offset⟩ gapMap ∧
      ∃ start, Ledger.Opening .debug offset gapMap start ∧
        ∀ ledger address, Ledger.Run .debug gapMap start ledger →
          ledger.Grants .debug address →
            ledger.machine.stats.lowestUsable.value ≤ address.value := by
  rcases exists_gap_setUp .debug Memory.zero with ⟨middle, ran⟩
  have opening : Ledger.Opening .debug offset gapMap _ := .setUp rfl ran
  refine ⟨gapMap_sound, gapMap_reaches, _, opening, ?_⟩
  refine
    (Ledger.Opening.lowestUsable_le_iff gapMap_sound gapMap_reaches
      opening).2.mpr ?_
  intro frame nonzero _
  refine ⟨⟨4096, 8192, .usable⟩, by decide, by decide, ?_⟩
  have base : (4096 : UInt64).toNat = 1 * frameSize := by decide
  rw [base]
  exact Nat.mul_le_mul_right frameSize (by omega)

/-- A request is granted at frame 1, and the bound is frame 2. -/
theorem exists_grant_below :
    ∃ start ledger address, Ledger.Opening .debug offset lowMap start ∧
      Ledger.Run .debug lowMap start ledger ∧
        ledger.Grants .debug address ∧
          address.value < ledger.machine.stats.lowestUsable.value := by
  rcases Ledger.Reachable.exists_start .debug lowMap_sound lowMap_reaches
    lowMap_found Memory.zero with ⟨start, reachable, -, released, books⟩
  have account := reachable.accounted lowMap_sound lowMap_reaches
  have kept : 1 ∉ start.released := by
    rw [released]
    exact Finset.notMem_empty 1
  rcases
    account.grants_up_to_occupied lowMap_sound .debug (by decide)
      (lowMap_occupied 1 (by decide)) kept with
    ⟨ledger, taken, found, upper, grants⟩
  rcases reachable.exists_opening with ⟨opened, opening, run⟩
  have bound : start.machine.stats.lowestUsable = ⟨8192⟩ := by
    rw [Machine.stats, books]
    decide
  refine
    ⟨opened, ledger, _, opening, run.tail taken, grants, ?_⟩
  rw [account.lowestUsable_step lowMap_sound taken, bound]
  rw [UInt64.lt_iff_toNat_lt,
    Address.toNat_ofFrame (Nat.lt_of_le_of_lt upper (by decide))]
  have last : (8192 : UInt64).toNat = 2 * frameSize := by decide
  rw [last]
  simp only [frameSize]
  omega

/-- Memory in use at boot can be handed out below the reported bound. -/
theorem not_every_grant_above :
    ¬ ∀ (profile : Profile) (offset : UInt64) (map : List Region)
        (start ledger : Ledger) (address : PhysicalAddress),
      SoundMap map → DirectMap.Reaches ⟨offset⟩ map →
        Ledger.Opening profile offset map start →
          Ledger.Run profile map start ledger →
            ledger.Grants profile address →
              ledger.machine.stats.lowestUsable.value ≤ address.value := by
  intro bounded
  rcases exists_grant_below with
    ⟨start, ledger, address, opening, run, grants, below⟩
  have above :=
    bounded .debug offset lowMap start ledger address lowMap_sound
      lowMap_reaches opening run grants
  exact absurd below (UInt64.not_lt.mpr above)

end Sample

end BootMemory
