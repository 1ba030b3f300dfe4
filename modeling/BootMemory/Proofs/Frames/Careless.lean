import BootMemory.Proofs.Frames.Completeness
import BootMemory.Proofs.Frames.Detection

/-!
# Callers that do not keep to the contract

Callers may give back what they do not hold: the same block twice, frame zero,
memory that is never touched, frames behind the end of memory.  A debug build
stops some of these calls and a release build none, so the bits no longer tell
who holds what, and `Ledger.BitsAccounted` is lost.

What is left is `Machine.ReservedHeld`.  As long as nobody gives back the frames
of the bitmap, the bit of frame zero is set and every clear bit belongs to a frame
apart from the bitmap.  That is enough for each request that is granted to be
served properly, as `Machine.Serves` has it.
-/

namespace BootMemory

namespace Machine

variable {offset : UInt64} {map : List Region} {profile : Profile}
  {machine later : Machine} {address : PhysicalAddress} {size : UInt64}

/-! ## Runs -/

/-- A release that is ignored, or that names no frame of the bitmap. -/
def Spares
    (offset : UInt64) (machine : Machine) (address : PhysicalAddress)
    (size : UInt64) : Prop :=
  address = Address.null ∨ size = 0 ∨
    ∀ frame ∈ (Block.mk address size).frames, machine.Apart offset frame

/-- A call that returns, of a caller that leaves the bitmap alone. -/
inductive CarelessStep (profile : Profile) (offset : UInt64) :
    Machine → Machine → Prop where
  | requested {machine later : Machine} {size : UInt64}
      {result : Except AllocError PhysicalAddress}
      (ran : machine.allocate profile size = .ok result later) :
      CarelessStep profile offset machine later
  | returned {machine later : Machine} {address : PhysicalAddress}
      {size : UInt64}
      (spared : machine.Spares offset address size)
      (ran : machine.free profile address size = .ok () later) :
      CarelessStep profile offset machine later

/-- The machines of all runs of such calls from a successful set-up on a map. -/
inductive CarelessRun
    (profile : Profile) (offset : UInt64) (map : List Region) :
    Machine → Prop where
  | start {boot middle : Boot} {allocator : Allocator}
      (same : boot.map = map)
      (ran :
        Boot.setUp profile (.direct ⟨offset⟩) boot =
          .ok (.ok allocator) middle) :
      CarelessRun profile offset map (middle.start allocator)
  | step {before after : Machine}
      (run : CarelessRun profile offset map before)
      (taken : CarelessStep profile offset before after) :
      CarelessRun profile offset map after

/-! ## The invariant -/

/--
Frame zero and the frames of the bitmap are held, which no caller changes who
leaves the bitmap alone.
-/
structure ReservedHeld
    (offset : UInt64) (map : List Region) (machine : Machine) : Prop where
  fits : machine.FitsMap offset map
  cursor_le : machine.allocator.cursor ≤ machine.allocator.frameLimit
  frameZero : machine.table.bitmap.bit 0 = true
  apart : ∀ frame, frame < machine.allocator.storage.bits →
    machine.table.bitmap.bit frame = false → machine.Apart offset frame
  balance_le : machine.balance ≤ 2 ^ 41

namespace ReservedHeld

/-- Runs that a search can find are apart from the bitmap. -/
theorem runsGrantable
    (reserved : machine.ReservedHeld offset map) (mapSound : SoundMap map) :
    machine.RunsGrantable offset where
  placed := reserved.fits.placed
  cursor_le := by
    rw [reserved.fits.scanLimit_eq]
    exact reserved.cursor_le
  apart := by
    intro frame inside clear
    rw [reserved.fits.scanLimit_eq] at inside
    exact
      reserved.apart frame
        (Nat.lt_of_lt_of_le inside reserved.fits.covered) clear
  room := by
    have limit := reserved.fits.frameLimit_le mapSound
    have balance := reserved.balance_le
    unfold Machine.balance at balance
    simp only [wordCount]
    omega

/-- The log is no part of the invariant. -/
theorem withLog (reserved : machine.ReservedHeld offset map) (log : Log) :
    ReservedHeld offset map { machine with log } where
  fits :=
    @Keeps.fitsMap offset map machine _ ⟨rfl, rfl, rfl, rfl, rfl⟩
      reserved.fits
  cursor_le := reserved.cursor_le
  frameZero := reserved.frameZero
  apart := reserved.apart
  balance_le := reserved.balance_le

/-- The run that is granted keeps clear of the bitmap. -/
theorem apart_of_free
    (reserved : machine.ReservedHeld offset map) {first count : Nat}
    (inside : first + count ≤ machine.allocator.frameLimit)
    (free : machine.table.bitmap.FreeRun first count) :
    ∀ frame, first ≤ frame → frame < first + count →
      machine.Apart offset frame := by
  intro frame lower upper
  have covered := reserved.fits.covered
  exact reserved.apart frame (by omega) (free frame lower upper)

/-- Frame zero is in no free run. -/
theorem first_pos
    (reserved : machine.ReservedHeld offset map) {first count : Nat}
    (positive : 0 < count)
    (free : machine.table.bitmap.FreeRun first count) : 1 ≤ first := by
  by_contra zero
  have clear := free 0 (by omega) (by omega)
  rw [reserved.frameZero] at clear
  cases clear

theorem grant
    (reserved : machine.ReservedHeld offset map) {first count : Nat}
    (inside : first + count ≤ machine.allocator.frameLimit)
    (free : machine.table.bitmap.FreeRun first count) (wrapped : Bool) :
    ReservedHeld offset map (machine.grant offset first count wrapped) := by
  have placed := reserved.fits.placed
  have covered := reserved.fits.covered
  have apart := reserved.apart_of_free inside free
  have keeps :=
    @grant_keeps offset machine first count wrapped
  refine
    { fits := keeps.fitsMap reserved.fits
      cursor_le := inside
      frameZero := ?_
      apart := ?_
      balance_le := ?_ }
  · rw [bit_grant placed covered inside apart, reserved.frameZero, ite_self]
  · intro frame readable clear
    rw [bit_grant placed covered inside apart] at clear
    split at clear
    · cases clear
    · exact (keeps.apart frame).mpr (reserved.apart frame readable clear)
  · rw [balance_grant placed covered inside apart free]
    exact reserved.balance_le

/--
The balance does not grow by a release: either all that became clear left the
used pages, or no used pages are left and the clear frames are memory.
-/
theorem balance_takeBack_le
    (reserved : machine.ReservedHeld offset map) (mapSound : SoundMap map)
    (address : PhysicalAddress) (count : Nat) :
    (machine.takeBack address count).balance ≤ 2 ^ 41 := by
  have limit := reserved.fits.frameLimit_le mapSound
  have before := reserved.balance_le
  have cleared :=
    card_clearFrames_takeBack reserved.fits.placed.length_le address count
  have counted :
      (machine.recovered address count).card ≤
        (machine.table.released address.frame count).card :=
    Finset.card_filter_le _ _
  have all :
      (machine.takeBack address count).clearFrames.card ≤
        machine.allocator.frameLimit := by
    have bound :=
      Finset.card_filter_le
        (Finset.range (machine.takeBack address count).allocator.frameLimit)
        fun frame =>
          (machine.takeBack address count).table.bitmap.bit frame = false
    rw [Finset.card_range] at bound
    exact bound
  -- The difference of the used pages stops at zero, and `all` is for then.
  unfold balance at before ⊢
  rw [usedPages_takeBack]
  omega

theorem takeBack
    (reserved : machine.ReservedHeld offset map) (mapSound : SoundMap map)
    (spared : ∀ frame ∈ (Block.mk address size).frames,
      machine.Apart offset frame) :
    ReservedHeld offset map
      (machine.takeBack address (framesFor size.toNat)) := by
  have placed := reserved.fits.placed
  have keeps :=
    machine.takeBack_keeps address (framesFor size.toNat)
  refine
    { fits := keeps.fitsMap reserved.fits
      cursor_le := ?_
      frameZero := ?_
      apart := ?_
      balance_le := reserved.balance_takeBack_le mapSound _ _ }
  · have cursor := reserved.cursor_le
    rw [cursor_takeBack, keeps.limit]
    split <;> omega
  · have zero : ¬ FrameTable.Names address.frame
        (framesFor size.toNat) 0 := by
      intro named
      exact (((Block.mk address size).names_iff 0).mp named).1 rfl
    rw [table_takeBack placed.length_le,
      FrameTable.bit_giveBack_of_not_names _ zero]
    exact reserved.frameZero
  · intro frame readable clear
    rw [keeps.apart]
    rw [table_takeBack placed.length_le] at clear
    by_cases named :
        FrameTable.Names address.frame (framesFor size.toNat) frame
    · exact
        spared frame (((Block.mk address size).names_iff frame).mp named).2
    · rw [FrameTable.bit_giveBack_of_not_names _ named] at clear
      exact reserved.apart frame readable clear

/-- Every call of a careless caller keeps the invariant. -/
theorem step
    (reserved : machine.ReservedHeld offset map) (mapSound : SoundMap map)
    (taken : CarelessStep profile offset machine later) :
    later.ReservedHeld offset map := by
  cases taken with
  | requested ran =>
      rcases (reserved.runsGrantable mapSound).request_run ran with
        ⟨log, rfl⟩ | ⟨first, wrapped, rfl, inside, free⟩
      · exact reserved.withLog log
      · rw [reserved.fits.scanLimit_eq] at inside
        exact reserved.grant inside free wrapped
  | returned spared ran =>
      rcases free_run reserved.fits.placed.bits_lt ran with
        ⟨-, rfl⟩ | ⟨named, nonzero, rfl⟩
      · exact reserved
      · rcases spared with null | zero | apart
        · exact absurd null named
        · exact absurd zero nonzero
        · exact reserved.takeBack mapSound apart

end ReservedHeld

/-- A new allocator holds frame zero and the frames of its bitmap. -/
theorem reservedHeld_start
    {boot middle : Boot} {allocator : Allocator}
    (mapSound : SoundMap boot.map)
    (reaches : DirectMap.Reaches ⟨offset⟩ boot.map)
    (ran :
      Boot.setUp profile (.direct ⟨offset⟩) boot =
        .ok (.ok allocator) middle) :
    ReservedHeld offset boot.map (middle.start allocator) := by
  have account := Ledger.accounted_start mapSound reaches ran
  have bits : 0 < allocator.storage.bits := by
    rcases Boot.setUp_ok mapSound reaches ran with ⟨host, -, rfl, -⟩
    have positive := Boot.bitmapBytes_pos boot.map
    simp only [Boot.storage_founder, Boot.site, Boot.siteAt]
    omega
  refine
    { fits := account.fits
      cursor_le := account.cursor_le
      frameZero := ?_
      apart := ?_
      balance_le := ?_ }
  · rw [← Bool.not_eq_false, account.clear_iff 0 bits]
    exact fun clear => clear.1.1 rfl
  · intro frame readable clear
    exact account.apart mapSound ((account.clear_iff frame readable).mp clear).1
  · have balance := account.balance_le
    have pages := mapSound.pagesWhere_le Region.isRam
    dsimp only at balance
    omega

/-- The invariant holds throughout every run of a careless caller. -/
theorem CarelessRun.reservedHeld
    (mapSound : SoundMap map)
    (reaches : DirectMap.Reaches ⟨offset⟩ map)
    (run : CarelessRun profile offset map machine) :
    machine.ReservedHeld offset map := by
  induction run with
  | start same ran =>
      subst same
      exact reservedHeld_start mapSound reaches ran
  | step _ taken inductionHypothesis =>
      exact inductionHypothesis.step mapSound taken

/-! ## Requests -/

/-- A request is served: frames that were free are in use and counted once. -/
structure Serves
    (machine later : Machine) (address : PhysicalAddress) (size : UInt64) :
    Prop where
  aligned : address.value.toNat % frameSize = 0
  nonnull : address ≠ Address.null
  inside : ∀ frame ∈ (Block.mk address size).frames,
    1 ≤ frame ∧ frame < machine.allocator.frameLimit
  was_clear : ∀ frame ∈ (Block.mk address size).frames,
    machine.table.bitmap.bit frame = false
  is_set : ∀ frame ∈ (Block.mk address size).frames,
    later.table.bitmap.bit frame = true
  others_same : ∀ frame ∉ (Block.mk address size).frames,
    later.table.bitmap.bit frame = machine.table.bitmap.bit frame
  used_eq :
    later.allocator.usedPages =
      machine.allocator.usedPages + framesFor size.toNat

/-- Granting a free run of frames serves the request. -/
theorem ReservedHeld.serves
    (reserved : machine.ReservedHeld offset map) (mapSound : SoundMap map)
    (nonzero : size ≠ 0)
    (ran : machine.allocate profile size = .ok (.ok address) later) :
    machine.Serves later address size := by
  rcases (reserved.runsGrantable mapSound).granted_run nonzero ran with
    ⟨first, wrapped, rfl, rfl, inside, free⟩
  rw [reserved.fits.scanLimit_eq] at inside
  have positive := framesFor_pos (toNat_pos_of_ne_zero nonzero)
  have placed := reserved.fits.placed
  have covered := reserved.fits.covered
  have apart := reserved.apart_of_free inside free
  have lower := reserved.first_pos positive free
  have value := placed.toNat_ofFrame (by omega : first < _)
  have small := placed.lt_frameCount (by omega : first < _)
  have range := fun frame =>
    @Block.mem_frames_ofFrame first frame small size
  refine
    { aligned := ?_
      nonnull := ?_
      inside := ?_
      was_clear := ?_
      is_set := ?_
      others_same := ?_
      used_eq := rfl }
  · rw [value, Nat.mul_mod_left]
  · intro null
    rw [null] at value
    simp only [frameSize, Address.null, UInt64.toNat_zero] at value
    omega
  · intro frame member
    have bounds := (range frame).mp member
    omega
  · intro frame member
    have bounds := (range frame).mp member
    exact free frame bounds.1 bounds.2
  · intro frame member
    rw [bit_grant placed covered inside apart,
      if_pos ((range frame).mp member)]
  · intro frame other
    rw [bit_grant placed covered inside apart,
      if_neg fun bounds => other ((range frame).mpr bounds)]

/--
However careless the caller is, frame zero stays reserved, every request is
answered, and one that is granted gets frames of memory that were free and
counts them once.
-/
theorem CarelessRun.allocation_safe
    (mapSound : SoundMap map)
    (reaches : DirectMap.Reaches ⟨offset⟩ map)
    (run : CarelessRun profile offset map machine) :
    machine.table.bitmap.bit 0 = true ∧
      (∀ size : UInt64, ∃ result later,
        machine.allocate profile size = .ok result later) ∧
      ∀ (size : UInt64) (address : PhysicalAddress) (later : Machine),
        size ≠ 0 →
          machine.allocate profile size = .ok (.ok address) later →
            machine.Serves later address size := by
  have reserved := run.reservedHeld mapSound reaches
  refine ⟨reserved.frameZero, ?_, ?_⟩
  · exact (reserved.runsGrantable mapSound).answers profile
  · intro size address later nonzero ran
    exact reserved.serves mapSound nonzero ran

/-- A careless caller can start on every sound map that holds the bitmap. -/
theorem CarelessRun.exists_start
    (profile : Profile) (mapSound : SoundMap map)
    (reaches : DirectMap.Reaches ⟨offset⟩ map) {host : Host}
    (found :
      Host.find (Boot.bitmapFrames map * frameSize)
        (map.map Region.pastFrameZero) = some host)
    (memory : Memory) :
    ∃ machine, CarelessRun profile offset map machine ∧
      machine.allocator = Boot.founder offset map host ∧
        Ledger.BitsAccounted offset map
          { machine, live := [], released := ∅ } := by
  rcases @Boot.setUp_of_found offset ⟨map, memory, []⟩ host profile mapSound
    reaches (Boot.any_isOffered_of_found found mapSound) found with
    ⟨log, ran⟩
  exact
    ⟨_, .start rfl ran, rfl, Ledger.accounted_start mapSound reaches ran⟩

end Machine

namespace Sample

/-- A careless run on the reserved sample, before a request. -/
structure ReservedState (machine : Machine) : Prop where
  run : Machine.CarelessRun .release offset reservedMap machine
  storage :
    machine.allocator.storage = Boot.site offset reservedMap reservedHost
  limit : machine.allocator.frameLimit = 4
  cursor_eq : machine.allocator.cursor = 0
  clear : machine.table.bitmap.bit 3 = false

namespace ReservedState

variable {machine : Machine}

theorem reservedHeld (state : ReservedState machine) :
    machine.ReservedHeld offset reservedMap :=
  state.run.reservedHeld reservedMap_sound reservedMap_reaches

/-- A release build takes the reserved frame back as often as it is offered. -/
theorem returned (state : ReservedState machine) :
    ReservedState (machine.takeBack ⟨8192⟩ 1) ∧
      (machine.takeBack ⟨8192⟩ 1).table.bitmap.bit 2 = false := by
  have placed := state.reservedHeld.fits.placed
  have first : (⟨8192⟩ : PhysicalAddress).frame = 2 := by decide
  have place : machine.place offset = 4096 := by
    rw [Machine.place, state.storage]
    decide
  have length : machine.allocator.storage.length = 4096 := by
    rw [state.storage]
    decide
  have bits : machine.allocator.storage.bits = 32768 := by
    rw [state.storage]
    decide
  have spared : machine.Spares offset ⟨8192⟩ 4096 := by
    refine Or.inr (Or.inr fun frame member => ?_)
    rw [(mem_reservedBlock frame).mp member, Machine.Apart, place, length]
    simp only [frameSize]
    omega
  have ran :
      machine.free .release ⟨8192⟩ 4096 =
        .ok () (machine.takeBack ⟨8192⟩ 1) :=
    Machine.free_of_assert (by decide) (by decide) placed.bits_lt
      (FrameTable.assertReleasable_release _ _ _)
  have bit := fun frame =>
    Machine.bit_takeBack placed
      (by rw [first, bits]; omega :
        (⟨8192⟩ : PhysicalAddress).frame + 1 ≤
          machine.allocator.storage.bits) frame
  refine
    ⟨⟨state.run.step (.returned spared ran), state.storage, state.limit,
      ?_, ?_⟩, ?_⟩
  · rw [Machine.cursor_takeBack, state.cursor_eq,
      if_neg (Nat.not_lt_zero _)]
  · rw [bit, first, if_neg (by omega)]
    exact state.clear
  · rw [bit, first, if_pos (by omega)]

end ReservedState

theorem exists_reserved : ∃ machine, ReservedState machine := by
  rcases Machine.CarelessRun.exists_start .release reservedMap_sound
    reservedMap_reaches reservedMap_found Memory.zero with
    ⟨machine, run, books, account⟩
  refine ⟨machine, run, ?_, ?_, ?_, ?_⟩
  · rw [books]
    rfl
  · rw [books]
    decide
  · rw [books]
    rfl
  · have readable : 3 < machine.allocator.storage.bits := by
      rw [books]
      decide
    apply (account.clear_iff 3 readable).mpr
    refine ⟨⟨by omega, Or.inl ⟨?_, ?_⟩⟩, by simp [Ledger.Idle]⟩
    · exact ⟨⟨12288, 4096, .usable⟩, by decide, by decide, by decide⟩
    · rw [Machine.Apart, Machine.place, books]
      decide

/-- The reserved frame is given back twice, and then a request finds it. -/
theorem reserved_allocation_safe :
    SoundMap reservedMap ∧ DirectMap.Reaches ⟨offset⟩ reservedMap ∧
      ∃ machine, Machine.CarelessRun .release offset reservedMap machine ∧
        machine.table.bitmap.bit 2 = false ∧
          (∃ address later,
            machine.allocate .release 8192 = .ok (.ok address) later) ∧
          machine.table.bitmap.bit 0 = true ∧
            (∀ size : UInt64, ∃ result later,
              machine.allocate .release size = .ok result later) ∧
            ∀ (size : UInt64) (address : PhysicalAddress)
                (later : Machine),
              size ≠ 0 →
                machine.allocate .release size = .ok (.ok address) later →
                  machine.Serves later address size := by
  rcases exists_reserved with ⟨start, fresh⟩
  rcases fresh.returned.1.returned with ⟨state, cleared⟩
  have grantable := state.reservedHeld.runsGrantable reservedMap_sound
  have inside := state.reservedHeld.fits.scanLimit_eq
  rw [state.limit] at inside
  refine
    ⟨reservedMap_sound, reservedMap_reaches, _, state.run, cleared, ?_,
      Machine.CarelessRun.allocation_safe reservedMap_sound
        reservedMap_reaches state.run⟩
  apply grantable.granted_of_aside .release (by decide)
    (by rw [count_eq, inside] : 2 + framesFor (8192 : UInt64).toNat ≤ _)
  · intro frame lower upper
    rw [count_eq] at upper
    have named : frame = 2 ∨ frame = 3 := by omega
    rcases named with rfl | rfl
    · exact cleared
    · exact state.clear
  · rintro ⟨past, -⟩
    rw [state.cursor_eq] at past
    omega

end Sample

end BootMemory
