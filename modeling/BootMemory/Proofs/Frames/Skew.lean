import BootMemory.Proofs.Frames.Accounting
import BootMemory.Proofs.Frames.Careless

/-!
# When misuse skews the page counts

A release counts the bits that it clears, so that giving back what is free
already changes no count.  Not every set bit belongs to a used page, though.
The padding behind the end of memory is counted when it is cleared, and no frame
of memory becomes free.  Memory that is never touched becomes free when it is
given back, but there may be more of it than there are used pages, and their
number stops at zero.

`Machine.Tallies` says of a release that the used pages lose as many pages as
frames of memory become free.  `TalliedRun.counts_right_iff` shows that on a map
of whole frames the counts are right as long as every release tallies, and that
they are wrong after the first one that does not.
`Sample.not_every_count_right` gives back a frame of the padding.
-/

namespace BootMemory

namespace Region

/-- A region that starts and ends at frame boundaries. -/
def FrameAligned (region : Region) : Prop :=
  region.base.toNat % frameSize = 0 ∧ region.length.toNat % frameSize = 0

instance (region : Region) : Decidable region.FrameAligned :=
  inferInstanceAs (Decidable (_ ∧ _))

end Region

namespace Machine

variable {offset : UInt64} {map : List Region} {machine later : Machine}
  {address : PhysicalAddress} {size : UInt64}

/-- The free pages are the frames of memory whose bit is clear. -/
def CountsRight (machine : Machine) : Prop :=
  machine.stats.freePages = machine.clearFrames.card

/-- A release that is ignored, or that takes off the pages that become free. -/
def Tallies
    (machine : Machine) (address : PhysicalAddress) (size : UInt64) : Prop :=
  address = Address.null ∨ size = 0 ∨
    min machine.allocator.usedPages
        (machine.table.released address.frame
          (framesFor size.toNat)).card =
      (machine.recovered address (framesFor size.toNat)).card

/-- Only frames of the block that is given back are cleared. -/
theorem released_subset (block : Block) :
    machine.table.released block.address.frame block.count ⊆
      block.frames := by
  intro frame member
  have named := (FrameTable.mem_released.mp member).1
  exact ((block.names_iff frame).mp named).2

/-- Memory that is cleared and counted as used is taken off the used pages. -/
theorem tallies_of_used
    (inside : ∀ frame,
      frame ∈ machine.table.released address.frame (framesFor size.toNat) →
        frame < machine.allocator.frameLimit)
    (counted :
      (machine.table.released address.frame (framesFor size.toNat)).card ≤
        machine.allocator.usedPages) : machine.Tallies address size := by
  refine .inr (.inr ?_)
  rw [Nat.min_eq_right counted, recovered, Finset.filter_true_of_mem inside]

/--
The machines of all runs of the release profile from a successful set-up on a
map, if every release leaves the bitmap alone and tallies.
-/
inductive TalliedRun (offset : UInt64) (map : List Region) :
    Machine → Prop where
  | start {boot middle : Boot} {allocator : Allocator}
      (same : boot.map = map)
      (ran :
        Boot.setUp .release (.direct ⟨offset⟩) boot =
          .ok (.ok allocator) middle) :
      TalliedRun offset map (middle.start allocator)
  | requested {machine later : Machine} {size : UInt64}
      {result : Except AllocError PhysicalAddress}
      (run : TalliedRun offset map machine)
      (ran : machine.allocate .release size = .ok result later) :
      TalliedRun offset map later
  | returned {machine later : Machine} {address : PhysicalAddress}
      {size : UInt64}
      (run : TalliedRun offset map machine)
      (spared : machine.Spares offset address size)
      (tallies : machine.Tallies address size)
      (ran : machine.free .release address size = .ok () later) :
      TalliedRun offset map later

/-- Such runs are runs of a careless caller. -/
theorem TalliedRun.careless (run : TalliedRun offset map machine) :
    CarelessRun .release offset map machine := by
  induction run with
  | start same ran => exact .start same ran
  | requested _ ran careless => exact careless.step (.requested ran)
  | returned _ spared _ ran careless =>
      exact careless.step (.returned spared ran)

/-! ## The invariant -/

/--
The reserved frames are held, and used pages and clear frames are all of memory.
-/
structure Balanced
    (offset : UInt64) (map : List Region) (machine : Machine) : Prop where
  reserved : machine.ReservedHeld offset map
  balance_eq : machine.balance = Region.pagesWhere Region.isRam map

namespace Balanced

theorem countsRight (balanced : machine.Balanced offset map) :
    machine.CountsRight :=
  (balanced.reserved.fits.booksRight_iff.mpr balanced.balance_eq).free_eq

/-- What is granted moves from the clear frames to the used pages. -/
theorem requested
    {result : Except AllocError PhysicalAddress}
    (balanced : machine.Balanced offset map) (mapSound : SoundMap map)
    (ran : machine.allocate .release size = .ok result later) :
    later.Balanced offset map := by
  have reserved := balanced.reserved
  refine ⟨reserved.step mapSound (.requested ran), ?_⟩
  rw [← balanced.balance_eq]
  rcases (reserved.runsGrantable mapSound).request_run ran with
    ⟨log, rfl⟩ | ⟨first, wrapped, rfl, inside, free⟩
  · rfl
  · rw [reserved.fits.scanLimit_eq] at inside
    exact
      balance_grant reserved.fits.placed reserved.fits.covered inside
        (reserved.apart_of_free inside free) free wrapped

/-- The counts stay right if the pages taken off are those that become free. -/
theorem takeBack_iff
    (balanced : machine.Balanced offset map)
    (address : PhysicalAddress) (count : Nat) :
    ((machine.takeBack address count).CountsRight ↔
        min machine.allocator.usedPages
            (machine.table.released address.frame count).card =
          (machine.recovered address count).card) ∧
      ((machine.takeBack address count).balance =
          Region.pagesWhere Region.isRam map ↔
        min machine.allocator.usedPages
            (machine.table.released address.frame count).card =
          (machine.recovered address count).card) := by
  have fits := balanced.reserved.fits
  have cleared :=
    card_clearFrames_takeBack fits.placed.length_le address count
  have pages := machine.usedPages_takeBack address count
  have usable :
      (machine.takeBack address count).allocator.usablePages =
        Region.pagesWhere Region.isRam map := fits.usable_eq
  have before := balanced.balance_eq
  unfold balance at before ⊢
  simp only [CountsRight, stats, Allocator.stats, Stats.freePages, cleared,
    pages, usable]
  omega

/-- The counts are right after a release exactly if it tallies. -/
theorem returned_iff
    (balanced : machine.Balanced offset map)
    (ran : machine.free .release address size = .ok () later) :
    (later.CountsRight ↔ machine.Tallies address size) ∧
      (later.balance = Region.pagesWhere Region.isRam map ↔
        machine.Tallies address size) := by
  rcases free_run balanced.reserved.fits.placed.bits_lt ran with
    ⟨ignored, rfl⟩ | ⟨named, nonzero, rfl⟩
  · have tallies : later.Tallies address size := by
      rcases ignored with null | zero
      · exact .inl null
      · exact .inr (.inl zero)
    simp only [tallies, iff_true]
    exact ⟨balanced.countsRight, balanced.balance_eq⟩
  · simp only [Tallies, named, nonzero, false_or]
    exact balanced.takeBack_iff address (framesFor size.toNat)

/-- Whatever is given back is taken back, and the invariant may be kept. -/
theorem returned
    (balanced : machine.Balanced offset map) (mapSound : SoundMap map)
    (spared : machine.Spares offset address size)
    (tallies : machine.Tallies address size)
    (ran : machine.free .release address size = .ok () later) :
    later.Balanced offset map :=
  ⟨balanced.reserved.step mapSound (.returned spared ran),
    (balanced.returned_iff ran).2.mpr tallies⟩

end Balanced

/-- In a region of whole frames the bitmap can be moved to a frame boundary. -/
theorem FitsMap.seated_of_frameAligned
    (fits : machine.FitsMap offset map)
    (aligned : ∀ region ∈ map, region.FrameAligned)
    (whole : machine.allocator.storage.length % frameSize = 0) :
    machine.Seated offset map := by
  rcases fits.hosted with ⟨region, member, usable, lower, upper⟩
  have boundaries := aligned region member
  refine ⟨region, member, usable, lower, ?_⟩
  unfold Region.FrameAligned at boundaries
  simp only [Region.top, framesFor, frameSize] at boundaries whole upper ⊢
  omega

theorem balanced_start
    {boot middle : Boot} {allocator : Allocator}
    (mapSound : SoundMap boot.map)
    (reaches : DirectMap.Reaches ⟨offset⟩ boot.map)
    (aligned : ∀ region ∈ boot.map, region.FrameAligned)
    (ran :
      Boot.setUp .release (.direct ⟨offset⟩) boot =
        .ok (.ok allocator) middle) :
    Balanced offset boot.map (middle.start allocator) := by
  have account := Ledger.accounted_start mapSound reaches ran
  have whole :
      (middle.start allocator).allocator.storage.length % frameSize = 0 := by
    rcases Boot.setUp_ok mapSound reaches ran with ⟨host, -, rfl, -⟩
    exact Nat.mul_mod_left _ _
  exact
    ⟨reservedHeld_start mapSound reaches ran,
      account.balance_seated
        (account.fits.seated_of_frameAligned aligned whole)⟩

theorem TalliedRun.balanced
    (mapSound : SoundMap map) (reaches : DirectMap.Reaches ⟨offset⟩ map)
    (aligned : ∀ region ∈ map, region.FrameAligned)
    (run : TalliedRun offset map machine) :
    machine.Balanced offset map := by
  induction run with
  | start same ran =>
      subst same
      exact balanced_start mapSound reaches aligned ran
  | requested _ ran inductionHypothesis =>
      exact inductionHypothesis.requested mapSound ran
  | returned _ spared tallies ran inductionHypothesis =>
      exact inductionHypothesis.returned mapSound spared tallies ran

/--
On a map of whole frames the free pages are the clear frames of memory as long
as every release tallies.  Every call returns; requests keep the counts right,
and a release does exactly if it tallies.
-/
theorem TalliedRun.counts_right_iff
    (mapSound : SoundMap map) (reaches : DirectMap.Reaches ⟨offset⟩ map)
    (aligned : ∀ region ∈ map, region.FrameAligned)
    (run : TalliedRun offset map machine) :
    machine.CountsRight ∧
      (∀ size : UInt64, ∃ result later,
        machine.allocate .release size = .ok result later ∧
          later.CountsRight) ∧
      ∀ (address : PhysicalAddress) (size : UInt64), ∃ later,
        machine.free .release address size = .ok () later ∧
          (later.CountsRight ↔ machine.Tallies address size) := by
  have balanced := run.balanced mapSound reaches aligned
  refine ⟨balanced.countsRight, ?_, ?_⟩
  · intro size
    rcases (balanced.reserved.runsGrantable mapSound).answers .release size with
      ⟨result, later, ran⟩
    exact ⟨result, later, ran, (balanced.requested mapSound ran).countsRight⟩
  · intro address size
    rcases
      free_release_returns balanced.reserved.fits.placed.bits_lt address
        size with
      ⟨later, ran⟩
    exact ⟨later, ran, (balanced.returned_iff ran).1⟩

end Machine

namespace Sample

theorem reservedMap_aligned : ∀ region ∈ reservedMap, region.FrameAligned := by
  decide

/-- The reserved sample with one used page, and the padding from frame 4 on. -/
structure PaddedState (machine : Machine) : Prop where
  run : Machine.TalliedRun offset reservedMap machine
  storage :
    machine.allocator.storage = Boot.site offset reservedMap reservedHost
  limit : machine.allocator.frameLimit = 4
  used : machine.allocator.usedPages = 1
  held : machine.table.bitmap.bit 4 = true

theorem exists_padded : ∃ machine, PaddedState machine := by
  rcases @Boot.setUp_of_found offset ⟨reservedMap, Memory.zero, []⟩
    reservedHost .release reservedMap_sound reservedMap_reaches
    (Boot.any_isOffered_of_found reservedMap_found reservedMap_sound)
    reservedMap_found with ⟨log, ran⟩
  have account :=
    Ledger.accounted_start reservedMap_sound reservedMap_reaches ran
  have limit :
      (Boot.founder offset reservedMap reservedHost).frameLimit = 4 := by
    decide
  have used :
      (Boot.founder offset reservedMap reservedHost).usedPages = 1 := by
    decide
  have readable :
      4 < (Boot.founder offset reservedMap reservedHost).storage.bits := by
    decide
  refine ⟨_, .start rfl ran, rfl, limit, used, ?_⟩
  rw [← Bool.not_eq_false, account.clear_iff 4 readable]
  rintro ⟨lends, -⟩
  have below := account.frame_lt_limit reservedMap_sound lends
  exact absurd (limit ▸ below) (Nat.lt_irrefl 4)

namespace PaddedState

variable {machine : Machine}

/-- The reserved frame is memory below the end, and there is a used page. -/
theorem tallies_reserved (state : PaddedState machine) :
    machine.Tallies ⟨8192⟩ 4096 := by
  have only := @Machine.released_subset machine ⟨⟨8192⟩, 4096⟩
  apply Machine.tallies_of_used
  · intro frame member
    rw [(mem_reservedBlock frame).mp (only member), state.limit]
    decide
  · rw [state.used]
    exact Finset.card_le_card only

/-- The frame behind the end of memory is counted when it is given back. -/
theorem not_tallies_padding (state : PaddedState machine) :
    ¬ machine.Tallies ⟨16384⟩ 4096 := by
  have first : (⟨16384⟩ : PhysicalAddress).frame = 4 := by decide
  have count : framesFor (4096 : UInt64).toNat = 1 := by decide
  have frames : (Block.mk ⟨16384⟩ 4096).frames = {4} := by decide
  have only := @Machine.released_subset machine ⟨⟨16384⟩, 4096⟩
  rw [frames] at only
  have recovered : machine.recovered ⟨16384⟩ 1 = ∅ := by
    apply Finset.filter_false_of_mem
    intro frame member
    rw [Finset.mem_singleton.mp (only member), state.limit]
    decide
  have released :
      0 < (machine.table.released (⟨16384⟩ : PhysicalAddress).frame 1).card := by
    rw [first]
    exact
      Finset.card_pos.mpr
        ⟨4, FrameTable.mem_released.mpr ⟨by decide, state.held⟩⟩
  rintro (null | zero | tallied)
  · revert null
    decide
  · revert zero
    decide
  · rw [count, recovered, state.used, Finset.card_empty] at tallied
    omega

/-- The padding keeps clear of the bitmap. -/
theorem spares_padding (state : PaddedState machine) :
    machine.Spares offset ⟨16384⟩ 4096 := by
  have place : machine.place offset = 4096 := by
    rw [Machine.place, state.storage]
    decide
  have length : machine.allocator.storage.length = 4096 := by
    rw [state.storage]
    decide
  have frames : (Block.mk ⟨16384⟩ 4096).frames = {4} := by decide
  refine .inr (.inr fun frame member => ?_)
  rw [frames, Finset.mem_singleton] at member
  rw [member, Machine.Apart, place, length]
  decide

end PaddedState

/-- A release of the reserved frame tallies, one of the padding does not. -/
theorem padded_counts_right_iff :
    SoundMap reservedMap ∧ DirectMap.Reaches ⟨offset⟩ reservedMap ∧
      (∀ region ∈ reservedMap, region.FrameAligned) ∧
        ∃ machine, Machine.TalliedRun offset reservedMap machine ∧
          machine.CountsRight ∧
            (∃ later,
              machine.free .release ⟨8192⟩ 4096 = .ok () later ∧
                later.CountsRight) ∧
              ∃ later,
                machine.free .release ⟨16384⟩ 4096 = .ok () later ∧
                  ¬ later.CountsRight := by
  rcases exists_padded with ⟨machine, state⟩
  rcases
    Machine.TalliedRun.counts_right_iff reservedMap_sound
      reservedMap_reaches reservedMap_aligned state.run with
    ⟨right, -, releases⟩
  rcases releases ⟨8192⟩ 4096 with ⟨kept, reserved, keeps⟩
  rcases releases ⟨16384⟩ 4096 with ⟨skewed, padding, skews⟩
  exact
    ⟨reservedMap_sound, reservedMap_reaches, reservedMap_aligned, machine,
      state.run, right, ⟨kept, reserved, keeps.mpr state.tallies_reserved⟩,
      skewed, padding, mt skews.mp state.not_tallies_padding⟩

/-- A release build can count a page as free that is not there. -/
theorem not_every_count_right :
    ¬ ∀ (offset : UInt64) (map : List Region) (machine : Machine),
      SoundMap map → DirectMap.Reaches ⟨offset⟩ map →
        (∀ region ∈ map, region.FrameAligned) →
          Machine.CarelessRun .release offset map machine →
            machine.CountsRight := by
  intro always
  rcases exists_padded with ⟨machine, state⟩
  have balanced :=
    state.run.balanced reservedMap_sound reservedMap_reaches
      reservedMap_aligned
  rcases
    Machine.free_release_returns
      balanced.reserved.fits.placed.bits_lt ⟨16384⟩ 4096 with
    ⟨later, ran⟩
  have run := state.run.careless.step (.returned state.spares_padding ran)
  have right :=
    always offset reservedMap later reservedMap_sound reservedMap_reaches
      reservedMap_aligned run
  exact
    state.not_tallies_padding ((balanced.returned_iff ran).1.mp right)

end Sample

end BootMemory
