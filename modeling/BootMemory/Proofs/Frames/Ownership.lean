import BootMemory.Proofs.Frames.Ledger

/-!
# The invariant of contract-keeping runs

`Ledger.BitsAccounted` holds when the allocator was set up on a sound map and is
kept by every call of `Ledger.Step`, so it holds of every reachable ledger.  It
says who owns each frame: a frame is lent only if free memory or a release offered
it, its bit is clear exactly while it could be lent and is in no live block, and
live blocks share no frame.

The used pages and the clear bits are balanced against the frames of memory.
If the bitmap sits so that it takes a frame more than its bytes fill, the
balance is one page off for good.
-/

namespace BootMemory

namespace Region

variable {map : List Region}

theorem UsableFrame.not_occupied
    (sound : SoundMap map) {frame : Nat} (usable : UsableFrame map frame) :
    ¬ OccupiedFrame map frame := by
  rintro ⟨right, rightMember, rightOccupied, inRight⟩
  rcases usable with ⟨left, leftMember, leftUsable, inLeft⟩
  have start : frame * frameSize / frameSize = frame :=
    Nat.mul_div_cancel _ (by decide)
  have same : left = right :=
    sound.eq_of_contains leftMember rightMember
      (inLeft.contains start) (inRight.contains start)
  rw [same] at leftUsable
  rw [not_isOccupied_of_isUsable leftUsable] at rightOccupied
  cases rightOccupied

end Region

namespace Machine

variable {offset : UInt64} {map : List Region} {machine : Machine}

/-- The bitmap shares no byte with a region that is not free memory. -/
theorem FitsMap.apart_of_not_usable
    (fits : machine.FitsMap offset map) (sound : SoundMap map)
    {region : Region} (member : region ∈ map)
    (unusable : region.isUsable = false) {frame : Nat}
    (holds : region.HoldsFrame frame) :
    machine.Apart offset frame := by
  rcases fits.hosted with ⟨host, hostMember, usable, lower, upper⟩
  by_contra meets
  rcases Region.exists_shared_byte fits.nonempty meets with
    ⟨byte, inFrame, first, last⟩
  have inHost : host.Contains byte := ⟨by omega, by omega⟩
  have same : host = region :=
    sound.eq_of_contains hostMember member inHost (holds.contains inFrame)
  rw [same, unusable] at usable
  cases usable

/-- A frame of memory is below the limit of a machine that fits the map. -/
theorem FitsMap.frame_lt_limit
    (fits : machine.FitsMap offset map) (sound : SoundMap map)
    {region : Region} (member : region ∈ map)
    (ram : region.isRam = true) {frame : Nat}
    (holds : region.HoldsFrame frame) :
    frame < machine.allocator.frameLimit := by
  rw [fits.limit_eq]
  exact Boot.frame_lt_limit sound member ram holds

theorem FitsMap.scanLimit_eq (fits : machine.FitsMap offset map) :
    machine.table.scanLimit = machine.allocator.frameLimit :=
  Nat.min_eq_left fits.covered

theorem FitsMap.frameLimit_le
    (fits : machine.FitsMap offset map) (sound : SoundMap map) :
    machine.allocator.frameLimit ≤ 2 ^ 40 := by
  have low := Boot.highestRam_le_of_sound sound
  rw [fits.limit_eq]
  simp only [frameSize, physicalLimit] at low ⊢
  omega

end Machine

namespace Ledger

variable {offset : UInt64} {map : List Region} {ledger : Ledger}

/-- A frame that may be lent: offered at the start, or given back since. -/
def Lends
    (offset : UInt64) (map : List Region) (ledger : Ledger)
    (frame : Nat) : Prop :=
  frame ≠ 0 ∧
    (ledger.machine.Offers offset map frame ∨ frame ∈ ledger.released)

/-- No live block has the frame. -/
def Idle (ledger : Ledger) (frame : Nat) : Prop :=
  ∀ block ∈ ledger.live, frame ∉ block.frames

/--
The ledger accounts for every bit, and for the balance.  This is the invariant of
contract-keeping runs.
-/
structure BitsAccounted
    (offset : UInt64) (map : List Region) (ledger : Ledger) : Prop where
  fits : ledger.machine.FitsMap offset map
  cursor_le :
    ledger.machine.allocator.cursor ≤ ledger.machine.allocator.frameLimit
  released_occupied : ∀ frame ∈ ledger.released,
    Region.OccupiedFrame map frame
  lent : ∀ block ∈ ledger.live, ∀ frame ∈ block.frames,
    ledger.Lends offset map frame
  aligned : ∀ block ∈ ledger.live,
    block.address.value.toNat = block.address.frame * frameSize
  positive : ∀ block ∈ ledger.live, 0 < block.count
  disjoint : ledger.live.Pairwise fun left right =>
    Disjoint left.frames right.frames
  clear_iff : ∀ frame, frame < ledger.machine.allocator.storage.bits →
    (ledger.machine.table.bitmap.bit frame = false ↔
      ledger.Lends offset map frame ∧ ledger.Idle frame)
  balance_seated : ledger.machine.Seated offset map →
    ledger.machine.balance = Region.pagesWhere Region.isRam map
  balance_crowded : ¬ ledger.machine.Seated offset map →
    ledger.machine.balance = Region.pagesWhere Region.isRam map + 1

/-! ## What the invariant says of a frame that is lent -/

/-- A frame that may be lent lies entirely in one region of memory. -/
theorem Lends.exists_ram
    {frame : Nat}
    (occupied : ∀ frame ∈ ledger.released, Region.OccupiedFrame map frame)
    (lends : ledger.Lends offset map frame) :
    ∃ region ∈ map, region.isRam = true ∧ region.HoldsFrame frame := by
  rcases lends.2 with ⟨⟨region, member, usable, holds⟩, -⟩ | released
  · exact ⟨region, member, Region.isRam_of_isUsable usable, holds⟩
  · rcases occupied frame released with ⟨region, member, inUse, holds⟩
    exact ⟨region, member, Region.isRam_of_isOccupied inUse, holds⟩

namespace BitsAccounted

theorem frame_lt_limit
    (account : ledger.BitsAccounted offset map) (mapSound : SoundMap map)
    {frame : Nat} (lends : ledger.Lends offset map frame) :
    frame < ledger.machine.allocator.frameLimit := by
  rcases lends.exists_ram account.released_occupied with
    ⟨region, member, ram, holds⟩
  exact account.fits.frame_lt_limit mapSound member ram holds

/-- The bitmap is in none of the frames that may be lent. -/
theorem apart
    (account : ledger.BitsAccounted offset map) (mapSound : SoundMap map)
    {frame : Nat} (lends : ledger.Lends offset map frame) :
    ledger.machine.Apart offset frame := by
  rcases lends.2 with offers | released
  · exact offers.2
  · rcases account.released_occupied frame released with
      ⟨region, member, occupied, holds⟩
    have unusable : region.isUsable = false := by
      cases usable : region.isUsable with
      | false => rfl
      | true =>
          rw [Region.not_isOccupied_of_isUsable usable] at occupied
          cases occupied
    exact
      account.fits.apart_of_not_usable mapSound member unusable holds

theorem balance_le (account : ledger.BitsAccounted offset map) :
    ledger.machine.balance ≤ Region.pagesWhere Region.isRam map + 1 := by
  by_cases seated : ledger.machine.Seated offset map
  · have balanced := account.balance_seated seated
    omega
  · have balanced := account.balance_crowded seated
    omega

theorem le_balance (account : ledger.BitsAccounted offset map) :
    Region.pagesWhere Region.isRam map ≤ ledger.machine.balance := by
  by_cases seated : ledger.machine.Seated offset map
  · have balanced := account.balance_seated seated
    omega
  · have balanced := account.balance_crowded seated
    omega

/-- Runs that a search can find may be lent, so they are apart from the bitmap. -/
theorem runsGrantable
    (account : ledger.BitsAccounted offset map) (mapSound : SoundMap map) :
    ledger.machine.RunsGrantable offset where
  placed := account.fits.placed
  cursor_le := by
    rw [account.fits.scanLimit_eq]
    exact account.cursor_le
  apart := by
    intro frame inside clear
    have covered := account.fits.covered
    have limit := Machine.scanLimit_le ledger.machine
    have lends := (account.clear_iff frame (by omega)).mp clear
    exact account.apart mapSound lends.1
  room := by
    have limit := account.fits.frameLimit_le mapSound
    have pages := mapSound.pagesWhere_le Region.isRam
    have balance := account.balance_le
    unfold Machine.balance at balance
    simp only [wordCount]
    omega

end BitsAccounted

/-- Clear bits of frames of memory are no more than its pages. -/
theorem card_clearFrames_le
    {machine : Machine} (mapSound : SoundMap map)
    (ram : ∀ frame ∈ machine.clearFrames,
      ∃ region ∈ map, region.isRam = true ∧ region.HoldsFrame frame) :
    machine.clearFrames.card ≤ Region.pagesWhere Region.isRam map := by
  rw [← Region.card_framesWhere mapSound.separate]
  apply Finset.card_le_card
  intro frame clear
  exact Region.mem_framesWhere.mpr (ram frame clear)

/-! ## The start -/

section Start

variable {boot middle : Boot} {host : Host}
  {before after : List Region} {origin : Region}

/-- The allocator that is set up, with the bitmap that it finds. -/
theorem bit_start
    (mapSound : SoundMap boot.map)
    (hosts :
      host.Hosts (Boot.bitmapFrames boot.map * frameSize) boot.map
        before after origin)
    (memory :
      middle.memory =
        (Boot.site offset boot.map host).store
          (Boot.opened ((Boot.site offset boot.map host).load boot.memory)
            (Boot.remaining boot.map host))
          boot.memory)
    {frame : Nat}
    (inside : frame < (Boot.site offset boot.map host).bits) :
    (middle.start (Boot.founder offset boot.map host)).table.bitmap.bit
          frame = false ↔
      frame ≠ 0 ∧
        ∃ region ∈ Boot.remaining boot.map host,
          region.isUsable = true ∧ region.HoldsFrame frame := by
  have loaded :
      (middle.start (Boot.founder offset boot.map host)).table.bitmap =
        Boot.opened ((Boot.site offset boot.map host).load boot.memory)
          (Boot.remaining boot.map host) :=
    Boot.bitmap_start (Boot.length_siteAt_le mapSound _) memory
  rw [loaded]
  exact
    Boot.bit_opened (Boot.covers_remaining hosts mapSound rfl) inside

theorem place_start
    (mapSound : SoundMap boot.map)
    (reaches : DirectMap.Reaches ⟨offset⟩ boot.map)
    (hosts :
      host.Hosts (Boot.bitmapFrames boot.map * frameSize) boot.map
        before after origin) :
    (middle.start (Boot.founder offset boot.map host)).place offset =
        host.region.base.toNat ∧
      (Boot.site offset boot.map host).base.value.toNat =
        host.region.base.toNat + offset.toNat := by
  have positive := Boot.bitmapBytes_pos boot.map
  have reached := Boot.host_reached hosts mapSound reaches
  have stop := hosts.stop_le mapSound
  rw [← hosts.region_top mapSound] at stop
  have value :
      (Boot.site offset boot.map host).base.value.toNat =
        host.region.base.toNat + offset.toNat := by
    simp only [Boot.site, Boot.siteAt, Machine.byteAt, UInt64.toNat_ofNat',
      wordCount] at reached ⊢
    omega
  refine ⟨?_, value⟩
  have place :
      (middle.start (Boot.founder offset boot.map host)).place offset =
        (Boot.site offset boot.map host).base.value.toNat - offset.toNat := rfl
  rw [place, value, Nat.add_sub_cancel]

/-- The direct map reaches the end of memory. -/
theorem highestRam_reached
    (mapSound : SoundMap map) (reaches : DirectMap.Reaches ⟨offset⟩ map) :
    (Census.ofMap map).highestRam ≤ offset.toNat ∧
      offset.toNat + (Census.ofMap map).highestRam ≤ wordCount := by
  have offsetBound := offset.toNat_lt
  have bound :
      (Census.ofMap map).highestRam ≤
        min offset.toNat (wordCount - offset.toNat) := by
    apply Census.highestRam_le
    intro region member present
    have reached := reaches region member present
    rw [Region.stop_eq_top (mapSound.low region member)]
    dsimp only at reached
    omega
  simp only [wordCount] at bound ⊢
  omega

theorem fitsMap_start
    (mapSound : SoundMap boot.map)
    (reaches : DirectMap.Reaches ⟨offset⟩ boot.map)
    (hosts :
      host.Hosts (Boot.bitmapFrames boot.map * frameSize) boot.map
        before after origin) :
    (middle.start (Boot.founder offset boot.map host)).FitsMap offset
      boot.map := by
  have positive := Boot.bitmapBytes_pos boot.map
  have frames := Boot.bitmapFrames_le mapSound
  have reached := Boot.host_reached hosts mapSound reaches
  have memoryEnd := highestRam_reached mapSound reaches
  have lower := hosts.base_le mapSound positive
  have upper := hosts.stop_le mapSound
  have upperHost := upper
  rw [← hosts.region_top mapSound] at upperHost
  rcases @place_start offset boot middle host before after origin mapSound
    reaches hosts with ⟨place, base⟩
  have placed :
      (middle.start (Boot.founder offset boot.map host)).Placed offset := by
    refine
      { mapper_eq := rfl
        offset_le := ?_
        storage_le := ?_
        frames_le := ?_
        reach_le := ?_
        bits_lt := ?_ }
    · simp only [Boot.start, Boot.storage_founder, base]
      omega
    · simp only [Boot.start, Boot.storage_founder, base]
      simp only [Boot.site, Boot.siteAt]
      omega
    · simp only [Boot.start, Boot.founder, Boot.founded, frameSize]
      omega
    · simp only [Boot.start, Boot.founder, Boot.founded, frameSize]
      omega
    · simp only [Boot.start, Boot.founder, Boot.founded, Boot.siteAt, frameSize,
        wordCount]
      omega
  refine
    { placed
      limit_eq := rfl
      covered := le_bits_of_bitmapFramesFor _
      total_eq := rfl
      usable_eq := rfl
      hosted := ⟨origin, hosts.origin_mem, hosts.usable, ?_, ?_⟩
      nonempty := positive }
  · rw [place]
    exact lower
  · rw [place]
    exact upper

/-- The clear frames of a new allocator are those that the map still offers. -/
theorem clearFrames_start
    (mapSound : SoundMap boot.map)
    (hosts :
      host.Hosts (Boot.bitmapFrames boot.map * frameSize) boot.map
        before after origin)
    (memory :
      middle.memory =
        (Boot.site offset boot.map host).store
          (Boot.opened ((Boot.site offset boot.map host).load boot.memory)
            (Boot.remaining boot.map host))
          boot.memory) :
    (middle.start (Boot.founder offset boot.map host)).clearFrames =
      Region.framesWhere Region.isUsable (Boot.remaining boot.map host) := by
  have positive := Boot.bitmapBytes_pos boot.map
  have bits := le_bits_of_bitmapFramesFor (Census.ofMap boot.map).highestRam
  ext frame
  rw [Machine.mem_clearFrames, Region.mem_framesWhere]
  constructor
  · rintro ⟨below, clear⟩
    have inside : frame < (Boot.site offset boot.map host).bits :=
      Nat.lt_of_lt_of_le below bits
    exact ((bit_start mapSound hosts memory inside).mp clear).2
  · intro offered
    have known := (hosts.offers_iff mapSound positive frame).mp offered
    rcases known with ⟨nonzero, ⟨region, member, usable, holds⟩, -⟩
    have below :=
      Boot.frame_lt_limit mapSound member (Region.isRam_of_isUsable usable)
        holds
    have inside : frame < (Boot.site offset boot.map host).bits :=
      Nat.lt_of_lt_of_le below bits
    exact
      ⟨below,
        (bit_start mapSound hosts memory inside).mpr ⟨nonzero, offered⟩⟩

/-- The invariant holds of a new allocator. -/
theorem accounted_start
    (mapSound : SoundMap boot.map)
    (reaches : DirectMap.Reaches ⟨offset⟩ boot.map)
    {profile : Profile} {allocator : Allocator}
    (ran :
      Boot.setUp profile (.direct ⟨offset⟩) boot =
        .ok (.ok allocator) middle) :
    BitsAccounted offset boot.map
      { machine := middle.start allocator, live := [], released := ∅ } := by
  rcases Boot.setUp_ok mapSound reaches ran with
    ⟨host, found, rfl, memory⟩
  rcases Host.exists_hosts found with ⟨before, after, origin, hosts⟩
  have positive := Boot.bitmapBytes_pos boot.map
  rcases @place_start offset boot middle host before after origin mapSound
    reaches hosts with ⟨place, -⟩
  have remaining := Boot.sound_remaining hosts mapSound
  have clear := clearFrames_start mapSound hosts memory
  have counted :
      (middle.start (Boot.founder offset boot.map host)).clearFrames.card =
        Region.pagesWhere Region.isUsable (Boot.remaining boot.map host) := by
    rw [clear, Region.card_framesWhere remaining.separate]
  have pages := hosts.pages_balance mapSound
  have overlap := hosts.overlap_eq (bitmapFramesFor_pos _)
  have seated :
      (middle.start (Boot.founder offset boot.map host)).Seated offset
          boot.map ↔
        framesFor host.region.base.toNat * frameSize +
            Boot.bitmapFrames boot.map * frameSize ≤ host.region.top := by
    rw [Machine.Seated, place]
    exact hosts.seated_iff mapSound (bitmapFramesFor_pos _)
  have balance :
      (middle.start (Boot.founder offset boot.map host)).balance =
        Region.pagesWhere Region.isRam boot.map +
          Host.Hosts.overlap host (Boot.bitmapFrames boot.map) := by
    rw [Machine.balance, counted]
    exact pages
  refine
    { fits := fitsMap_start mapSound reaches hosts
      cursor_le := Nat.zero_le _
      released_occupied := by simp
      lent := by simp
      aligned := by simp
      positive := by simp
      disjoint := List.Pairwise.nil
      clear_iff := ?_
      balance_seated := ?_
      balance_crowded := ?_ }
  · intro frame inside
    have offers :
        (middle.start (Boot.founder offset boot.map host)).Offers offset
            boot.map frame ↔
          Region.UsableFrame boot.map frame ∧
            ((frame + 1) * frameSize ≤ host.region.base.toNat ∨
              host.region.base.toNat +
                  Boot.bitmapFrames boot.map * frameSize ≤
                frame * frameSize) := by
      rw [Machine.Offers, Machine.Apart, place]
      rfl
    rw [bit_start mapSound hosts memory inside]
    have known := hosts.offers_iff mapSound positive frame
    simp only [Lends, Idle, offers, List.not_mem_nil, Finset.notMem_empty,
      or_false, false_imp_iff, implies_true, and_true]
    constructor
    · rintro ⟨nonzero, offered⟩
      exact ⟨nonzero, (known.mp offered).2⟩
    · rintro ⟨nonzero, offered⟩
      exact ⟨nonzero, known.mpr ⟨nonzero, offered⟩⟩
  · intro isSeated
    rw [balance, overlap, if_pos (seated.mp isSeated), Nat.add_zero]
  · intro crowded
    rw [balance, overlap, if_neg fun fits => crowded (seated.mpr fits)]

end Start

/-! ## Requests -/

section Request

variable {profile : Profile} {machine : Machine}
  {address : PhysicalAddress} {size : UInt64}

theorem lends_congr
    {later : Ledger} (keeps : ledger.machine.Keeps later.machine)
    (released : later.released = ledger.released) (frame : Nat) :
    later.Lends offset map frame ↔ ledger.Lends offset map frame := by
  rw [Lends, Lends, keeps.offers, released]

/-- A granted request has found a free run below the end of memory. -/
theorem BitsAccounted.granted_run
    (account : ledger.BitsAccounted offset map) (mapSound : SoundMap map)
    (nonzero : size ≠ 0)
    (ran :
      ledger.machine.allocate profile size = .ok (.ok address) machine) :
    ∃ first wrapped,
      address = Address.ofFrame first ∧
        machine =
          ledger.machine.grant offset first (framesFor size.toNat) wrapped ∧
        first + framesFor size.toNat ≤
          ledger.machine.allocator.frameLimit ∧
        ledger.machine.table.bitmap.FreeRun first (framesFor size.toNat) := by
  rcases (account.runsGrantable mapSound).granted_run nonzero ran with
    ⟨first, wrapped, named, granted, inside, free⟩
  rw [account.fits.scanLimit_eq] at inside
  exact ⟨first, wrapped, named, granted, inside, free⟩

/-- A request that is not granted changes nothing but the log. -/
theorem BitsAccounted.unserved_run
    (account : ledger.BitsAccounted offset map) (mapSound : SoundMap map)
    {result : Except AllocError PhysicalAddress}
    (nothing : size = 0 ∨ ∃ refusal, result = .error refusal)
    (ran : ledger.machine.allocate profile size = .ok result machine) :
    ∃ log, machine = { ledger.machine with log } :=
  (account.runsGrantable mapSound).unserved_run nothing ran

/-- The invariant is about the books, the bitmap and the account only. -/
theorem BitsAccounted.congr
    {later : Ledger} (account : ledger.BitsAccounted offset map)
    (allocator : later.machine.allocator = ledger.machine.allocator)
    (bitmap : later.machine.table.bitmap = ledger.machine.table.bitmap)
    (live : later.live = ledger.live)
    (released : later.released = ledger.released) :
    later.BitsAccounted offset map := by
  have keeps : ledger.machine.Keeps later.machine := by
    constructor <;> rw [allocator]
  have lends := @lends_congr offset map ledger later keeps released
  have balance : later.machine.balance = ledger.machine.balance := by
    simp only [Machine.balance, Machine.clearFrames, allocator, bitmap]
  refine
    { fits := keeps.fitsMap account.fits
      cursor_le := ?_
      released_occupied := ?_
      lent := ?_
      aligned := ?_
      positive := ?_
      disjoint := ?_
      clear_iff := ?_
      balance_seated := ?_
      balance_crowded := ?_ }
  · rw [allocator]
    exact account.cursor_le
  · rw [released]
    exact account.released_occupied
  · intro block member frame inBlock
    rw [live] at member
    exact (lends frame).mpr (account.lent block member frame inBlock)
  · rw [live]
    exact account.aligned
  · rw [live]
    exact account.positive
  · rw [live]
    exact account.disjoint
  · intro frame readable
    rw [allocator] at readable
    rw [bitmap, lends, Idle, live]
    exact account.clear_iff frame readable
  · intro seated
    rw [balance]
    exact account.balance_seated (keeps.seated.mp seated)
  · intro crowded
    rw [balance]
    exact account.balance_crowded fun seated =>
      crowded (keeps.seated.mpr seated)

/-- The log is no part of the invariant. -/
theorem BitsAccounted.withLog
    (account : ledger.BitsAccounted offset map) (log : Log) :
    BitsAccounted offset map
      { ledger with machine := { ledger.machine with log } } :=
  account.congr rfl rfl rfl rfl

/-- Granting a request keeps the invariant. -/
theorem BitsAccounted.granted
    (account : ledger.BitsAccounted offset map) (mapSound : SoundMap map)
    (nonzero : size ≠ 0)
    (ran :
      ledger.machine.allocate profile size = .ok (.ok address) machine) :
    BitsAccounted offset map
      { ledger with machine, live := ⟨address, size⟩ :: ledger.live } := by
  rcases account.granted_run mapSound nonzero ran with
    ⟨first, wrapped, rfl, rfl, inside, free⟩
  have positive :=
    framesFor_pos (Machine.toNat_pos_of_ne_zero nonzero)
  have placed := account.fits.placed
  have covered := account.fits.covered
  have keeps :=
    @Machine.grant_keeps offset ledger.machine first (framesFor size.toNat)
      wrapped
  have small := placed.lt_frameCount (by omega : first < _)
  have frame_eq : (Address.ofFrame first).frame = first :=
    Address.frame_ofFrame_of_lt small
  have value := placed.toNat_ofFrame (by omega : first < _)
  have range := fun frame =>
    @Block.mem_frames_ofFrame first frame small size
  have taken : ∀ frame, first ≤ frame →
      frame < first + framesFor size.toNat →
        ledger.Lends offset map frame ∧ ledger.Idle frame := by
    intro frame lower upper
    exact (account.clear_iff frame (by omega)).mp (free frame lower upper)
  have apart : ∀ frame, first ≤ frame →
      frame < first + framesFor size.toNat →
        ledger.machine.Apart offset frame := by
    intro frame lower upper
    exact account.apart mapSound (taken frame lower upper).1
  have lends : ∀ frame,
      Lends offset map
          { ledger with
            machine :=
              ledger.machine.grant offset first (framesFor size.toNat) wrapped
            live := ⟨Address.ofFrame first, size⟩ :: ledger.live } frame ↔
        ledger.Lends offset map frame := by
    exact @lends_congr offset map ledger _ keeps rfl
  refine
    { fits := keeps.fitsMap account.fits
      cursor_le := inside
      released_occupied := account.released_occupied
      lent := ?_
      aligned := ?_
      positive := ?_
      disjoint := ?_
      clear_iff := ?_
      balance_seated := ?_
      balance_crowded := ?_ }
  · intro block member frame inBlock
    rw [lends]
    rcases List.mem_cons.mp member with rfl | earlier
    · have bounds := (range frame).mp inBlock
      exact (taken frame bounds.1 bounds.2).1
    · exact account.lent block earlier frame inBlock
  · intro block member
    rcases List.mem_cons.mp member with rfl | earlier
    · rw [frame_eq, value]
    · exact account.aligned block earlier
  · intro block member
    rcases List.mem_cons.mp member with rfl | earlier
    · exact positive
    · exact account.positive block earlier
  · refine List.pairwise_cons.mpr ⟨?_, account.disjoint⟩
    intro block member
    rw [Finset.disjoint_left]
    intro frame inNew inBlock
    have bounds := (range frame).mp inNew
    exact (taken frame bounds.1 bounds.2).2 block member inBlock
  · intro frame readable
    rw [Machine.bit_grant placed covered inside apart, lends]
    have idle :
        Idle
            { ledger with
              machine :=
                ledger.machine.grant offset first (framesFor size.toNat)
                  wrapped
              live := ⟨Address.ofFrame first, size⟩ :: ledger.live } frame ↔
          ¬ (first ≤ frame ∧ frame < first + framesFor size.toNat) ∧
            ledger.Idle frame := by
      rw [← range]
      exact List.forall_mem_cons
    rw [idle]
    split
    · rename_i member
      simp [member]
    · rename_i other
      rw [account.clear_iff frame readable]
      simp only [other, not_false_eq_true, true_and]
  · intro seated
    rw [Machine.balance_grant placed covered inside apart free]
    exact account.balance_seated (keeps.seated.mp seated)
  · intro crowded
    rw [Machine.balance_grant placed covered inside apart free]
    exact account.balance_crowded fun seated =>
      crowded (keeps.seated.mpr seated)

end Request

/-! ## Releases -/

section Release

variable {profile : Profile} {later : Ledger}
  {address : PhysicalAddress} {count : Nat}

/-- The frames that a release gives back: frame zero is not among them. -/
def GivesBack
    (address : PhysicalAddress) (count frame : Nat) : Prop :=
  frame ≠ 0 ∧ address.frame ≤ frame ∧ frame < address.frame + count

/-- A run of frames of memory ends below the end of memory. -/
theorem BitsAccounted.run_inside
    (account : ledger.BitsAccounted offset map) (mapSound : SoundMap map)
    (positive : 0 < count)
    (ram : ∀ frame, address.frame ≤ frame → frame < address.frame + count →
      ∃ region ∈ map, region.isRam = true ∧ region.HoldsFrame frame) :
    address.frame + count ≤ ledger.machine.allocator.frameLimit := by
  rcases ram (address.frame + count - 1) (by omega) (by omega) with
    ⟨region, member, isRam, holds⟩
  have bound := account.fits.frame_lt_limit mapSound member isRam holds
  omega

/--
Taking frames back keeps the invariant, if all of them may be lent and are idle
afterwards, and nothing else changes hands.
-/
theorem BitsAccounted.takenBack
    (account : ledger.BitsAccounted offset map) (mapSound : SoundMap map)
    (machine : later.machine = ledger.machine.takeBack address count)
    (inside :
      address.frame + count ≤ ledger.machine.allocator.frameLimit)
    (idle : ∀ frame, GivesBack address count frame →
      later.Lends offset map frame ∧ later.Idle frame)
    (others : ∀ frame, ¬ GivesBack address count frame →
      (later.Lends offset map frame ∧ later.Idle frame ↔
        ledger.Lends offset map frame ∧ ledger.Idle frame))
    (occupied : ∀ frame ∈ later.released, Region.OccupiedFrame map frame)
    (lent : ∀ block ∈ later.live, ∀ frame ∈ block.frames,
      later.Lends offset map frame)
    (subset : ∀ block ∈ later.live, block ∈ ledger.live)
    (disjoint : later.live.Pairwise fun left right =>
      Disjoint left.frames right.frames) :
    later.BitsAccounted offset map := by
  have placed := account.fits.placed
  have covered := account.fits.covered
  have within :
      address.frame + count ≤ ledger.machine.allocator.storage.bits := by
    omega
  have keeps : ledger.machine.Keeps later.machine := by
    rw [machine]
    exact Machine.takeBack_keeps ledger.machine address count
  have clear_iff : ∀ frame,
      frame < later.machine.allocator.storage.bits →
        (later.machine.table.bitmap.bit frame = false ↔
          later.Lends offset map frame ∧ later.Idle frame) := by
    intro frame readable
    rw [keeps.storage] at readable
    rw [machine, Machine.bit_takeBack placed within]
    split
    · rename_i member
      simp [idle frame member]
    · rename_i other
      rw [others frame other]
      exact account.clear_iff frame readable
  have pages :
      later.machine.clearFrames.card ≤
        Region.pagesWhere Region.isRam map := by
    apply card_clearFrames_le mapSound
    intro frame clear
    have facts := Machine.mem_clearFrames.mp clear
    have bits : frame < later.machine.allocator.storage.bits := by
      rw [keeps.storage]
      rw [keeps.limit] at facts
      omega
    exact
      ((clear_iff frame bits).mp facts.2).1.exists_ram occupied
  have balance : later.machine.balance = ledger.machine.balance := by
    rw [machine] at pages ⊢
    exact
      Machine.balance_takeBack placed inside
        (Nat.le_trans pages account.le_balance)
  have cursor :
      later.machine.allocator.cursor ≤ ledger.machine.allocator.cursor := by
    rw [machine]
    rw [Machine.cursor_takeBack]
    split <;> omega
  have cursorInside := account.cursor_le
  exact
    { fits := keeps.fitsMap account.fits
      cursor_le := by
        rw [keeps.limit]
        omega
      released_occupied := occupied
      lent
      aligned := fun block member =>
        account.aligned block (subset block member)
      positive := fun block member =>
        account.positive block (subset block member)
      disjoint
      clear_iff
      balance_seated := fun seated =>
        balance.trans (account.balance_seated (keeps.seated.mp seated))
      balance_crowded := fun crowded =>
        balance.trans
          (account.balance_crowded fun seated =>
            crowded (keeps.seated.mpr seated)) }

/-- A live block has an address that is not null. -/
theorem BitsAccounted.address_ne_null
    (account : ledger.BitsAccounted offset map) {block : Block}
    (member : block ∈ ledger.live) : block.address ≠ Address.null := by
  intro null
  have positive := account.positive block member
  have first : block.address.frame ∈ block.frames := by
    rw [Block.mem_frames]
    omega
  have lends := account.lent block member _ first
  apply lends.1
  rw [null]
  rfl

/-- The other blocks share no frame with one that is given back. -/
theorem BitsAccounted.disjoint_erase
    (account : ledger.BitsAccounted offset map) {block : Block}
    (member : block ∈ ledger.live) :
    ∀ other ∈ ledger.live.erase block,
      Disjoint block.frames other.frames := by
  have reordered := List.perm_cons_erase member
  have symmetric : ∀ {left right : Block},
      Disjoint left.frames right.frames →
        Disjoint right.frames left.frames :=
    fun separate => separate.symm
  have separate := (reordered.pairwise_iff symmetric).mp account.disjoint
  exact (List.pairwise_cons.mp separate).1

/-- A live block can be given back in either profile. -/
theorem BitsAccounted.free_live
    (account : ledger.BitsAccounted offset map) (mapSound : SoundMap map)
    (profile : Profile) {block : Block} {size : UInt64}
    (member : block ∈ ledger.live)
    (same : framesFor size.toNat = block.count) :
    ledger.machine.free profile block.address size =
      .ok () (ledger.machine.takeBack block.address block.count) := by
  have positive := account.positive block member
  have covered := account.fits.covered
  have nonzero : size ≠ 0 := by
    intro zero
    rw [zero] at same
    simp only [framesFor, UInt64.toNat_zero, frameSize] at same
    omega
  rw [← same]
  apply Machine.free_of_held profile (account.address_ne_null member) nonzero
    account.fits.placed.bits_lt
  intro frame lower upper
  rw [same] at upper
  have inBlock : frame ∈ block.frames := Block.mem_frames.mpr ⟨lower, upper⟩
  have lends := account.lent block member frame inBlock
  have inside := account.frame_lt_limit mapSound lends
  have readable : frame < ledger.machine.allocator.storage.bits := by omega
  refine ⟨lends.1, readable, ?_⟩
  cases bit : ledger.machine.table.bitmap.bit frame with
  | true => rfl
  | false =>
      have idle := ((account.clear_iff frame readable).mp bit).2
      exact absurd inBlock (idle block member)

/-- Giving back a live block keeps the invariant. -/
theorem BitsAccounted.freed
    (account : ledger.BitsAccounted offset map) (mapSound : SoundMap map)
    {machine : Machine} {block : Block} {size : UInt64}
    (member : block ∈ ledger.live)
    (same : framesFor size.toNat = block.count)
    (ran :
      ledger.machine.free profile block.address size = .ok () machine) :
    BitsAccounted offset map
      { ledger with machine, live := ledger.live.erase block } := by
  have positive := account.positive block member
  have taken :
      machine = ledger.machine.takeBack block.address block.count := by
    rw [account.free_live mapSound profile member same] at ran
    cases ran
    rfl
  have ram : ∀ frame, block.address.frame ≤ frame →
      frame < block.address.frame + block.count →
        ∃ region ∈ map, region.isRam = true ∧ region.HoldsFrame frame := by
    intro frame lower upper
    have lends :=
      account.lent block member frame (Block.mem_frames.mpr ⟨lower, upper⟩)
    exact lends.exists_ram account.released_occupied
  have inside := account.run_inside mapSound positive ram
  have reordered := List.perm_cons_erase member
  have apart := account.disjoint_erase member
  have keeps : ledger.machine.Keeps machine := by
    rw [taken]
    exact Machine.takeBack_keeps ledger.machine block.address block.count
  have lends : ∀ frame,
      Lends offset map
          { ledger with machine, live := ledger.live.erase block } frame ↔
        ledger.Lends offset map frame :=
    @lends_congr offset map ledger _ keeps rfl
  have idle : ∀ frame,
      ledger.Idle frame ↔
        frame ∉ block.frames ∧
          Idle { ledger with machine, live := ledger.live.erase block }
            frame := by
    intro frame
    constructor
    · intro all
      exact
        ⟨all block member, fun other inRest =>
          all other (List.mem_of_mem_erase inRest)⟩
    · rintro ⟨free, rest⟩ other inLive
      rcases List.mem_cons.mp (reordered.mem_iff.mp inLive) with
        rfl | inRest
      · exact free
      · exact rest other inRest
  refine
    account.takenBack mapSound taken inside ?_ ?_
      account.released_occupied ?_ ?_ ?_
  · rintro frame ⟨nonzero, lower, upper⟩
    have inBlock : frame ∈ block.frames :=
      Block.mem_frames.mpr ⟨lower, upper⟩
    refine ⟨(lends frame).mpr (account.lent block member frame inBlock), ?_⟩
    intro other inRest
    exact Finset.disjoint_left.mp (apart other inRest) inBlock
  · intro frame other
    rw [lends, idle]
    constructor
    · rintro ⟨lent, rest⟩
      refine ⟨lent, ?_, rest⟩
      intro inBlock
      exact other ⟨lent.1, Block.mem_frames.mp inBlock⟩
    · rintro ⟨lent, -, rest⟩
      exact ⟨lent, rest⟩
  · intro other inRest frame inBlock
    rw [lends]
    exact account.lent other (List.mem_of_mem_erase inRest) frame inBlock
  · intro other inRest
    exact List.mem_of_mem_erase inRest
  · exact account.disjoint.sublist List.erase_sublist

/-- A frame in use at boot that was not given back is not lent. -/
theorem BitsAccounted.not_lends_of_occupied
    (mapSound : SoundMap map) {frame : Nat}
    (occupied : Region.OccupiedFrame map frame)
    (kept : frame ∉ ledger.released) :
    ¬ ledger.Lends offset map frame := by
  rintro ⟨-, offers | released⟩
  · exact offers.1.not_occupied mapSound occupied
  · exact kept released

/-- A frame in use at boot that was not given back is memory with a set bit. -/
theorem BitsAccounted.held_of_occupied
    (account : ledger.BitsAccounted offset map) (mapSound : SoundMap map)
    {frame : Nat} (occupied : Region.OccupiedFrame map frame)
    (kept : frame ∉ ledger.released) :
    frame < ledger.machine.allocator.frameLimit ∧
      ledger.machine.table.bitmap.bit frame = true := by
  have covered := account.fits.covered
  rcases occupied with ⟨region, present, use, holds⟩
  have below :=
    account.fits.frame_lt_limit mapSound present
      (Region.isRam_of_isOccupied use) holds
  refine ⟨below, ?_⟩
  cases bit : ledger.machine.table.bitmap.bit frame with
  | true => rfl
  | false =>
      have lends := ((account.clear_iff frame (by omega)).mp bit).1
      exact
        absurd lends
          (not_lends_of_occupied mapSound ⟨region, present, use, holds⟩ kept)

/-- Giving back frames in use at boot keeps the invariant. -/
theorem BitsAccounted.handedBack
    (account : ledger.BitsAccounted offset map) (mapSound : SoundMap map)
    {machine : Machine} {block : Block}
    (named : block.address ≠ Address.null) (nonzero : block.size ≠ 0)
    (whole : ∀ frame ∈ block.frames,
      Region.OccupiedFrame map frame ∧ frame ∉ ledger.released)
    (ran :
      ledger.machine.free profile block.address block.size =
        .ok () machine) :
    BitsAccounted offset map
      { ledger with machine, released := ledger.released ∪ block.frames } := by
  have taken :=
    Machine.free_ok named nonzero account.fits.placed.bits_lt ran
  have positive : 0 < block.count :=
    framesFor_pos (Machine.toNat_pos_of_ne_zero nonzero)
  have ram : ∀ frame, block.address.frame ≤ frame →
      frame < block.address.frame + block.count →
        ∃ region ∈ map, region.isRam = true ∧ region.HoldsFrame frame := by
    intro frame lower upper
    rcases (whole frame (Block.mem_frames.mpr ⟨lower, upper⟩)).1 with
      ⟨region, member, occupied, holds⟩
    exact ⟨region, member, Region.isRam_of_isOccupied occupied, holds⟩
  have inside := account.run_inside mapSound positive ram
  have keeps : ledger.machine.Keeps machine := by
    rw [taken]
    exact
      Machine.takeBack_keeps ledger.machine block.address
        (framesFor block.size.toNat)
  have lends : ∀ frame,
      Lends offset map
          { ledger with
            machine
            released := ledger.released ∪ block.frames } frame ↔
        ledger.Lends offset map frame ∨ frame ≠ 0 ∧ frame ∈ block.frames := by
    intro frame
    simp only [Lends, keeps.offers, Finset.mem_union]
    tauto
  refine account.takenBack mapSound taken inside ?_ ?_ ?_ ?_ ?_ ?_
  · rintro frame ⟨nonzero, lower, upper⟩
    have inBlock : frame ∈ block.frames :=
      Block.mem_frames.mpr ⟨lower, upper⟩
    refine ⟨(lends frame).mpr (Or.inr ⟨nonzero, inBlock⟩), ?_⟩
    intro other inLive inOther
    have facts := whole frame inBlock
    exact
      BitsAccounted.not_lends_of_occupied mapSound facts.1 facts.2
        (account.lent other inLive frame inOther)
  · intro frame other
    have outside : ¬ (frame ≠ 0 ∧ frame ∈ block.frames) := by
      rintro ⟨nonzero, inBlock⟩
      exact other ⟨nonzero, Block.mem_frames.mp inBlock⟩
    rw [lends]
    simp only [outside, or_false]
    rfl
  · intro frame released
    rcases Finset.mem_union.mp released with earlier | inBlock
    · exact account.released_occupied frame earlier
    · exact (whole frame inBlock).1
  · intro other inLive frame inOther
    exact (lends frame).mpr (Or.inl (account.lent other inLive frame inOther))
  · exact fun other inLive => inLive
  · exact account.disjoint

end Release

/-! ## Runs -/

/-- Every contract-keeping call keeps the invariant. -/
theorem BitsAccounted.step
    {profile : Profile} {before after : Ledger}
    (account : before.BitsAccounted offset map) (mapSound : SoundMap map)
    (taken : Step profile map before after) :
    after.BitsAccounted offset map := by
  cases taken with
  | granted nonzero ran => exact account.granted mapSound nonzero ran
  | unserved nothing ran =>
      rcases account.unserved_run mapSound nothing ran with ⟨log, rfl⟩
      exact account.withLog log
  | ignored nothing ran =>
      rw [Machine.free_ignored profile before.machine nothing] at ran
      cases ran
      exact account
  | freed member same ran => exact account.freed mapSound member same ran
  | handedBack named nonzero whole ran =>
      exact account.handedBack mapSound named nonzero whole ran

/-- The invariant holds throughout every contract-keeping run. -/
theorem Reachable.accounted
    {profile : Profile} (mapSound : SoundMap map)
    (reaches : DirectMap.Reaches ⟨offset⟩ map)
    (reachable : Reachable profile offset map ledger) :
    ledger.BitsAccounted offset map := by
  induction reachable with
  | start same ran =>
      subst same
      exact accounted_start mapSound reaches ran
  | step _ taken inductionHypothesis =>
      exact inductionHypothesis.step mapSound taken

/-- A run starts on every sound map with a region for the bitmap. -/
theorem Reachable.exists_start
    (profile : Profile) (mapSound : SoundMap map)
    (reaches : DirectMap.Reaches ⟨offset⟩ map) {host : Host}
    (found :
      Host.find (Boot.bitmapFrames map * frameSize)
        (map.map Region.pastFrameZero) = some host)
    (memory : Memory) :
    ∃ ledger, Reachable profile offset map ledger ∧
      ledger.live = [] ∧ ledger.released = ∅ ∧
        ledger.machine.allocator = Boot.founder offset map host := by
  rcases @Boot.setUp_of_found offset ⟨map, memory, []⟩ host profile mapSound
    reaches (Boot.any_isOffered_of_found found mapSound) found with
    ⟨log, ran⟩
  exact ⟨_, .start rfl ran, rfl, rfl, rfl⟩

end Ledger

namespace Sample

/-- The offset of a direct map far above the memory of small machines. -/
def offset : UInt64 := 1099511627776

theorem reaches_of_low
    {map : List Region} (low : ∀ region ∈ map, region.top ≤ 2 ^ 40) :
    DirectMap.Reaches ⟨offset⟩ map := by
  intro region member _
  have bound := low region member
  have value : (DirectMap.mk offset).offset.toNat = 2 ^ 40 := by decide
  rw [value]
  simp only [wordCount]
  omega

end Sample

end BootMemory
