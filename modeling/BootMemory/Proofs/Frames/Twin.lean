import BootMemory.Proofs.Frames.Ownership

/-!
# Runs through any mapper

Where the allocator reaches memory is its mapper's business.  The account of
frames does not depend on it, as long as the mapper reaches every byte of memory
and different bytes at different addresses: then no request zeroes the bitmap.
`Mapper.Separates` says that of a mapper.

Every ledger of a run through such a mapper has a `Ledger.Twin`: a ledger with
the same account that satisfies the invariant of runs through a direct map.
`Ledger.ReachableThrough.exists_twin` is by induction on the run, and carries
over what is known of direct maps.
-/

namespace BootMemory

/-! ## Mappers that keep memory apart -/

/-- A byte of memory that is free now or later. -/
def Region.RamByte (map : List Region) (byte : Nat) : Prop :=
  ∃ region ∈ map, region.isRam = true ∧ region.Contains byte

namespace Mapper

variable {profile : Profile} {mapper : Mapper} {map : List Region}

/-- An access that starts in memory and stays there has a byte at an address. -/
def Touches
    (profile : Profile) (mapper : Mapper) (map : List Region)
    (byte : Nat) (address : UInt64) : Prop :=
  ∃ start reached index,
    mapper.reach profile start = .ok reached ∧
      (∀ earlier ≤ index,
        Region.RamByte map (start.value.toNat + earlier)) ∧
        byte = start.value.toNat + index ∧
          address = reached.value + UInt64.ofNat index

/-- All memory is reached, and no two bytes of it at the same address. -/
structure Separates
    (profile : Profile) (mapper : Mapper) (map : List Region) : Prop where
  reaches : ∀ start : PhysicalAddress,
    Region.RamByte map start.value.toNat →
      ∃ reached, mapper.reach profile start = .ok reached
  apart : ∀ byte other address,
    mapper.Touches profile map byte address →
      mapper.Touches profile map other address → byte = other

/-- What a mapper exposes to others does not matter. -/
theorem Separates.concealing
    (separates : mapper.Separates profile map)
    (hidden : List PhysicalAddress) :
    (mapper.concealing hidden).Separates profile map :=
  ⟨separates.reaches, separates.apart⟩

end Mapper

namespace DirectMap

variable {offset : UInt64} {map : List Region}

/-- A direct map adds its offset to every byte of memory. -/
theorem Reaches.toVirtual_ramByte
    (reaches : DirectMap.Reaches ⟨offset⟩ map) (profile : Profile)
    {address : PhysicalAddress}
    (inRam : Region.RamByte map address.value.toNat) :
    toVirtual profile ⟨offset⟩ address =
      .ok ⟨UInt64.ofNat (address.value.toNat + offset.toNat)⟩ := by
  rcases inRam with ⟨region, member, ram, lower, upper⟩
  have nonempty : region.length ≠ 0 := by
    intro empty
    simp only [Region.top, empty, UInt64.toNat_zero] at upper
    omega
  have bounds :=
    reaches region member (Region.isPresent_iff.mpr ⟨ram, nonempty⟩)
  dsimp only at bounds
  apply toVirtual_of_lt
  · exact Nat.lt_of_lt_of_le upper bounds.1
  · dsimp only
    omega

/-- A direct map that reaches all memory keeps it apart. -/
theorem Reaches.separates
    (reaches : DirectMap.Reaches ⟨offset⟩ map) (mapSound : SoundMap map)
    (profile : Profile) :
    (Mapper.direct ⟨offset⟩).Separates profile map := by
  have places : ∀ {byte : Nat} {address : UInt64},
      (Mapper.direct ⟨offset⟩).Touches profile map byte address →
        byte < physicalLimit ∧ address = UInt64.ofNat (byte + offset.toNat) := by
    rintro byte address
      ⟨start, reached, index, translated, stays, rfl, rfl⟩
    have first := stays 0 (Nat.zero_le index)
    rw [Nat.add_zero] at first
    have raised :
        (Mapper.direct ⟨offset⟩).reach profile start =
          .ok ⟨UInt64.ofNat (start.value.toNat + offset.toNat)⟩ :=
      reaches.toVirtual_ramByte profile first
    rw [raised] at translated
    cases translated
    rcases stays index (Nat.le_refl index) with
      ⟨region, member, -, -, upper⟩
    have low := mapSound.low region member
    refine ⟨Nat.lt_of_lt_of_le upper low, ?_⟩
    rw [← UInt64.ofNat_add]
    congr 1
    omega
  constructor
  · intro start inRam
    exact ⟨_, reaches.toVirtual_ramByte profile inRam⟩
  · intro byte other address left right
    rcases places left with ⟨small, rfl⟩
    rcases places right with ⟨otherSmall, same⟩
    have values := congrArg UInt64.toNat same
    simp only [UInt64.toNat_ofNat', physicalLimit] at values small otherSmall
    omega

end DirectMap

/-! ## Runs and their twins -/

namespace Ledger

variable {profile : Profile} {mapper : Mapper} {offset : UInt64}
  {map : List Region} {ledger twin before after : Ledger}

/-- Every byte of a frame that may be lent is memory. -/
theorem BitsAccounted.ramByte_of_lends
    (account : ledger.BitsAccounted offset map) {byte : Nat}
    (lends : ledger.Lends offset map (byte / frameSize)) :
    Region.RamByte map byte := by
  rcases lends.exists_ram account.released_occupied with
    ⟨region, member, ram, holds⟩
  exact ⟨region, member, ram, holds.contains rfl⟩

/-- Every byte of the bitmap is memory. -/
theorem BitsAccounted.ramByte_of_place
    (account : ledger.BitsAccounted offset map) {index : Nat}
    (inside : index < ledger.machine.allocator.storage.length) :
    Region.RamByte map (ledger.machine.place offset + index) := by
  rcases account.fits.hosted with ⟨region, member, usable, lower, upper⟩
  exact
    ⟨region, member, Region.isRam_of_isUsable usable, by omega, by omega⟩

/-- The bitmap lies in a word's reach. -/
theorem BitsAccounted.toNat_place
    (account : ledger.BitsAccounted offset map) (mapSound : SoundMap map) :
    (UInt64.ofNat (ledger.machine.place offset)).toNat =
      ledger.machine.place offset := by
  rcases account.fits.hosted with ⟨region, member, -, lower, upper⟩
  have low := mapSound.low region member
  rw [UInt64.toNat_ofNat']
  simp only [physicalLimit] at low
  omega

/--
A ledger with the same account, on a machine that reaches memory directly and
has its bitmap at the same place of memory.
-/
structure Twin
    (profile : Profile) (mapper : Mapper) (offset : UInt64)
    (map : List Region) (ledger twin : Ledger) : Prop where
  account : twin.BitsAccounted offset map
  mapper_eq : ledger.machine.allocator.mapper = mapper
  table_eq : ledger.machine.table = twin.machine.table
  sited :
    mapper.reach profile ⟨UInt64.ofNat (twin.machine.place offset)⟩ =
      .ok ledger.machine.allocator.storage.base
  live_eq : ledger.live = twin.live
  released_eq : ledger.released = twin.released

/-- A ledger of a run through a direct map is its own twin. -/
theorem BitsAccounted.twin_self
    (account : ledger.BitsAccounted offset map) (mapSound : SoundMap map)
    (reaches : DirectMap.Reaches ⟨offset⟩ map) (profile : Profile) :
    Twin profile (.direct ⟨offset⟩) offset map ledger ledger where
  account
  mapper_eq := account.fits.placed.mapper_eq
  table_eq := rfl
  sited := by
    have lower := account.fits.placed.offset_le
    have value := account.toNat_place mapSound
    have first := account.ramByte_of_place account.fits.nonempty
    rw [Nat.add_zero, ← value] at first
    have reached :=
      @DirectMap.Reaches.toVirtual_ramByte offset map reaches profile
        ⟨UInt64.ofNat (ledger.machine.place offset)⟩ first
    dsimp only at reached
    rw [value, Machine.place, Nat.sub_add_cancel lower,
      UInt64.ofNat_toNat] at reached
    exact reached
  live_eq := rfl
  released_eq := rfl

namespace Twin

theorem bits_eq (twins : Twin profile mapper offset map ledger twin) :
    ledger.machine.allocator.storage.bits =
      twin.machine.allocator.storage.bits :=
  congrArg (fun table => table.bitmap.bits) twins.table_eq

theorem length_eq (twins : Twin profile mapper offset map ledger twin) :
    ledger.machine.allocator.storage.length =
      twin.machine.allocator.storage.length := by
  have sizes :=
    congrArg (fun table => table.bitmap.bytes.size) twins.table_eq
  simpa [Machine.table] using sizes

theorem bits_lt (twins : Twin profile mapper offset map ledger twin) :
    ledger.machine.allocator.storage.bits < wordCount := by
  rw [twins.bits_eq]
  exact twins.account.fits.placed.bits_lt

theorem length_le (twins : Twin profile mapper offset map ledger twin) :
    ledger.machine.allocator.storage.length ≤ wordCount := by
  rw [twins.length_eq]
  exact twins.account.fits.placed.length_le

/-- Both machines of a twin count the same pages. -/
theorem usedPages_eq (twins : Twin profile mapper offset map ledger twin) :
    ledger.machine.allocator.usedPages =
      twin.machine.allocator.usedPages :=
  congrArg FrameTable.usedPages twins.table_eq

/-! ## Zeroing leaves the bitmap alone -/

section Run

variable {first count : Nat}

/-- The frames of a free run may be lent. -/
theorem lends_of_free
    (twins : Twin profile mapper offset map ledger twin)
    (inside : first + count ≤ twin.machine.allocator.frameLimit)
    (free : twin.machine.table.bitmap.FreeRun first count)
    {frame : Nat} (lower : first ≤ frame) (upper : frame < first + count) :
    twin.Lends offset map frame := by
  have covered := twins.account.fits.covered
  exact
    ((twins.account.clear_iff frame (by omega)).mp
      (free frame lower upper)).1

/-- The mapper reaches every free run. -/
theorem exists_reached
    (twins : Twin profile mapper offset map ledger twin)
    (separates : mapper.Separates profile map) (positive : 0 < count)
    (inside : first + count ≤ twin.machine.allocator.frameLimit)
    (free : twin.machine.table.bitmap.FreeRun first count) :
    ∃ reached, mapper.reach profile (Address.ofFrame first) = .ok reached := by
  apply separates.reaches
  apply twins.account.ramByte_of_lends
  have value :=
    twins.account.fits.placed.toNat_ofFrame (by omega : first < _)
  rw [value, Nat.mul_div_cancel _ (by decide : 0 < 4096)]
  exact twins.lends_of_free inside free (Nat.le_refl _) (by omega)

/-- The bytes of a free run are reached apart from those of the bitmap. -/
theorem load_fill
    (twins : Twin profile mapper offset map ledger twin)
    (mapSound : SoundMap map) (separates : mapper.Separates profile map)
    (inside : first + count ≤ twin.machine.allocator.frameLimit)
    (free : twin.machine.table.bitmap.FreeRun first count)
    {reached : VirtualAddress}
    (translated :
      mapper.reach profile (Address.ofFrame first) = .ok reached)
    (memory : Memory) :
    ledger.machine.allocator.storage.load
        (memory.fill reached.value (count * frameSize) 0) =
      ledger.machine.allocator.storage.load memory := by
  apply Storage.load_congr
  intro address stored
  rw [Memory.read_fill, if_neg]
  intro zeroed
  have nonempty : 0 < count := by
    by_contra none
    have zero : count = 0 := by omega
    simp [zero] at zeroed
  have value : (Address.ofFrame first).value.toNat = first * frameSize :=
    twins.account.fits.placed.toNat_ofFrame (by omega)
  have inRun :
      mapper.Touches profile map
        (first * frameSize + Memory.distance reached.value address)
        address := by
    refine
      ⟨_, reached, _, translated, ?_, by rw [value],
        (Memory.add_ofNat_distance _ _).symm⟩
    intro earlier ordered
    apply twins.account.ramByte_of_lends
    rw [value]
    apply twins.lends_of_free inside free
    · simp only [frameSize]
      omega
    · simp only [frameSize] at zeroed ⊢
      omega
  have inBitmap :
      mapper.Touches profile map
        (twin.machine.place offset +
          Memory.distance ledger.machine.allocator.storage.base.value
            address)
        address := by
    refine
      ⟨_, _, _, twins.sited, ?_, by rw [twins.account.toNat_place mapSound],
        (Memory.add_ofNat_distance _ _).symm⟩
    intro earlier ordered
    rw [twins.account.toNat_place mapSound]
    apply twins.account.ramByte_of_place
    rw [← twins.length_eq]
    omega
  -- The byte they share lies in a frame of the run, apart from the bitmap.
  have same := separates.apart _ _ _ inRun inBitmap
  have lends :
      twin.Lends offset map
        ((first * frameSize + Memory.distance reached.value address) /
          frameSize) := by
    apply twins.lends_of_free inside free
    · simp only [frameSize]
      omega
    · simp only [frameSize] at zeroed ⊢
      omega
  have apart := twins.account.apart mapSound lends
  have length := twins.length_eq
  simp only [Machine.Apart, frameSize] at apart same
  omega

/-- A granted run changes both accounts alike. -/
theorem table_grantAt
    (twins : Twin profile mapper offset map ledger twin)
    (mapSound : SoundMap map) (separates : mapper.Separates profile map)
    (inside : first + count ≤ twin.machine.allocator.frameLimit)
    (free : twin.machine.table.bitmap.FreeRun first count)
    {reached : VirtualAddress}
    (translated :
      mapper.reach profile (Address.ofFrame first) = .ok reached)
    (wrapped : Bool) :
    (ledger.machine.grantAt reached.value first count wrapped).table =
      (twin.machine.grant offset first count wrapped).table := by
  have apart : ∀ frame, first ≤ frame → frame < first + count →
      twin.machine.Apart offset frame := by
    intro frame lower upper
    exact
      twins.account.apart mapSound
        (twins.lends_of_free inside free lower upper)
  rw [
    Machine.table_grantAt twins.length_le
      (twins.load_fill mapSound separates inside free translated),
    Machine.table_grant twins.account.fits.placed inside apart,
    twins.table_eq, twins.usedPages_eq]

end Run

/-! ## Calls on both machines -/

/-- A run that is granted on both machines, and where it is zeroed. -/
structure Grants
    (profile : Profile) (mapper : Mapper) (offset : UInt64)
    (ledger twin : Ledger) (size : UInt64) (first : Nat)
    (reached : VirtualAddress) (wrapped : Bool) : Prop where
  inside :
    first + framesFor size.toNat ≤ twin.machine.allocator.frameLimit
  free : twin.machine.table.bitmap.FreeRun first (framesFor size.toNat)
  translated : mapper.reach profile (Address.ofFrame first) = .ok reached
  ran :
    ledger.machine.allocate profile size =
      .ok (.ok (Address.ofFrame first))
        (ledger.machine.grantAt reached.value first (framesFor size.toNat)
          wrapped)
  twin_ran :
    twin.machine.allocate profile size =
      .ok (.ok (Address.ofFrame first))
        (twin.machine.grant offset first (framesFor size.toNat) wrapped)

variable {size : UInt64}

theorem grants_of_claimed
    (twins : Twin profile mapper offset map ledger twin)
    (mapSound : SoundMap map) (separates : mapper.Separates profile map)
    (nonzero : size ≠ 0) {first : Nat} {wrapped : Bool}
    (inside :
      first + framesFor size.toNat ≤ twin.machine.allocator.frameLimit)
    (free : twin.machine.table.bitmap.FreeRun first (framesFor size.toNat))
    (claimed :
      FrameTable.claimRun profile (framesFor size.toNat)
          twin.machine.table =
        .ok ⟨some first, wrapped⟩
          (twin.machine.table.claim first (framesFor size.toNat))) :
    ∃ reached,
      Grants profile mapper offset ledger twin size first reached
        wrapped := by
  have positive := framesFor_pos (Machine.toNat_pos_of_ne_zero nonzero)
  have limit := twins.account.fits.frameLimit_le mapSound
  have room := (twins.account.runsGrantable mapSound).room
  rcases
    twins.exists_reached separates positive inside free with
    ⟨reached, translated⟩
  have served :=
    @Machine.allocate_of_reached ledger.machine profile size nonzero first
      wrapped reached (by rw [twins.mapper_eq]; exact translated)
      (by simp only [frameSize, wordCount]; omega)
      (by rw [twins.usedPages_eq]; omega)
      (by rw [twins.table_eq]; exact claimed)
  exact
    ⟨reached, inside, free, translated, served,
      Machine.allocate_of_claimed twins.account.fits.placed nonzero inside
        (by omega) claimed⟩

/-- Both machines grant the same run to a request, or both refuse it. -/
theorem request
    (twins : Twin profile mapper offset map ledger twin)
    (mapSound : SoundMap map) (separates : mapper.Separates profile map)
    (nonzero : size ≠ 0) :
    (∃ first reached wrapped,
      Grants profile mapper offset ledger twin size first reached
        wrapped) ∨
    (ledger.machine.allocate profile size =
        .ok (.error (.outOfMemory (framesFor size.toNat)))
          (ledger.machine.refuse (framesFor size.toNat) size.toNat) ∧
      twin.machine.allocate profile size =
        .ok (.error (.outOfMemory (framesFor size.toNat)))
          (twin.machine.refuse (framesFor size.toNat) size.toNat)) := by
  have positive := framesFor_pos (Machine.toNat_pos_of_ne_zero nonzero)
  have grantable := twins.account.runsGrantable mapSound
  have scan := twins.account.fits.scanLimit_eq
  have ordered := grantable.cursor_le
  rcases
    FrameTable.claimRun_outcome profile twin.machine.table positive ordered
      grantable.placed.bits_lt with
    ⟨first, found, claimed⟩ |
      ⟨-, ⟨first, found, claimed⟩ | ⟨-, missed⟩⟩
  · have inside := found.le_stop
    rw [scan] at inside
    rcases
      twins.grants_of_claimed mapSound separates nonzero inside found.free
        claimed with
      ⟨reached, grants⟩
    exact .inl ⟨first, reached, false, grants⟩
  · have inside := Nat.le_trans found.le_stop ordered
    rw [scan] at inside
    rcases
      twins.grants_of_claimed mapSound separates nonzero inside found.free
        claimed with
      ⟨reached, grants⟩
    exact .inl ⟨first, reached, true, grants⟩
  · refine .inr ⟨Machine.allocate_of_missed nonzero ?_, ?_⟩
    · rw [twins.table_eq]
      exact missed
    · exact Machine.allocate_of_missed nonzero missed

/-- The ledgers after both machines granted a run are twins. -/
theorem granted
    (twins : Twin profile mapper offset map ledger twin)
    (mapSound : SoundMap map) (separates : mapper.Separates profile map)
    (nonzero : size ≠ 0) {first : Nat} {reached : VirtualAddress}
    {wrapped : Bool}
    (grants :
      Grants profile mapper offset ledger twin size first reached wrapped) :
    Twin profile mapper offset map
      { ledger with
        machine :=
          ledger.machine.grantAt reached.value first (framesFor size.toNat)
            wrapped
        live := ⟨Address.ofFrame first, size⟩ :: ledger.live }
      { twin with
        machine :=
          twin.machine.grant offset first (framesFor size.toNat) wrapped
        live := ⟨Address.ofFrame first, size⟩ :: twin.live } where
  account := twins.account.granted mapSound nonzero grants.twin_ran
  mapper_eq := twins.mapper_eq
  table_eq :=
    twins.table_grantAt mapSound separates grants.inside grants.free
      grants.translated wrapped
  sited := twins.sited
  live_eq := by rw [twins.live_eq]
  released_eq := twins.released_eq

/-- Both machines take back the same, or both are stopped. -/
theorem free_ok_iff
    (twins : Twin profile mapper offset map ledger twin)
    {address : PhysicalAddress} (named : address ≠ Address.null)
    (nonzero : size ≠ 0) :
    ledger.machine.free profile address size =
        .ok () (ledger.machine.takeBack address (framesFor size.toNat)) ↔
      twin.machine.free profile address size =
        .ok () (twin.machine.takeBack address (framesFor size.toNat)) := by
  rw [Machine.free_ok_iff named nonzero twins.bits_lt,
    Machine.free_ok_iff named nonzero
      twins.account.fits.placed.bits_lt, twins.table_eq]
  simp only [and_true]

/-- So are those after both machines took the same back. -/
theorem takenBack
    (twins : Twin profile mapper offset map ledger twin)
    {address : PhysicalAddress} {count : Nat} {live : List Block}
    {released : Finset Nat}
    (account :
      BitsAccounted offset map
        ⟨twin.machine.takeBack address count, live, released⟩) :
    Twin profile mapper offset map
      ⟨ledger.machine.takeBack address count, live, released⟩
      ⟨twin.machine.takeBack address count, live, released⟩ where
  account
  mapper_eq := twins.mapper_eq
  table_eq := by
    rw [Machine.table_takeBack twins.length_le,
      Machine.table_takeBack twins.account.fits.placed.length_le,
      twins.table_eq]
  sited := twins.sited
  live_eq := rfl
  released_eq := rfl

/-- The log is no part of the account. -/
theorem withLog
    (twins : Twin profile mapper offset map ledger twin) (log : Log) :
    Twin profile mapper offset map
      { ledger with machine := { ledger.machine with log } } twin :=
  ⟨twins.account, twins.mapper_eq, twins.table_eq, twins.sited, twins.live_eq,
    twins.released_eq⟩

/-- Every call that keeps to the contract leads to a ledger with a twin. -/
theorem step
    (twins : Twin profile mapper offset map before twin)
    (mapSound : SoundMap map) (separates : mapper.Separates profile map)
    (taken : Step profile map before after) :
    ∃ other, Twin profile mapper offset map after other := by
  cases taken with
  | granted nonzero ran =>
      rcases twins.request mapSound separates nonzero with
        ⟨first, reached, wrapped, grants⟩ | ⟨refused, -⟩
      · rw [grants.ran] at ran
        cases ran
        exact ⟨_, twins.granted mapSound separates nonzero grants⟩
      · rw [refused] at ran
        cases ran
  | @unserved machine size result nothing ran =>
      by_cases zero : size = 0
      · rw [zero, Machine.allocate_zero] at ran
        cases ran
        exact ⟨twin, twins⟩
      · rcases twins.request mapSound separates zero with
          ⟨first, reached, wrapped, grants⟩ | ⟨refused, -⟩
        · rw [grants.ran] at ran
          cases ran
          rcases nothing with isZero | ⟨refusal, ⟨⟩⟩
          exact absurd isZero zero
        · rw [refused] at ran
          cases ran
          exact ⟨twin, twins.withLog _⟩
  | ignored nothing ran =>
      rw [Machine.free_ignored profile before.machine nothing] at ran
      cases ran
      exact ⟨twin, twins⟩
  | @freed machine block size member same ran =>
      rw [twins.live_eq] at member
      have named := twins.account.address_ne_null member
      have freed := twins.account.free_live mapSound profile member same
      have nonzero : size ≠ 0 := by
        intro zero
        have positive := twins.account.positive block member
        rw [zero] at same
        simp only [framesFor, UInt64.toNat_zero, frameSize] at same
        omega
      rw [Machine.free_ok named nonzero twins.bits_lt ran, same,
        twins.live_eq, twins.released_eq]
      exact ⟨_, twins.takenBack (twins.account.freed mapSound member same freed)⟩
  | @handedBack machine block named nonzero whole ran =>
      rw [twins.released_eq] at whole
      have taken := Machine.free_ok named nonzero twins.bits_lt ran
      rw [taken] at ran
      have freed := (twins.free_ok_iff named nonzero).mp ran
      rw [taken, twins.live_eq, twins.released_eq]
      exact
        ⟨_,
          twins.takenBack
            (twins.account.handedBack mapSound named nonzero whole freed)⟩

end Twin

/-! ## Every run has a twin -/

/-- Allocators that are set up on one map start with the same account. -/
theorem table_start_eq
    {boot middle other : Boot} {host : Host} {address : VirtualAddress}
    (mapSound : SoundMap boot.map)
    (stored :
      middle.memory =
        (Boot.siteAt address boot.map).store
          (Boot.opened ((Boot.siteAt address boot.map).load boot.memory)
            (Boot.remaining boot.map host))
          boot.memory)
    (otherStored :
      other.memory =
        (Boot.site offset boot.map host).store
          (Boot.opened ((Boot.site offset boot.map host).load boot.memory)
            (Boot.remaining boot.map host))
          boot.memory) :
    (middle.start (Boot.founded mapper address boot.map)).table =
      (other.start (Boot.founder offset boot.map host)).table := by
  have left :
      (middle.start (Boot.founded mapper address boot.map)).table.bitmap =
        Boot.opened ((Boot.siteAt address boot.map).load boot.memory)
          (Boot.remaining boot.map host) :=
    Boot.bitmap_start (Boot.length_siteAt_le mapSound _) stored
  have right :
      (other.start (Boot.founder offset boot.map host)).table.bitmap =
        Boot.opened ((Boot.site offset boot.map host).load boot.memory)
          (Boot.remaining boot.map host) :=
    Boot.bitmap_start (Boot.length_siteAt_le mapSound _) otherStored
  have bitmaps :
      (middle.start (Boot.founded mapper address boot.map)).table.bitmap =
        (other.start (Boot.founder offset boot.map host)).table.bitmap := by
    rw [left, right]
    apply Boot.opened_congr
    · rfl
    · rw [Storage.size_bytes_load, Storage.size_bytes_load]
      rfl
  exact (FrameTable.mk.injEq ..).mpr ⟨bitmaps, rfl, rfl, rfl⟩

/-- A new allocator has a twin that was set up through a direct map. -/
theorem exists_twin_start
    {boot middle : Boot} {allocator : Allocator}
    (mapSound : SoundMap boot.map)
    (reaches : DirectMap.Reaches ⟨offset⟩ boot.map)
    (ran : Boot.setUp profile mapper boot = .ok (.ok allocator) middle) :
    ∃ twin,
      Twin profile mapper offset boot.map
        { machine := middle.start allocator, live := [], released := ∅ }
        twin := by
  rcases Boot.setUp_founded mapSound ran with
    ⟨host, address, found, reached, rfl, stored⟩
  rcases Host.exists_hosts found with ⟨first, last, origin, hosts⟩
  rcases
    Boot.setUp_of_found profile mapSound reaches
      (Boot.any_isOffered_of_found found mapSound) found with
    ⟨log, direct⟩
  have place := fun other =>
    (@place_start offset boot other host first last origin mapSound reaches
      hosts).1
  refine
    ⟨_,
      { account := accounted_start mapSound reaches direct
        mapper_eq := rfl
        table_eq := table_start_eq mapSound stored rfl
        sited := ?_
        live_eq := rfl
        released_eq := rfl }⟩
  rw [place, UInt64.ofNat_toNat]
  exact reached

/-- A direct map that reaches all memory of every sound map. -/
theorem exists_reaches (mapSound : SoundMap map) :
    ∃ offset, DirectMap.Reaches ⟨offset⟩ map := by
  refine ⟨UInt64.ofNat physicalLimit, ?_⟩
  intro region member _
  have low := mapSound.low region member
  have value :
      (DirectMap.mk (UInt64.ofNat physicalLimit)).offset.toNat =
        physicalLimit := by
    decide
  rw [value]
  simp only [wordCount, physicalLimit] at low ⊢
  omega

/-- Every ledger of a run through a mapper that keeps memory apart has a twin. -/
theorem ReachableThrough.exists_twin
    (mapSound : SoundMap map) (separates : mapper.Separates profile map)
    (reachable : ReachableThrough profile mapper map ledger) :
    ∃ offset twin, Twin profile mapper offset map ledger twin := by
  rcases exists_reaches mapSound with ⟨offset, reaches⟩
  refine ⟨offset, ?_⟩
  induction reachable with
  | start same ran =>
      subst same
      exact exists_twin_start mapSound reaches ran
  | step _ taken inductionHypothesis =>
      rcases inductionHypothesis with ⟨twin, twins⟩
      exact twins.step mapSound separates taken

end Ledger

end BootMemory
