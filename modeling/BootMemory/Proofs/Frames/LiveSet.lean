import BootMemory.Proofs.Frames.Completeness

/-!
# The state follows from the live blocks

No run leaves a trace of its past in the bitmap: given where it started, which
bits are set, and how many pages are used, depends on the live blocks and on
the frames handed back alone.  `Ledger.Run.determined` says how.

Frame zero is the exception that the statement makes room for.  It stays
reserved whatever is handed back, and a release with the null address does
nothing at all, also where memory in use at boot starts there;
`Sample.not_every_occupied_frame_cleared` is such a map.
-/

namespace BootMemory

namespace Machine

variable {offset : UInt64} {map : List Region} {machine later : Machine}

/-- The frames whose bit is set. -/
def usedFrames (machine : Machine) : Finset Nat :=
  (Finset.range machine.allocator.storage.bits).filter fun frame =>
    machine.table.bitmap.bit frame = true

@[simp]
theorem mem_usedFrames {frame : Nat} :
    frame ∈ machine.usedFrames ↔
      frame < machine.allocator.storage.bits ∧
        machine.table.bitmap.bit frame = true := by
  simp [usedFrames]

theorem Keeps.refl (machine : Machine) : machine.Keeps machine :=
  ⟨rfl, rfl, rfl, rfl, rfl⟩

theorem Keeps.trans
    {middle : Machine} (first : machine.Keeps middle)
    (second : middle.Keeps later) : machine.Keeps later where
  mapper := second.mapper.trans first.mapper
  storage := second.storage.trans first.storage
  limit := second.limit.trans first.limit
  total := second.total.trans first.total
  usable := second.usable.trans first.usable

end Machine

namespace Ledger

variable {profile : Profile} {offset : UInt64} {map : List Region}
  {start before after ledger other : Ledger}

/-- The frames of the live blocks. -/
def heldFrames (ledger : Ledger) : Finset Nat :=
  ledger.live.toFinset.biUnion Block.frames

theorem mem_heldFrames {frame : Nat} :
    frame ∈ ledger.heldFrames ↔
      ∃ block ∈ ledger.live, frame ∈ block.frames := by
  simp only [heldFrames, Finset.mem_biUnion, List.mem_toFinset]

theorem idle_iff {frame : Nat} :
    ledger.Idle frame ↔ frame ∉ ledger.heldFrames := by
  rw [mem_heldFrames]
  simp [Idle]

/-! ## Runs from a set-up -/

/-- The ledgers that a successful set-up on a map opens. -/
inductive Opening
    (profile : Profile) (offset : UInt64) (map : List Region) :
    Ledger → Prop where
  | setUp {boot middle : Boot} {allocator : Allocator}
      (same : boot.map = map)
      (ran :
        Boot.setUp profile (.direct ⟨offset⟩) boot =
          .ok (.ok allocator) middle) :
      Opening profile offset map
        { machine := middle.start allocator, live := [], released := ∅ }

/-- Any number of calls that keep to the contract. -/
def Run (profile : Profile) (map : List Region) : Ledger → Ledger → Prop :=
  Relation.ReflTransGen (Step profile map)

theorem Opening.accounted
    (mapSound : SoundMap map) (reaches : DirectMap.Reaches ⟨offset⟩ map)
    (opening : Opening profile offset map start) :
    start.BitsAccounted offset map := by
  cases opening with
  | setUp same ran =>
      subst same
      exact accounted_start mapSound reaches ran

/-- The bitmap of an opened ledger fills its storage. -/
theorem Opening.bits_eq
    (mapSound : SoundMap map) (reaches : DirectMap.Reaches ⟨offset⟩ map)
    (opening : Opening profile offset map start) :
    start.machine.allocator.storage.bits =
      8 * start.machine.allocator.storage.length := by
  cases opening with
  | setUp same ran =>
      subst same
      rcases Boot.setUp_ok mapSound reaches ran with ⟨host, -, rfl, -⟩
      simp only [Boot.start, Boot.storage_founder, Boot.site, Boot.siteAt]
      omega

/-- Every reachable ledger is reached by a run from an opening. -/
theorem Reachable.exists_opening
    (reachable : Reachable profile offset map ledger) :
    ∃ start, Opening profile offset map start ∧
      Run profile map start ledger := by
  induction reachable with
  | start same ran => exact ⟨_, .setUp same ran, .refl⟩
  | step _ taken inductionHypothesis =>
      rcases inductionHypothesis with ⟨start, opening, run⟩
      exact ⟨start, opening, run.tail taken⟩

/-- Calls that keep to the contract keep what no call changes. -/
theorem BitsAccounted.keeps
    (account : before.BitsAccounted offset map) (mapSound : SoundMap map)
    (taken : Step profile map before after) :
    before.machine.Keeps after.machine := by
  cases taken with
  | granted nonzero ran =>
      rcases account.granted_run mapSound nonzero ran with
        ⟨first, wrapped, -, rfl, -, -⟩
      exact Machine.grant_keeps _ _ _ _
  | unserved nothing ran =>
      rcases account.unserved_run mapSound nothing ran with ⟨log, rfl⟩
      exact ⟨rfl, rfl, rfl, rfl, rfl⟩
  | ignored nothing ran =>
      rw [Machine.free_ignored profile before.machine nothing] at ran
      cases ran
      exact Machine.Keeps.refl _
  | freed member same ran =>
      rw [account.free_live mapSound profile member same] at ran
      cases ran
      exact Machine.takeBack_keeps _ _ _
  | handedBack named nonzero whole ran =>
      rw [
        Machine.free_ok named nonzero account.fits.placed.bits_lt ran]
      exact Machine.takeBack_keeps _ _ _

/-- What a run keeps, and the invariant at its end. -/
theorem Run.accounted
    (mapSound : SoundMap map) (account : start.BitsAccounted offset map)
    (run : Run profile map start ledger) :
    ledger.BitsAccounted offset map ∧ start.machine.Keeps ledger.machine := by
  induction run with
  | refl => exact ⟨account, Machine.Keeps.refl _⟩
  | tail _ taken inductionHypothesis =>
      rcases inductionHypothesis with ⟨reached, kept⟩
      exact
        ⟨reached.step mapSound taken,
          kept.trans (reached.keeps mapSound taken)⟩

/-! ## The bits at the end of a run -/

/-- A ledger with what it has from the opening of its run. -/
structure Descends
    (offset : UInt64) (map : List Region) (start ledger : Ledger) :
    Prop where
  opened : start.BitsAccounted offset map
  live_nil : start.live = []
  released_empty : start.released = ∅
  full :
    start.machine.allocator.storage.bits =
      8 * start.machine.allocator.storage.length
  account : ledger.BitsAccounted offset map
  keeps : start.machine.Keeps ledger.machine

theorem Opening.descends
    (mapSound : SoundMap map) (reaches : DirectMap.Reaches ⟨offset⟩ map)
    (opening : Opening profile offset map start)
    (run : Run profile map start ledger) :
    Descends offset map start ledger := by
  have opened := opening.accounted mapSound reaches
  have full := opening.bits_eq mapSound reaches
  rcases run.accounted mapSound opened with ⟨account, keeps⟩
  cases opening with
  | setUp same ran => exact ⟨opened, rfl, rfl, full, account, keeps⟩

namespace Descends

/-- A bit is clear if it was or became so, and nobody holds the frame. -/
theorem clear_iff
    (descends : Descends offset map start ledger) {frame : Nat}
    (inside : frame < start.machine.allocator.storage.bits) :
    ledger.machine.table.bitmap.bit frame = false ↔
      (start.machine.table.bitmap.bit frame = false ∨
          frame ∈ ledger.released.erase 0) ∧
        frame ∉ ledger.heldFrames := by
  have later := descends.account.clear_iff frame (by
    rw [descends.keeps.storage]
    exact inside)
  have first := descends.opened.clear_iff frame inside
  have idle : start.Idle frame := by
    simp [Idle, descends.live_nil]
  rw [later, first, idle_iff, Lends, Lends, descends.keeps.offers,
    descends.released_empty, Finset.mem_erase]
  simp only [Finset.notMem_empty, or_false, idle, and_true]
  tauto

/-- Frames that are held or were handed back are frames of memory. -/
theorem held_lt
    (descends : Descends offset map start ledger) (mapSound : SoundMap map)
    {frame : Nat} (held : frame ∈ ledger.heldFrames) :
    frame < start.machine.allocator.frameLimit := by
  rcases mem_heldFrames.mp held with ⟨block, member, inBlock⟩
  rw [← descends.keeps.limit]
  exact
    descends.account.frame_lt_limit mapSound
      (descends.account.lent block member frame inBlock)

theorem released_lt
    (descends : Descends offset map start ledger) (mapSound : SoundMap map)
    {frame : Nat} (released : frame ∈ ledger.released.erase 0) :
    frame < start.machine.allocator.frameLimit := by
  rcases Finset.mem_erase.mp released with ⟨nonzero, member⟩
  rw [← descends.keeps.limit]
  exact
    descends.account.frame_lt_limit mapSound ⟨nonzero, Or.inr member⟩

theorem usedFrames_eq
    (descends : Descends offset map start ledger)
    (mapSound : SoundMap map) :
    ledger.machine.usedFrames =
      start.machine.usedFrames \ ledger.released.erase 0 ∪
        ledger.heldFrames := by
  ext frame
  rw [Finset.mem_union, Finset.mem_sdiff, Machine.mem_usedFrames,
    Machine.mem_usedFrames, descends.keeps.storage]
  by_cases inside : frame < start.machine.allocator.storage.bits
  · have clear := descends.clear_iff inside
    rw [← Bool.not_eq_true, ← Bool.not_eq_true] at clear
    tauto
  · have covered := descends.opened.fits.covered
    have unheld : frame ∉ ledger.heldFrames := fun held => by
      have below := descends.held_lt mapSound held
      omega
    simp only [inside, unheld, false_and, or_false]

theorem clearFrames_eq
    (descends : Descends offset map start ledger)
    (mapSound : SoundMap map) :
    ledger.machine.clearFrames =
      (start.machine.clearFrames ∪ ledger.released.erase 0) \
        ledger.heldFrames := by
  ext frame
  rw [Finset.mem_sdiff, Finset.mem_union, Machine.mem_clearFrames,
    Machine.mem_clearFrames, descends.keeps.limit]
  have covered := descends.opened.fits.covered
  by_cases inside : frame < start.machine.allocator.frameLimit
  · rw [descends.clear_iff (Nat.lt_of_lt_of_le inside covered)]
    simp only [inside, true_and]
  · have kept : frame ∉ ledger.released.erase 0 := fun released =>
      inside (descends.released_lt mapSound released)
    simp only [inside, kept, false_and, or_false]

/-- Frames handed back were not clear at the start. -/
theorem disjoint_released
    (descends : Descends offset map start ledger)
    (mapSound : SoundMap map) :
    Disjoint start.machine.clearFrames (ledger.released.erase 0) := by
  rw [Finset.disjoint_left]
  intro frame clear released
  rcases Machine.mem_clearFrames.mp clear with ⟨below, bit⟩
  have readable :=
    Nat.lt_of_lt_of_le below descends.opened.fits.covered
  have lends :=
    ((descends.opened.clear_iff frame readable).mp bit).1
  have occupied :=
    descends.account.released_occupied frame (Finset.mem_erase.mp released).2
  refine BitsAccounted.not_lends_of_occupied mapSound occupied ?_ lends
  rw [descends.released_empty]
  exact Finset.notMem_empty frame

/-- Whoever holds a frame holds one that was clear or handed back. -/
theorem held_subset
    (descends : Descends offset map start ledger)
    (mapSound : SoundMap map) :
    ledger.heldFrames ⊆
      start.machine.clearFrames ∪ ledger.released.erase 0 := by
  intro frame held
  have below := descends.held_lt mapSound held
  have readable :=
    Nat.lt_of_lt_of_le below descends.opened.fits.covered
  rcases mem_heldFrames.mp held with ⟨block, member, inBlock⟩
  have lends := descends.account.lent block member frame inBlock
  rw [Finset.mem_union, Machine.mem_clearFrames, Finset.mem_erase]
  rcases lends with ⟨nonzero, offers | released⟩
  · left
    refine ⟨below, (descends.opened.clear_iff frame readable).mpr ?_⟩
    refine
      ⟨⟨nonzero, Or.inl ((descends.keeps.offers frame).mp offers)⟩, ?_⟩
    simp [Idle, descends.live_nil]
  · exact Or.inr ⟨nonzero, released⟩

/-- The balance is that of the start, seated or not. -/
theorem balance_eq (descends : Descends offset map start ledger) :
    ledger.machine.balance = start.machine.balance := by
  by_cases seated : start.machine.Seated offset map
  · rw [descends.opened.balance_seated seated,
      descends.account.balance_seated (descends.keeps.seated.mpr seated)]
  · rw [descends.opened.balance_crowded seated,
      descends.account.balance_crowded fun later =>
        seated (descends.keeps.seated.mp later)]

theorem usedPages_eq
    (descends : Descends offset map start ledger)
    (mapSound : SoundMap map) :
    ledger.machine.allocator.usedPages +
        (ledger.released.erase 0).card =
      start.machine.allocator.usedPages + ledger.heldFrames.card := by
  -- The balance is constant, so it is enough to count the clear frames.
  have balance := descends.balance_eq
  have subset := descends.held_subset mapSound
  have counted := Finset.card_le_card subset
  have union :=
    Finset.card_union_of_disjoint (descends.disjoint_released mapSound)
  rw [Machine.balance, Machine.balance, descends.clearFrames_eq mapSound,
    Finset.card_sdiff_of_subset subset] at balance
  omega

/-- Equal used frames make equal bitmaps. -/
theorem bitmap_eq
    (descends : Descends offset map start ledger)
    (others : Descends offset map start other)
    (same : other.machine.usedFrames = ledger.machine.usedFrames) :
    other.machine.table.bitmap = ledger.machine.table.bitmap := by
  have storage :=
    others.keeps.storage.trans descends.keeps.storage.symm
  apply Bitmap.ext_bit
  · simp only [Machine.table, Storage.bits_load, Storage.size_bytes_load,
      others.keeps.storage]
    exact descends.full
  · rw [Machine.bits_table, Machine.bits_table, storage]
  · simp only [Machine.table, Storage.size_bytes_load, storage]
  · intro frame inside
    rw [Machine.bits_table] at inside
    have left := @Machine.mem_usedFrames other.machine frame
    have right := @Machine.mem_usedFrames ledger.machine frame
    rw [same, right, ← storage] at left
    simp only [inside, true_and] at left
    exact Bool.eq_iff_iff.mpr left.symm

end Descends

/--
The used frames are those of the start without the frames handed back, frame
zero excepted, and with those of the live blocks; the used pages count them.
Two runs that end with the same live frames and the same frames handed back end
with the same bitmap, whatever happened on the way.
-/
theorem Run.determined
    (mapSound : SoundMap map) (reaches : DirectMap.Reaches ⟨offset⟩ map)
    (opening : Opening profile offset map start)
    (run : Run profile map start ledger) :
    ledger.machine.usedFrames =
        start.machine.usedFrames \ ledger.released.erase 0 ∪
          ledger.heldFrames ∧
      ledger.machine.allocator.usedPages +
          (ledger.released.erase 0).card =
        start.machine.allocator.usedPages + ledger.heldFrames.card ∧
      ∀ other, Run profile map start other →
        other.heldFrames = ledger.heldFrames →
          other.released = ledger.released →
            other.machine.table.bitmap = ledger.machine.table.bitmap ∧
              other.machine.allocator.usedPages =
                ledger.machine.allocator.usedPages := by
  have descends := opening.descends mapSound reaches run
  have used := descends.usedFrames_eq mapSound
  have pages := descends.usedPages_eq mapSound
  refine ⟨used, pages, ?_⟩
  intro other otherRun held released
  have others := opening.descends mapSound reaches otherRun
  have otherUsed := others.usedFrames_eq mapSound
  have otherPages := others.usedPages_eq mapSound
  rw [held, released] at otherUsed otherPages
  constructor
  · exact descends.bitmap_eq others (otherUsed.trans used.symm)
  · omega

end Ledger

namespace Sample

/-- A run that granted two frames and took back one in use at boot. -/
theorem split_run_determined :
    SoundMap gapMap ∧ DirectMap.Reaches ⟨offset⟩ gapMap ∧
      ∃ start ledger, Ledger.Opening .debug offset gapMap start ∧
        Ledger.Run .debug gapMap start ledger ∧
          ledger.live = [⟨Address.ofFrame 4, 8192⟩] ∧
            ledger.released = {3} ∧
              ledger.machine.usedFrames =
                  start.machine.usedFrames \ ledger.released.erase 0 ∪
                    ledger.heldFrames ∧
                ledger.machine.allocator.usedPages +
                    (ledger.released.erase 0).card =
                  start.machine.allocator.usedPages +
                    ledger.heldFrames.card ∧
                ∀ other, Ledger.Run .debug gapMap start other →
                  other.heldFrames = ledger.heldFrames →
                    other.released = ledger.released →
                      other.machine.table.bitmap =
                          ledger.machine.table.bitmap ∧
                        other.machine.allocator.usedPages =
                          ledger.machine.allocator.usedPages := by
  rcases exists_split_run with ⟨ledger, state⟩
  rcases state.reachable.exists_opening with ⟨start, opening, run⟩
  exact
    ⟨gapMap_sound, gapMap_reaches, start, ledger, opening, run,
      state.live_eq, state.released_eq,
      Ledger.Run.determined gapMap_sound gapMap_reaches opening run⟩

/-! ## Memory in use at boot from frame zero on -/

/-- Frames 0 and 1 are in use at boot, and the bitmap takes frame 2. -/
def lowMap : List Region :=
  [⟨0, 8192, .bootloaderReclaimable⟩, ⟨8192, 8192, .usable⟩]

/-- The bitmap is at the front of the second region. -/
def lowHost : Host :=
  ⟨[⟨0, 8192, .bootloaderReclaimable⟩], ⟨8192, 8192, .usable⟩, []⟩

theorem lowMap_sound : SoundMap lowMap :=
  .of_sorted (by decide) (by decide)

theorem lowMap_reaches : DirectMap.Reaches ⟨offset⟩ lowMap :=
  reaches_of_low (by decide)

theorem lowMap_found :
    Host.find (Boot.bitmapFrames lowMap * frameSize)
      (lowMap.map Region.pastFrameZero) = some lowHost := by
  have frames : Boot.bitmapFrames lowMap = 1 := by decide
  rw [frames]
  rfl

/-- The frames in use at boot are those of a block at the null address. -/
theorem lowMap_occupied :
    ∀ frame ∈ (Block.mk Address.null 8192).frames,
      Region.OccupiedFrame lowMap frame := by
  unfold Region.OccupiedFrame
  decide

/-- Frame 1 is in use when the allocator is new. -/
theorem lowMap_used
    {start : Ledger} (opening : Ledger.Opening .debug offset lowMap start) :
    1 ∈ start.machine.usedFrames := by
  have descends :=
    opening.descends lowMap_sound lowMap_reaches .refl
  have account := descends.opened
  have full := descends.full
  have nonempty := account.fits.nonempty
  rw [Machine.mem_usedFrames, ← Bool.not_eq_false,
    account.clear_iff 1 (by omega)]
  refine ⟨by omega, ?_⟩
  rintro ⟨lends, -⟩
  refine
    Ledger.BitsAccounted.not_lends_of_occupied lowMap_sound
      (lowMap_occupied 1 (by decide)) ?_ lends
  rw [descends.released_empty]
  exact Finset.notMem_empty 1

/-- Giving back memory in use at boot can leave its bits as they are. -/
theorem not_every_occupied_frame_cleared :
    ¬ ∀ (profile : Profile) (offset : UInt64) (map : List Region)
        (start : Ledger) (block : Block) (machine : Machine),
      SoundMap map → DirectMap.Reaches ⟨offset⟩ map →
        Ledger.Opening profile offset map start →
          block.size ≠ 0 →
            (∀ frame ∈ block.frames, Region.OccupiedFrame map frame) →
              start.machine.free profile block.address block.size =
                  .ok () machine →
                machine.usedFrames =
                  start.machine.usedFrames \ block.frames := by
  intro cleared
  rcases Ledger.Reachable.exists_start .debug lowMap_sound lowMap_reaches
    lowMap_found Memory.zero with ⟨ledger, reachable, -⟩
  rcases reachable.exists_opening with ⟨start, opening, -⟩
  have same :=
    cleared .debug offset lowMap start ⟨Address.null, 8192⟩ start.machine
      lowMap_sound lowMap_reaches opening (by decide) lowMap_occupied
      (Machine.free_ignored .debug start.machine (Or.inl rfl))
  have used := lowMap_used opening
  rw [same] at used
  exact (Finset.mem_sdiff.mp used).2 (by decide)

end Sample

end BootMemory
