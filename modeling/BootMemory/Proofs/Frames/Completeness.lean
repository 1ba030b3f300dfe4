import BootMemory.Proofs.Frames.Ownership

/-!
# Which requests are refused

A request looks for a run of free frames from the cursor to the end of memory,
and then once more from frame zero to the cursor.  Neither search sees a run
that has the cursor inside, so a request can be refused although there is room
for it.

`Ledger.Reachable.allocate_iff` says exactly when: on every ledger of a
contract-keeping run a request is refused if and only if every free run that
is long enough straddles the cursor.  `Sample.exists_overlooked` is a run in
which that happens.
-/

namespace BootMemory

namespace Machine

variable {offset : UInt64} {machine : Machine}

/-- The cursor stands inside a run, after its first frame. -/
def Straddles (machine : Machine) (first count : Nat) : Prop :=
  first < machine.allocator.cursor ∧
    machine.allocator.cursor < first + count

/-- A request is refused if the cursor is inside every run that would do. -/
theorem RunsGrantable.refused_of_straddles
    (grantable : machine.RunsGrantable offset) (profile : Profile)
    {size : UInt64} (nonzero : size ≠ 0)
    (overlooked : ∀ first,
      first + framesFor size.toNat ≤ machine.table.scanLimit →
      machine.table.bitmap.FreeRun first (framesFor size.toNat) →
        machine.Straddles first (framesFor size.toNat)) :
    machine.allocate profile size =
      .ok (.error (.outOfMemory (framesFor size.toNat)))
        (machine.refuse (framesFor size.toNat) size.toNat) := by
  have ordered := grantable.cursor_le
  rcases allocate_outcome grantable profile nonzero with
    ⟨first, found, -⟩ | ⟨-, ⟨first, found, -⟩ | ⟨-, refused⟩⟩
  · have start := found.start_le
    have straddles := overlooked first found.le_stop found.free
    unfold Straddles at straddles
    omega
  · have stop := found.le_stop
    have straddles := overlooked first (by omega) found.free
    unfold Straddles at straddles
    omega
  · exact refused

/-- A request is granted if a run that would do lies on one side of the cursor. -/
theorem RunsGrantable.granted_of_aside
    (grantable : machine.RunsGrantable offset) (profile : Profile)
    {size : UInt64} (nonzero : size ≠ 0) {first : Nat}
    (inside : first + framesFor size.toNat ≤ machine.table.scanLimit)
    (free : machine.table.bitmap.FreeRun first (framesFor size.toNat))
    (aside : ¬ machine.Straddles first (framesFor size.toNat)) :
    ∃ address later,
      machine.allocate profile size = .ok (.ok address) later := by
  rcases allocate_outcome grantable profile nonzero with
    ⟨found, -, granted⟩ | ⟨ahead, ⟨found, -, granted⟩ | ⟨behind, -⟩⟩
  · exact ⟨_, _, granted⟩
  · exact ⟨_, _, granted⟩
  · unfold Straddles at aside
    by_cases later : machine.allocator.cursor ≤ first
    · exact absurd free (ahead first later inside)
    · exact
        absurd free (behind first (Nat.zero_le _) (by omega))

end Machine

/-! ## A run on six frames -/

namespace Sample

/-- Six frames: the bitmap takes frame 1, and frame 3 is in use at boot. -/
def gapMap : List Region :=
  [⟨4096, 8192, .usable⟩, ⟨12288, 4096, .bootloaderReclaimable⟩,
    ⟨16384, 8192, .usable⟩]

/-- The bitmap is at the front of the first region. -/
def gapHost : Host :=
  ⟨[], ⟨4096, 8192, .usable⟩,
    [⟨12288, 4096, .bootloaderReclaimable⟩, ⟨16384, 8192, .usable⟩]⟩

theorem gapMap_found :
    Host.find (Boot.bitmapFrames gapMap * frameSize)
      (gapMap.map Region.pastFrameZero) = some gapHost := by
  have frames : Boot.bitmapFrames gapMap = 1 := by decide
  rw [frames]
  rfl

theorem gapMap_sound : SoundMap gapMap :=
  .of_sorted (by decide) (by decide)

theorem gapMap_reaches : DirectMap.Reaches ⟨offset⟩ gapMap :=
  reaches_of_low (by decide)

/-- The sample can be set up, whatever memory holds. -/
theorem exists_gap_setUp (profile : Profile) (memory : Memory) :
    ∃ middle,
      Boot.setUp profile (.direct ⟨offset⟩) ⟨gapMap, memory, []⟩ =
        .ok (.ok (Boot.founder offset gapMap gapHost)) middle := by
  rcases @Boot.setUp_of_found offset ⟨gapMap, memory, []⟩ gapHost profile
    gapMap_sound gapMap_reaches
    (Boot.any_isOffered_of_found gapMap_found gapMap_sound) gapMap_found with
    ⟨log, ran⟩
  exact ⟨_, ran⟩

/-- The first request on the sample is answered. -/
theorem exists_gap_answer
    {profile : Profile} {memory : Memory} {allocator : Allocator}
    {middle : Boot}
    (ran :
      Boot.setUp profile (.direct ⟨offset⟩) ⟨gapMap, memory, []⟩ =
        .ok (.ok allocator) middle)
    (size : UInt64) :
    ∃ result later,
      (middle.start allocator).allocate profile size = .ok result later :=
  ((Ledger.accounted_start gapMap_sound gapMap_reaches ran).runsGrantable
    gapMap_sound).answers profile size

/-- The frames of the sample that may be lent. -/
theorem gapMap_lends_iff
    {ledger : Ledger}
    (storage :
      ledger.machine.allocator.storage = Boot.site offset gapMap gapHost)
    (frame : Nat) :
    ledger.Lends offset gapMap frame ↔
      frame ≠ 0 ∧
        (frame = 2 ∨ frame = 4 ∨ frame = 5 ∨ frame ∈ ledger.released) := by
  have place : ledger.machine.place offset = 4096 := by
    rw [Machine.place, storage]
    decide
  have length : ledger.machine.allocator.storage.length = 4096 := by
    rw [storage]
    decide
  have usable :
      Region.UsableFrame gapMap frame ↔
        frame = 1 ∨ frame = 2 ∨ frame = 4 ∨ frame = 5 := by
    simp only [Region.UsableFrame, gapMap, List.mem_cons, List.not_mem_nil,
      or_false, exists_eq_or_imp, exists_eq_left]
    simp [Region.isUsable, Region.HoldsFrame, Region.top, frameSize]
    omega
  rw [Ledger.Lends, Machine.Offers, Machine.Apart, usable, place, length]
  simp only [frameSize]
  by_cases released : frame ∈ ledger.released
  · simp [released]
  · simp only [released, or_false]
    omega

/-- The state of a run on the sample. -/
structure GapState
    (ledger : Ledger) (cursor : Nat) (live : List Block)
    (released : Finset Nat) : Prop where
  reachable : Ledger.Reachable .debug offset gapMap ledger
  storage :
    ledger.machine.allocator.storage = Boot.site offset gapMap gapHost
  limit : ledger.machine.allocator.frameLimit = 6
  cursor_eq : ledger.machine.allocator.cursor = cursor
  live_eq : ledger.live = live
  released_eq : ledger.released = released

namespace GapState

variable {ledger : Ledger} {cursor : Nat} {live : List Block}
  {released : Finset Nat}

theorem accounted (state : GapState ledger cursor live released) :
    ledger.BitsAccounted offset gapMap :=
  state.reachable.accounted gapMap_sound gapMap_reaches

theorem bits (state : GapState ledger cursor live released) :
    ledger.machine.allocator.storage.bits = 32768 := by
  rw [state.storage]
  decide

theorem clear_iff
    (state : GapState ledger cursor live released)
    {frame : Nat} (below : frame < 6) :
    ledger.machine.table.bitmap.bit frame = false ↔
      (frame ≠ 0 ∧
        (frame = 2 ∨ frame = 4 ∨ frame = 5 ∨ frame ∈ released)) ∧
        ∀ block ∈ live, frame ∉ block.frames := by
  have bits := state.bits
  rw [state.accounted.clear_iff frame (by omega),
    gapMap_lends_iff state.storage, state.released_eq, Ledger.Idle,
    state.live_eq]

end GapState

theorem count_eq : framesFor (8192 : UInt64).toNat = 2 := by decide

/-- The first request for two frames passes over the single free frame 2. -/
theorem exists_granted :
    ∃ ledger, GapState ledger 6 [⟨Address.ofFrame 4, 8192⟩] ∅ := by
  rcases Ledger.Reachable.exists_start .debug gapMap_sound gapMap_reaches
    gapMap_found Memory.zero with ⟨start, reachable, live, released, books⟩
  have state : GapState start 0 [] ∅ := by
    refine ⟨reachable, ?_, ?_, ?_, live, released⟩
    · rw [books]
      rfl
    · rw [books]
      decide
    · rw [books]
      rfl
  have clear : ∀ frame, frame < 6 →
      (start.machine.table.bitmap.bit frame = false ↔
        frame = 2 ∨ frame = 4 ∨ frame = 5) := by
    intro frame below
    rw [state.clear_iff below]
    simp only [List.not_mem_nil, false_imp_iff, implies_true, and_true,
      Finset.notMem_empty, or_false]
    omega
  have only : ∀ first, first + 2 ≤ 6 →
      start.machine.table.bitmap.FreeRun first 2 → first = 4 := by
    intro first inside free
    have one :=
      (clear first (by omega)).mp (free first (by omega) (by omega))
    have two :=
      (clear (first + 1) (by omega)).mp
        (free (first + 1) (by omega) (by omega))
    omega
  have free : start.machine.table.bitmap.FreeRun 4 2 := by
    intro frame lower upper
    rw [clear frame (by omega)]
    omega
  have scan := state.accounted.fits.scanLimit_eq
  have outcome :=
    Machine.allocate_outcome (state.accounted.runsGrantable gapMap_sound) .debug
      (by decide : (8192 : UInt64) ≠ 0)
  rw [state.limit] at scan
  rw [count_eq, scan, state.cursor_eq] at outcome
  rcases outcome with ⟨first, run, ran⟩ | ⟨missing, -⟩
  · rw [only first run.le_stop run.free] at ran
    refine
      ⟨_, .step reachable (.granted (by decide : (8192 : UInt64) ≠ 0) ran),
        state.storage, state.limit, rfl, ?_, released⟩
    rw [live]
  · exact absurd free (missing 4 (by omega) (by omega))

/-- Giving back frame 3 puts the cursor inside the run of frames 2 and 3. -/
theorem exists_split_run :
    ∃ ledger, GapState ledger 3 [⟨Address.ofFrame 4, 8192⟩] {3} := by
  rcases exists_granted with ⟨ledger, state⟩
  have frames :
      ∀ frame, (⟨12288⟩ : PhysicalAddress).frame ≤ frame →
        frame < (⟨12288⟩ : PhysicalAddress).frame +
          framesFor (4096 : UInt64).toNat → frame = 3 := by
    have first : (⟨12288⟩ : PhysicalAddress).frame = 3 := by decide
    have count : framesFor (4096 : UInt64).toNat = 1 := by decide
    rw [first, count]
    intro frame lower upper
    omega
  have held : ledger.machine.table.bitmap.bit 3 = true := by
    cases bit : ledger.machine.table.bitmap.bit 3 with
    | true => rfl
    | false =>
        have clear := (state.clear_iff (by omega)).mp bit
        simp at clear
  have ran :
      ledger.machine.free .debug ⟨12288⟩ 4096 =
        .ok () (ledger.machine.takeBack ⟨12288⟩ 1) := by
    apply Machine.free_of_held .debug (by decide) (by decide)
      state.accounted.fits.placed.bits_lt
    intro frame lower upper
    rw [frames frame lower upper, state.bits]
    exact ⟨by omega, by omega, held⟩
  have whole : ∀ frame ∈ (Block.mk ⟨12288⟩ 4096).frames,
      Region.OccupiedFrame gapMap frame ∧ frame ∉ ledger.released := by
    intro frame member
    have bounds := Block.mem_frames.mp member
    rw [frames frame bounds.1 bounds.2, state.released_eq]
    refine ⟨⟨⟨12288, 4096, .bootloaderReclaimable⟩, ?_, ?_, ?_⟩, ?_⟩
    · decide
    · decide
    · decide
    · exact Finset.notMem_empty 3
  refine
    ⟨_, .step state.reachable
      (.handedBack (by decide : (⟨12288⟩ : PhysicalAddress) ≠ Address.null)
        (by decide : (4096 : UInt64) ≠ 0) whole ran),
      state.storage, state.limit, ?_, state.live_eq, ?_⟩
  · rw [Machine.cursor_takeBack, state.cursor_eq]
    decide
  · have frame : (Block.mk ⟨12288⟩ 4096).frames = {3} := by decide
    simp [state.released_eq, frame]

/-- The frames on both sides of the cursor are the free ones. -/
theorem GapState.split_clear_iff
    {ledger : Ledger}
    (state : GapState ledger 3 [⟨Address.ofFrame 4, 8192⟩] {3})
    {frame : Nat} (below : frame < 6) :
    ledger.machine.table.bitmap.bit frame = false ↔
      frame = 2 ∨ frame = 3 := by
  have block : Address.frame (Address.ofFrame 4) = 4 := by decide
  rw [state.clear_iff below]
  simp only [List.mem_singleton, forall_eq, Block.mem_frames, Block.count,
    block, count_eq, Finset.mem_singleton]
  omega

/-- Frames 2 and 3 are free, and a request for two frames is refused. -/
theorem exists_overlooked :
    ∃ ledger, Ledger.Reachable .debug offset gapMap ledger ∧
      2 + 2 ≤ ledger.machine.allocator.frameLimit ∧
        ledger.machine.table.bitmap.FreeRun 2 2 ∧
          ∃ later,
            ledger.machine.allocate .debug 8192 =
              .ok (.error (.outOfMemory 2)) later := by
  rcases exists_split_run with ⟨ledger, state⟩
  have free : ledger.machine.table.bitmap.FreeRun 2 2 := by
    intro frame lower upper
    rw [state.split_clear_iff (by omega)]
    omega
  have scan := state.accounted.fits.scanLimit_eq
  rw [state.limit] at scan
  have refused :=
    (state.accounted.runsGrantable gapMap_sound).refused_of_straddles .debug
      (by decide : (8192 : UInt64) ≠ 0)
  rw [count_eq, scan] at refused
  refine ⟨ledger, state.reachable, ?_, free, _, refused ?_⟩
  · rw [state.limit]
    omega
  · intro first inside run
    have one :=
      (state.split_clear_iff (by omega)).mp
        (run first (by omega) (by omega))
    have two :=
      (state.split_clear_iff (by omega)).mp
        (run (first + 1) (by omega) (by omega))
    unfold Machine.Straddles
    rw [state.cursor_eq]
    omega

end Sample

/-! ## The criterion -/

namespace Ledger

variable {offset : UInt64} {map : List Region} {ledger : Ledger}

/--
Requests are refused exactly if every free run that is long enough straddles
the cursor, and granted exactly if one does not.
-/
theorem Reachable.allocate_iff
    {profile : Profile} (mapSound : SoundMap map)
    (reaches : DirectMap.Reaches ⟨offset⟩ map)
    (reachable : Reachable profile offset map ledger)
    {size : UInt64} (nonzero : size ≠ 0) :
    ((∃ later,
        ledger.machine.allocate profile size =
          .ok (.error (.outOfMemory (framesFor size.toNat))) later) ↔
      ∀ first,
        first + framesFor size.toNat ≤
            ledger.machine.allocator.frameLimit →
          ledger.machine.table.bitmap.FreeRun first
              (framesFor size.toNat) →
            ledger.machine.Straddles first (framesFor size.toNat)) ∧
    ((∃ address later,
        ledger.machine.allocate profile size = .ok (.ok address) later) ↔
      ∃ first,
        first + framesFor size.toNat ≤
            ledger.machine.allocator.frameLimit ∧
          ledger.machine.table.bitmap.FreeRun first
              (framesFor size.toNat) ∧
            ¬ ledger.machine.Straddles first (framesFor size.toNat)) := by
  have account := reachable.accounted mapSound reaches
  have grantable := account.runsGrantable mapSound
  have limit := account.fits.scanLimit_eq
  rw [← limit]
  by_cases overlooked :
      ∀ first,
        first + framesFor size.toNat ≤ ledger.machine.table.scanLimit →
          ledger.machine.table.bitmap.FreeRun first
              (framesFor size.toNat) →
            ledger.machine.Straddles first (framesFor size.toNat)
  · have refused := grantable.refused_of_straddles profile nonzero overlooked
    constructor
    · exact ⟨fun _ => overlooked, fun _ => ⟨_, refused⟩⟩
    · constructor
      · rintro ⟨address, later, granted⟩
        rw [refused] at granted
        cases granted
      · rintro ⟨first, inside, free, aside⟩
        exact absurd (overlooked first inside free) aside
  · push Not at overlooked
    rcases overlooked with ⟨first, inside, free, aside⟩
    rcases grantable.granted_of_aside profile nonzero inside free aside with
      ⟨address, later, granted⟩
    constructor
    · constructor
      · rintro ⟨other, refused⟩
        rw [granted] at refused
        cases refused
      · intro all
        exact absurd (all first inside free) aside
    · exact
        ⟨fun _ => ⟨first, inside, free, aside⟩,
          fun _ => ⟨address, later, granted⟩⟩

end Ledger

namespace Sample

/-- On the sample both sides of the criterion hold for two frames. -/
theorem split_run_allocate_iff :
    SoundMap gapMap ∧ DirectMap.Reaches ⟨offset⟩ gapMap ∧
      (8192 : UInt64) ≠ 0 ∧
        ∃ ledger, Ledger.Reachable .debug offset gapMap ledger ∧
          ((∃ later,
              ledger.machine.allocate .debug 8192 =
                .ok (.error (.outOfMemory 2)) later) ↔
            ∀ first,
              first + 2 ≤ ledger.machine.allocator.frameLimit →
                ledger.machine.table.bitmap.FreeRun first 2 →
                  ledger.machine.Straddles first 2) ∧
          ((∃ address later,
              ledger.machine.allocate .debug 8192 =
                .ok (.ok address) later) ↔
            ∃ first,
              first + 2 ≤ ledger.machine.allocator.frameLimit ∧
                ledger.machine.table.bitmap.FreeRun first 2 ∧
                  ¬ ledger.machine.Straddles first 2) := by
  rcases exists_split_run with ⟨ledger, state⟩
  have criterion :=
    Ledger.Reachable.allocate_iff gapMap_sound gapMap_reaches
      state.reachable (by decide : (8192 : UInt64) ≠ 0)
  rw [count_eq] at criterion
  exact
    ⟨gapMap_sound, gapMap_reaches, by decide, ledger, state.reachable,
      criterion⟩

/-- Requests are refused although a run is free. -/
theorem not_every_free_run_found :
    ¬ ∀ (profile : Profile) (offset : UInt64) (map : List Region)
        (ledger : Ledger) (size : UInt64),
      SoundMap map → DirectMap.Reaches ⟨offset⟩ map →
        Ledger.Reachable profile offset map ledger → size ≠ 0 →
          (∃ first,
            first + framesFor size.toNat ≤
                ledger.machine.allocator.frameLimit ∧
              ledger.machine.table.bitmap.FreeRun first
                (framesFor size.toNat)) →
            ∃ address later,
              ledger.machine.allocate profile size =
                .ok (.ok address) later := by
  intro complete
  rcases exists_overlooked with
    ⟨ledger, reachable, inside, free, later, refused⟩
  rcases complete .debug offset gapMap ledger 8192 gapMap_sound gapMap_reaches
    reachable (by decide) ⟨2, by rw [count_eq]; exact inside,
      by rw [count_eq]; exact free⟩ with
    ⟨address, other, granted⟩
  rw [refused] at granted
  cases granted

end Sample

end BootMemory
