import BootMemory.Proofs.Frames.Exposure
import BootMemory.Proofs.Frames.Faultless

/-!
# Memory that is known by its accessible address

Who asks for accessible memory never learns its physical address, and gives it
back by the address that was handed out.  The block is found again only because
a direct map lowers what it raised, on every address that can be granted.

`Ledger.AccessStep` is one call that keeps to the contract, with either kind of
address.  Seen from the account it is a `Ledger.Step`, and so the invariant holds
along every `Ledger.AccessRun`.  `Ledger.AccessRun.freeAccessible_undoes` follows
one block from its request to any later point of such a run.
-/

namespace BootMemory

namespace Machine

variable {profile : Profile} {machine : Machine} {offset : UInt64}
  {address : PhysicalAddress} {accessible : VirtualAddress}

/-- Frames of memory, and the null address, are found behind what was raised. -/
theorem Placed.lowered_of_raised
    (placed : machine.Placed offset)
    (inside :
      address = Address.null ∨
        address.frame < machine.allocator.frameLimit)
    (raised : machine.toAccessible profile address = .ok accessible) :
    machine.fromAccessible profile accessible = .ok address ∧
      accessible.value.toNat = offset.toNat + address.value.toNat := by
  have low := placed.frames_le
  have high := placed.reach_le
  have bound := offset.toNat_lt
  rw [toAccessible, placed.mapper_eq] at raised
  rw [fromAccessible, placed.mapper_eq]
  simp only [frameSize] at low high
  have below :
      address.value.toNat = 0 ∨ address.value.toNat < offset.toNat ∧
        address.value.toNat + offset.toNat < wordCount := by
    rcases inside with rfl | inside
    · exact .inl rfl
    · simp only [Address.frame, frameSize] at inside
      omega
  apply DirectMap.toPhysical_of_toVirtual profile ?_ ?_ raised
  · unfold DirectMap.HasRoom
    dsimp only
    simp only [wordCount] at below ⊢
    omega
  · dsimp only
    omega

end Machine

namespace Ledger

variable {profile : Profile} {offset : UInt64} {map : List Region}
  {start before after ledger : Ledger} {machine : Machine}
  {size : UInt64} {address : PhysicalAddress}
  {accessible : VirtualAddress}

/-! ## Calls with either kind of address -/

/-- What giving back memory leaves of the account. -/
inductive Returns (map : List Region) (ledger : Ledger) :
    PhysicalAddress → UInt64 → List Block → Finset Nat → Prop where
  | ignored {address : PhysicalAddress} {size : UInt64}
      (nothing : address = Address.null ∨ size = 0) :
      Returns map ledger address size ledger.live ledger.released
  | live {block : Block} {size : UInt64}
      (member : block ∈ ledger.live)
      (same : framesFor size.toNat = block.count) :
      Returns map ledger block.address size (ledger.live.erase block)
        ledger.released
  | occupied {block : Block}
      (named : block.address ≠ Address.null) (nonzero : block.size ≠ 0)
      (whole : ∀ frame ∈ block.frames,
        Region.OccupiedFrame map frame ∧ frame ∉ ledger.released) :
      Returns map ledger block.address block.size ledger.live
        (ledger.released ∪ block.frames)

/--
One call that keeps to the contract.  Accessible memory is live at the address
that the request claimed, and it is given back by the translation of that.
-/
inductive AccessStep (profile : Profile) (map : List Region) :
    Ledger → Ledger → Prop where
  | plain {before after : Ledger} (taken : Step profile map before after) :
      AccessStep profile map before after
  | exposed {ledger : Ledger} {machine claimed : Machine} {size : UInt64}
      {address : PhysicalAddress} {accessible : VirtualAddress}
      (served :
        ledger.machine.allocate profile size = .ok (.ok address) claimed)
      (ran :
        ledger.machine.allocateAccessible profile size =
          .ok (.ok accessible) machine) :
      AccessStep profile map ledger
        { ledger with machine, live := ⟨address, size⟩ :: ledger.live }
  | refused {ledger : Ledger} {machine : Machine} {size : UInt64}
      {refusal : AllocError}
      (ran :
        ledger.machine.allocateAccessible profile size =
          .ok (.error refusal) machine) :
      AccessStep profile map ledger { ledger with machine }
  | returned {ledger : Ledger} {machine : Machine} {size : UInt64}
      {address : PhysicalAddress} {accessible : VirtualAddress}
      {live : List Block} {released : Finset Nat}
      (returns : ledger.Returns map address size live released)
      (raised : ledger.machine.toAccessible profile address = .ok accessible)
      (ran :
        ledger.machine.freeAccessible profile accessible size =
          .ok () machine) :
      AccessStep profile map ledger ⟨machine, live, released⟩

/-- Any number of such calls. -/
def AccessRun (profile : Profile) (map : List Region) :
    Ledger → Ledger → Prop :=
  Relation.ReflTransGen (AccessStep profile map)

/-- Memory that is given back by its physical address. -/
theorem Returns.step
    {live : List Block} {released : Finset Nat}
    (returns : ledger.Returns map address size live released)
    (ran : ledger.machine.free profile address size = .ok () machine) :
    Step profile map ledger ⟨machine, live, released⟩ := by
  cases returns with
  | ignored nothing => exact .ignored nothing ran
  | live member same => exact .freed member same ran
  | occupied named nonzero whole => exact .handedBack named nonzero whole ran

namespace BitsAccounted

/-- A block that may be given back starts in memory. -/
theorem returns_inside
    {live : List Block} {released : Finset Nat}
    (account : ledger.BitsAccounted offset map) (mapSound : SoundMap map)
    (returns : ledger.Returns map address size live released) :
    size = 0 ∨ address = Address.null ∨
      address.frame < ledger.machine.allocator.frameLimit := by
  cases returns with
  | ignored nothing => exact nothing.symm.imp_right .inl
  | @live block size member same =>
      refine .inr (.inr (account.frame_lt_limit mapSound ?_))
      apply account.lent block member
      rw [Block.mem_frames]
      have positive := account.positive block member
      omega
  | @occupied block named nonzero whole =>
      have positive := framesFor_pos (Machine.toNat_pos_of_ne_zero nonzero)
      have first : block.address.frame ∈ block.frames := by
        rw [Block.mem_frames, Block.count]
        omega
      rcases whole _ first with ⟨occupied, kept⟩
      exact .inr (.inr (account.held_of_occupied mapSound occupied kept).1)

/-- A release that keeps to the contract may name either kind of address. -/
theorem freeAccessible_of_returns
    {live : List Block} {released : Finset Nat}
    (account : ledger.BitsAccounted offset map) (mapSound : SoundMap map)
    (returns : ledger.Returns map address size live released)
    (raised : ledger.machine.toAccessible profile address = .ok accessible) :
    ledger.machine.freeAccessible profile accessible size =
      ledger.machine.free profile address size := by
  have placed := account.fits.placed
  rcases account.returns_inside mapSound returns with zero | inside
  · -- A size of zero is ignored, whatever address is behind the one given.
    rcases DirectMap.exists_toPhysical profile ⟨offset⟩ accessible with
      ⟨physical, lowered, -⟩
    rw [Machine.freeAccessible_of_lowered
      (by rw [Machine.fromAccessible, placed.mapper_eq]; exact lowered) size]
    rw [zero, Machine.free_ignored _ _ (.inr rfl),
      Machine.free_ignored _ _ (.inr rfl)]
  · rcases placed.lowered_of_raised inside raised with ⟨lowered, -⟩
    exact Machine.freeAccessible_of_lowered lowered size

/-- Exposed memory was granted by a plain request. -/
theorem granted_of_exposed
    (account : ledger.BitsAccounted offset map) (mapSound : SoundMap map)
    (nonzero : size ≠ 0)
    (ran :
      ledger.machine.allocateAccessible profile size =
        .ok (.ok accessible) machine) :
    ∃ address,
      ledger.machine.allocate profile size = .ok (.ok address) machine ∧
        machine.toAccessible profile address = .ok accessible := by
  rcases (account.runsGrantable mapSound).answers profile size with
    ⟨result, later, served⟩
  cases result with
  | ok address =>
      rcases account.allocateAccessible_of_granted mapSound nonzero served with
        ⟨exposed, raised, given⟩
      rw [ran] at given
      cases given
      exact ⟨address, served, raised⟩
  | error refusal =>
      rw [Machine.allocateAccessible_of_refused served] at ran
      cases ran

/-- A request that exposes nothing was not granted by a plain request. -/
theorem unserved_of_refused
    {refusal : AllocError}
    (account : ledger.BitsAccounted offset map) (mapSound : SoundMap map)
    (ran :
      ledger.machine.allocateAccessible profile size =
        .ok (.error refusal) machine) :
    Step profile map ledger { ledger with machine } := by
  by_cases zero : size = 0
  · rw [zero, Machine.allocateAccessible_zero] at ran
    cases ran
    exact .unserved (.inl rfl) (Machine.allocate_zero profile ledger.machine)
  · rcases (account.runsGrantable mapSound).answers profile size with
      ⟨result, later, served⟩
    cases result with
    | ok address =>
        rcases account.allocateAccessible_of_granted mapSound zero served with
          ⟨exposed, -, given⟩
        rw [ran] at given
        cases given
    | error reason =>
        have given := Machine.allocateAccessible_of_refused served
        rw [ran] at given
        cases given
        exact .unserved (.inr ⟨_, rfl⟩) served

/-- Seen from the account, every such call is one with a physical address. -/
theorem accessStep
    (account : before.BitsAccounted offset map) (mapSound : SoundMap map)
    (taken : AccessStep profile map before after) :
    Step profile map before after := by
  cases taken with
  | plain taken => exact taken
  | @exposed machine claimed size address accessible served ran =>
      have nonzero : size ≠ 0 := by
        rintro rfl
        rw [Machine.allocateAccessible_zero] at ran
        cases ran
      rcases account.granted_of_exposed mapSound nonzero ran with
        ⟨granted, given, -⟩
      rw [served] at given
      cases given
      exact .granted nonzero served
  | refused ran => exact account.unserved_of_refused mapSound ran
  | returned returns raised ran =>
      rw [account.freeAccessible_of_returns mapSound returns raised] at ran
      exact returns.step ran

end BitsAccounted

/-- So is every run of such calls. -/
theorem AccessRun.run
    (mapSound : SoundMap map) (account : start.BitsAccounted offset map)
    (run : AccessRun profile map start ledger) :
    Run profile map start ledger := by
  induction run with
  | refl => exact .refl
  | tail _ taken inductionHypothesis =>
      have reached := (inductionHypothesis.accounted mapSound account).1
      exact inductionHypothesis.tail (reached.accessStep mapSound taken)

/-- A block that was just granted can be given back without a trace. -/
theorem BitsAccounted.undo
    (account : ledger.BitsAccounted offset map) (mapSound : SoundMap map)
    (reaches : DirectMap.Reaches ⟨offset⟩ map) (nonzero : size ≠ 0)
    (served :
      ledger.machine.allocate profile size = .ok (.ok address) machine) :
    ∃ freed,
      machine.free profile address size = .ok () freed ∧
        freed.table.bitmap = ledger.machine.table.bitmap ∧
          freed.allocator.usedPages = ledger.machine.allocator.usedPages := by
  have twins := account.twin_self mapSound reaches profile
  have separates := reaches.separates mapSound profile
  rcases twins.request mapSound separates nonzero with
    ⟨first, reached, wrapped, grants⟩ | ⟨refused, -⟩
  · rw [grants.ran] at served
    cases served
    rcases twins.undo mapSound separates nonzero grants with
      ⟨freed, ran, reverts⟩
    rcases reverts.books_eq with ⟨cursor, books⟩
    exact ⟨freed, ran, reverts.bitmap_eq, by rw [books]⟩
  · rw [refused] at served
    cases served

/--
An accessible address stands for the block that was claimed with it, at any
later point of a run: giving it back is giving back the block.  Right after the
request that restores the bitmap and the page count.
-/
theorem AccessRun.freeAccessible_undoes
    (mapSound : SoundMap map) (reaches : DirectMap.Reaches ⟨offset⟩ map)
    (opening : Opening profile offset map start)
    (run : AccessRun profile map start ledger)
    (nonzero : size ≠ 0)
    (ran :
      ledger.machine.allocateAccessible profile size =
        .ok (.ok accessible) machine) :
    ∃ address : PhysicalAddress,
      ledger.machine.allocate profile size = .ok (.ok address) machine ∧
        address.value.toNat = address.frame * frameSize ∧
        accessible.value.toNat =
          offset.toNat + address.value.toNat ∧
        (∀ later : Ledger,
          AccessRun profile map
              { ledger with
                machine
                live := ⟨address, size⟩ :: ledger.live }
              later →
            later.machine.fromAccessible profile accessible = .ok address ∧
              later.machine.freeAccessible profile accessible size =
                later.machine.free profile address size ∧
              (⟨address, size⟩ ∈ later.live →
                ∃ freed,
                  later.machine.freeAccessible profile accessible size =
                    .ok () freed)) ∧
        ∃ freed,
          machine.freeAccessible profile accessible size = .ok () freed ∧
            freed.table.bitmap = ledger.machine.table.bitmap ∧
            freed.allocator.usedPages =
              ledger.machine.allocator.usedPages := by
  have opened := opening.accounted mapSound reaches
  have account := ((run.run mapSound opened).accounted mapSound opened).1
  rcases account.granted_of_exposed mapSound nonzero ran with
    ⟨address, served, raised⟩
  have granted := account.granted mapSound nonzero served
  have member : ⟨address, size⟩ ∈ Block.mk address size :: ledger.live :=
    List.mem_cons_self ..
  have inside :=
    granted.returns_inside mapSound (Returns.live member rfl)
  rcases
    granted.fits.placed.lowered_of_raised
      (inside.resolve_left nonzero) raised with
    ⟨lowered, value⟩
  have undone := account.undo mapSound reaches nonzero served
  rw [← Machine.freeAccessible_of_lowered lowered size] at undone
  refine
    ⟨address, served, granted.aligned _ member, value, ?_, undone⟩
  intro later follows
  have reached :=
    ((follows.run mapSound granted).accounted mapSound granted).1
  -- No call changes the mapper, so the address leads to the same place.
  have kept :
      later.machine.fromAccessible profile accessible = .ok address := by
    rw [Machine.fromAccessible, granted.fits.placed.mapper_eq] at lowered
    rw [Machine.fromAccessible, reached.fits.placed.mapper_eq]
    exact lowered
  have same := Machine.freeAccessible_of_lowered kept size
  refine ⟨kept, same, ?_⟩
  intro live
  rw [same]
  exact ⟨_, reached.free_live mapSound profile live rfl⟩

end Ledger

namespace Sample

/-- With frames 4 and 5 lent, the search wraps around and grants frame 2. -/
theorem gap_grants_frame_two
    {ledger : Ledger}
    (state : GapState ledger 6 [⟨Address.ofFrame 4, 8192⟩] ∅) :
    ∃ machine,
      ledger.machine.allocate .debug 4096 =
        .ok (.ok (Address.ofFrame 2)) machine := by
  have one : framesFor (4096 : UInt64).toNat = 1 := by decide
  have nonzero : (4096 : UInt64) ≠ 0 := by decide
  have four : (Address.ofFrame 4).frame = 4 := by decide
  have two : (Block.mk (Address.ofFrame 4) 8192).count = 2 := by decide
  have scan := state.accounted.fits.scanLimit_eq
  have clear : ∀ frame, frame < 6 →
      (ledger.machine.table.bitmap.bit frame = false ↔ frame = 2) := by
    intro frame below
    rw [state.clear_iff below]
    simp only [List.mem_singleton, forall_eq, Block.mem_frames, four, two,
      Finset.notMem_empty, or_false]
    omega
  have free : ledger.machine.table.bitmap.FreeRun 2 1 := by
    intro frame lower upper
    rw [clear frame (by omega)]
    omega
  rw [state.limit] at scan
  rcases
    (state.accounted.runsGrantable gapMap_sound).granted_of_aside .debug nonzero
      (by rw [one, scan]; omega : 2 + _ ≤ _) (by rw [one]; exact free)
      (by rw [one, Machine.Straddles, state.cursor_eq]; omega) with
    ⟨address, machine, served⟩
  rcases state.accounted.granted_run gapMap_sound nonzero served with
    ⟨first, wrapped, rfl, -, inside, unused⟩
  rw [one] at inside unused
  rw [state.limit] at inside
  have only :=
    (clear first (by omega)).mp (unused first (Nat.le_refl _) (by omega))
  rw [only] at served
  exact ⟨machine, served⟩

/-- Frame 2 is asked for and given back by its accessible address. -/
theorem gap_freeAccessible_undoes :
    SoundMap gapMap ∧ DirectMap.Reaches ⟨offset⟩ gapMap ∧
      ∃ start ledger, Ledger.Opening .debug offset gapMap start ∧
        Ledger.AccessRun .debug gapMap start ledger ∧
          ∃ machine freed,
            ledger.machine.allocateAccessible .debug 4096 =
                .ok (.ok ⟨offset + 8192⟩) machine ∧
              machine.freeAccessible .debug ⟨offset + 8192⟩ 4096 =
                  .ok () freed ∧
                freed.table.bitmap = ledger.machine.table.bitmap ∧
                  freed.allocator.usedPages =
                    ledger.machine.allocator.usedPages := by
  have nonzero : (4096 : UInt64) ≠ 0 := by decide
  rcases exists_granted with ⟨ledger, state⟩
  rcases state.reachable.exists_opening with ⟨start, opening, plain⟩
  have run : Ledger.AccessRun .debug gapMap start ledger :=
    Relation.ReflTransGen.mono (fun _ _ => .plain) _ _ plain
  rcases gap_grants_frame_two state with ⟨machine, served⟩
  rcases
    state.accounted.allocateAccessible_of_granted gapMap_sound nonzero
      served with
    ⟨accessible, -, ran⟩
  rcases
    Ledger.AccessRun.freeAccessible_undoes gapMap_sound gapMap_reaches
      opening run nonzero ran with
    ⟨address, same, -, value, -, freed, undone⟩
  rw [served] at same
  cases same
  have place : accessible = ⟨offset + 8192⟩ := by
    apply Address.eq_of_toNat_eq
    rw [value]
    decide
  rw [place] at ran undone
  exact
    ⟨gapMap_sound, gapMap_reaches, start, ledger, opening, run, machine,
      freed, ran, undone⟩

end Sample

end BootMemory
