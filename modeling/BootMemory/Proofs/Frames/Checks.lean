import BootMemory.Proofs.Frames.Completeness
import BootMemory.Proofs.Frames.Ensues

/-!
# What the debug profile checks

Before a release changes anything the debug profile makes three checks, in order:
the frames lie inside the bitmap, frame zero is not the first of them, and none
of them is free.  `FrameTable.Stops` names the fault of the first check that
fails, and `Machine.CursorBounded.outcome_free_iff` says that no other fault
stops a release.

`Machine.Frees` is the whole account of a release: which fault stops it, that
nothing has changed then, and what is left behind if it returns.
`Ensues.frees_exactly` proves it wherever calls lead to.
-/

namespace BootMemory

namespace FrameTable

variable {table : FrameTable} {first stop : Nat}

/-! ## Each check by its fault -/

theorem stops_beyond_iff :
    table.Stops first stop
        (.releaseBeyondBitmap first stop table.bitmap.bits) ↔
      table.bitmap.bits < stop := by
  constructor
  · rintro ⟨outside⟩
    exact outside
  · exact .beyond

theorem stops_frameZero_iff :
    table.Stops first stop .releaseFrameZero ↔
      stop ≤ table.bitmap.bits ∧ first = 0 := by
  constructor
  · rintro ⟨⟩
    exact ⟨‹_›, ‹_›⟩
  · rintro ⟨inside, zero⟩
    exact .frameZero inside zero

theorem stops_unallocated_iff :
    table.Stops first stop (.releaseUnallocated first stop) ↔
      stop ≤ table.bitmap.bits ∧ first ≠ 0 ∧
        ∃ frame, first ≤ frame ∧ frame < stop ∧
          table.bitmap.bit frame = false := by
  constructor
  · rintro ⟨⟩
    exact ⟨‹_›, ‹_›, ‹_›⟩
  · rintro ⟨inside, nonzero, clear⟩
    exact .unallocated inside nonzero clear

/-- One check is the first that fails. -/
theorem Stops.unique
    {fault other : Fault} (stops : table.Stops first stop fault)
    (others : table.Stops first stop other) : other = fault := by
  cases stops with
  | beyond outside =>
      cases others with
      | beyond => rfl
      | frameZero inside => omega
      | unallocated inside => omega
  | frameZero inside zero =>
      cases others with
      | beyond outside => omega
      | frameZero => rfl
      | unallocated _ nonzero => exact absurd zero nonzero
  | unallocated inside nonzero =>
      cases others with
      | beyond outside => omega
      | frameZero _ zero => exact absurd zero nonzero
      | unallocated => rfl

/-- Frames that can be given back pass all checks. -/
theorem Releasable.not_stops
    {count : Nat} {fault : Fault} (releasable : table.Releasable first count) :
    ¬ table.Stops first (runStop first count) fault := by
  rintro (outside | ⟨-, zero⟩ | ⟨-, -, frame, lower, upper, clear⟩)
  · exact absurd releasable.inside (Nat.not_le_of_lt outside)
  · exact releasable.nonzero zero
  · rw [releasable.held frame lower upper] at clear
    cases clear

/-- All frames that can be given back are in use, and all of them are counted. -/
theorem Releasable.card_released
    {count : Nat} (releasable : table.Releasable first count)
    (small : first + count < wordCount) :
    (table.released first count).card = count := by
  have stop : runStop first count = first + count := by
    unfold runStop
    omega
  have all : table.released first count = Finset.Ico first (first + count) := by
    ext frame
    have nonzero := releasable.nonzero
    rw [mem_released, names_iff small, Finset.mem_Ico]
    constructor
    · rintro ⟨⟨-, lower, upper⟩, -⟩
      exact ⟨lower, upper⟩
    · rintro ⟨lower, upper⟩
      exact
        ⟨⟨by omega, lower, upper⟩,
          releasable.held frame lower (by omega)⟩
  rw [all, Nat.card_Ico, Nat.add_sub_cancel_left]

end FrameTable

namespace Machine

variable {mapper : Mapper} {machine : Machine}
  {address : PhysicalAddress} {size : UInt64}

/-! ## A release in the debug profile -/

/-- A release passes all checks and returns, or stops at one of them. -/
theorem CursorBounded.free_debug_cases
    (bounded : machine.CursorBounded) (named : address ≠ Address.null)
    (nonzero : size ≠ 0) :
    (machine.table.Releasable address.frame (framesFor size.toNat) ∧
      machine.free .debug address size =
        .ok () (machine.takeBack address (framesFor size.toNat))) ∨
    ∃ fault,
      machine.table.Stops address.frame
          (address.frame + framesFor size.toNat) fault ∧
        machine.free .debug address size = .error fault machine := by
  by_cases releasable :
      machine.table.Releasable address.frame (framesFor size.toNat)
  · exact .inl
      ⟨releasable,
        (free_ok_iff named nonzero bounded.bits_lt).mpr ⟨.inr releasable, rfl⟩⟩
  · rcases FrameTable.exists_stops releasable with ⟨fault, stops⟩
    have asserted :=
      FrameTable.assertReleasable_debug_of_stops address.frame_lt_wordCount
        stops
    rw [runStop_eq] at stops
    exact .inr ⟨fault, stops, free_of_assert_error named nonzero asserted⟩

/-- The fault that stops a release is that of the first check that fails. -/
theorem CursorBounded.outcome_free_iff
    (bounded : machine.CursorBounded) (named : address ≠ Address.null)
    (nonzero : size ≠ 0) (fault : Fault) :
    Action.outcome (machine.free .debug address size) = .error fault ↔
      machine.table.Stops address.frame
        (address.frame + framesFor size.toNat) fault := by
  rcases bounded.free_debug_cases named nonzero with
    ⟨releasable, returned⟩ | ⟨met, stops, stopped⟩
  · have passes := @FrameTable.Releasable.not_stops _ _ _ fault releasable
    rw [runStop_eq] at passes
    rw [returned]
    exact iff_of_false nofun passes
  · rw [stopped]
    constructor
    · rintro ⟨⟩
      exact stops
    · intro others
      rw [stops.unique others]
      rfl

/-- What a release that returns leaves behind. -/
structure Freed (machine later : Machine) (first count : Nat) : Prop where
  bit_eq : ∀ frame,
    later.table.bitmap.bit frame =
      if first ≤ frame ∧ frame < first + count then
        false
      else
        machine.table.bitmap.bit frame
  books_eq :
    later.allocator =
      { machine.allocator with
        usedPages := machine.allocator.usedPages - count
        cursor := min machine.allocator.cursor first }

/--
A release of `count` frames from `first` on, in the debug profile: which fault
stops it, and what it leaves behind either way.
-/
structure Frees
    (machine : Machine) (first count : Nat)
    (result : EStateM.Result Fault Machine Unit) : Prop where
  beyond_iff :
    Action.outcome result =
        .error
          (.releaseBeyondBitmap first (first + count)
            machine.table.bitmap.bits) ↔
      machine.table.bitmap.bits < first + count
  frameZero_iff :
    Action.outcome result = .error .releaseFrameZero ↔
      first + count ≤ machine.table.bitmap.bits ∧ first = 0
  unallocated_iff :
    Action.outcome result =
        .error (.releaseUnallocated first (first + count)) ↔
      first + count ≤ machine.table.bitmap.bits ∧ first ≠ 0 ∧
        ∃ frame, first ≤ frame ∧ frame < first + count ∧
          machine.table.bitmap.bit frame = false
  stopped : ∀ fault, Action.outcome result = .error fault →
    Action.state result = machine ∧
      (fault =
          .releaseBeyondBitmap first (first + count)
            machine.table.bitmap.bits ∨
        fault = .releaseFrameZero ∨
          fault = .releaseUnallocated first (first + count))
  returned : Action.outcome result = .ok () →
    machine.Freed (Action.state result) first count

/-- Frames that pass the checks are cleared, and leave the used pages. -/
theorem CursorBounded.freed_takeBack
    (bounded : machine.CursorBounded)
    (releasable :
      machine.table.Releasable address.frame (framesFor size.toNat)) :
    machine.Freed (machine.takeBack address (framesFor size.toNat))
      address.frame (framesFor size.toNat) := by
  have small : address.frame + framesFor size.toNat < wordCount := by
    have inside := releasable.inside
    rw [runStop_eq, bits_table] at inside
    exact Nat.lt_of_le_of_lt inside bounded.bits_lt
  have nonzero := releasable.nonzero
  constructor
  · intro frame
    have named : FrameTable.Names address.frame (framesFor size.toNat) frame ↔
        address.frame ≤ frame ∧
          frame < address.frame + framesFor size.toNat := by
      rw [FrameTable.names_iff small]
      omega
    rw [table_takeBack bounded.length_le, FrameTable.bit_giveBack,
      if_congr named rfl rfl]
  · have counted := releasable.card_released small
    have pages :
        (machine.takeBack address (framesFor size.toNat)).allocator.usedPages =
          machine.allocator.usedPages - framesFor size.toNat := by
      rw [usedPages_takeBack, counted]
    have cursor :
        (machine.takeBack address (framesFor size.toNat)).allocator.cursor =
          min machine.allocator.cursor address.frame := by
      rw [cursor_takeBack]
      split <;> omega
    rw [← pages, ← cursor]
    rfl

/--
Wherever calls lead to after a successful set-up, a release in the debug profile
is ignored, or stopped by the first check that fails, or takes all of the frames
back.
-/
theorem Ensues.frees_exactly
    (ensues : Ensues .debug mapper machine) (address : PhysicalAddress)
    (size : UInt64) :
    (address = Address.null ∨ size = 0 →
      machine.free .debug address size = .ok () machine) ∧
    (address ≠ Address.null → size ≠ 0 →
      machine.Frees address.frame (framesFor size.toNat)
        (machine.free .debug address size)) := by
  have bounded := ensues.framesCovered.bounded
  refine ⟨free_ignored .debug machine, ?_⟩
  intro named nonzero
  have outcome := bounded.outcome_free_iff named nonzero
  refine
    { beyond_iff := (outcome _).trans FrameTable.stops_beyond_iff
      frameZero_iff := (outcome _).trans FrameTable.stops_frameZero_iff
      unallocated_iff := (outcome _).trans FrameTable.stops_unallocated_iff
      stopped := ?_
      returned := ?_ }
  · intro fault met
    rcases bounded.free_debug_cases named nonzero with
      ⟨-, returned⟩ | ⟨other, stops, stopped⟩
    · rw [returned] at met
      cases met
    · rw [stopped] at met ⊢
      cases met
      refine ⟨rfl, ?_⟩
      cases stops with
      | beyond outside => exact .inl rfl
      | frameZero inside zero => exact .inr (.inl rfl)
      | unallocated inside nonzero clear => exact .inr (.inr rfl)
  · intro done
    rcases bounded.free_debug_cases named nonzero with
      ⟨releasable, returned⟩ | ⟨other, stops, stopped⟩
    · rw [returned]
      exact bounded.freed_takeBack releasable
    · rw [stopped] at done
      cases done

end Machine

namespace Sample

/--
On the sample, with frames 4 and 5 in use and frame 3 free, every check stops one
release and another release returns.
-/
theorem split_run_frees_exactly :
    ∃ machine, Machine.Ensues .debug (.direct ⟨offset⟩) machine ∧
      Action.outcome (machine.free .debug ⟨134213632⟩ 8192) =
          .error (.releaseBeyondBitmap 32767 32769 32768) ∧
        Action.outcome (machine.free .debug ⟨1⟩ 4096) =
            .error .releaseFrameZero ∧
          Action.outcome (machine.free .debug ⟨12288⟩ 8192) =
              .error (.releaseUnallocated 3 5) ∧
            ∃ later,
              machine.free .debug ⟨16384⟩ 8192 = .ok () later ∧
                machine.Freed later 4 2 := by
  rcases exists_split_run with ⟨ledger, state⟩
  have ensues : Machine.Ensues .debug (.direct ⟨offset⟩) ledger.machine :=
    .of_arises (.of_reachable state.reachable)
  have bits : ledger.machine.table.bitmap.bits = 32768 := state.bits
  have one : framesFor (4096 : UInt64).toNat = 1 := by decide
  have frees (first count : Nat) (address : PhysicalAddress) (size : UInt64)
      (frame : address.frame = first) (frames : framesFor size.toNat = count)
      (named : address ≠ Address.null) (nonzero : size ≠ 0) :
      ledger.machine.Frees first count
        (ledger.machine.free .debug address size) := by
    rw [← frame, ← frames]
    exact (Machine.Ensues.frees_exactly ensues address size).2 named nonzero
  have beyond :=
    frees 32767 2 ⟨134213632⟩ 8192 (by decide) count_eq (by decide) (by decide)
  have zero := frees 0 1 ⟨1⟩ 4096 (by decide) one (by decide) (by decide)
  have free :=
    frees 3 2 ⟨12288⟩ 8192 (by decide) count_eq (by decide) (by decide)
  have held :=
    frees 4 2 ⟨16384⟩ 8192 (by decide) count_eq (by decide) (by decide)
  refine ⟨ledger.machine, ensues, ?_, ?_, ?_, ?_⟩
  · rw [← bits]
    exact beyond.beyond_iff.mpr (by omega)
  · exact zero.frameZero_iff.mpr ⟨by omega, rfl⟩
  · refine free.unallocated_iff.mpr ⟨by omega, by decide, 3, ?_⟩
    have clear := (state.split_clear_iff (by omega)).mpr (.inr rfl)
    exact ⟨by omega, by omega, clear⟩
  · have used : ∀ frame, 4 ≤ frame → frame < 4 + 2 →
        ledger.machine.table.bitmap.bit frame ≠ false := by
      intro frame lower upper clear
      have low := (state.split_clear_iff (by omega)).mp clear
      omega
    cases ran : ledger.machine.free .debug ⟨16384⟩ 8192 with
    | ok done later =>
        rw [ran] at held
        exact ⟨later, rfl, held.returned rfl⟩
    | error fault later =>
        rw [ran] at held
        rcases held.stopped fault rfl with ⟨-, rfl | rfl | rfl⟩
        · have outside := held.beyond_iff.mp rfl
          omega
        · have zero := (held.frameZero_iff.mp rfl).2
          omega
        · rcases (held.unallocated_iff.mp rfl).2.2 with
            ⟨frame, lower, upper, clear⟩
          exact absurd clear (used frame lower upper)

end Sample

end BootMemory
