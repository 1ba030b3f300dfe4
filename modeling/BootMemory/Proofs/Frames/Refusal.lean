import BootMemory.Proofs.Frames.Ensues
import BootMemory.Proofs.Frames.Interchange

/-!
# Refusals leave no trace

A request searches twice before it is refused, and both searches move the cursor.
Still a refusal changes nothing but the log: no bit has been marked by then, and
the cursor is put back.  The log is never read, so no later call can tell that
there was a request.

`Machine.Untouched` says both of a machine, that books and memory are the same and
that whatever is tried is answered alike, with a fault where one stops it.
`Ensues.refused_without_trace` proves it of every refusal, wherever calls lead
to, and a request for more pages than there are clear bits is always refused.
-/

namespace BootMemory

namespace Machine

variable {profile : Profile} {mapper : Mapper} {machine later other : Machine}

/-! ## The log is never read -/

theorem mirrors_onTable
    {Value : Type} (action : Action FrameTable Value) :
    Action.Mirrors Matches (onTable action) (onTable action) := by
  refine .focus (fun _ _ same => same.table_eq) ?_
  intro machine other same
  refine ⟨?_, ?_⟩
  · change Allocator.mk .. = Allocator.mk ..
    rw [same.books]
  · change
      machine.allocator.storage.store _ _ = other.allocator.storage.store _ _
    rw [same.books, same.memory, same.table_eq]

/-- Machines that differ in their log mirror each other in every call. -/
theorem Matches.reflects (profile : Profile) : Reflects Matches profile where
  books_eq same := same.books
  table_eq same := same.table_eq
  record event := .modify fun _ _ same => ⟨same.books, same.memory⟩
  claimRun count _ := mirrors_onTable (FrameTable.claimRun profile count)
  release first count :=
    mirrors_onTable (FrameTable.release profile first count)
  zeroFill address length := by
    unfold Machine.zeroFill
    refine .bind_get fun machine other same => ?_
    rw [same.books, same.memory]
    exact .bind_lift fun memory _ => .set ⟨rfl, rfl⟩
  addUsed pages := by
    unfold Machine.addUsed
    refine .bind_get fun machine other same => ?_
    rw [same.books]
    exact .bind_lift fun usedPages _ => .set ⟨rfl, same.memory⟩

/-- The same books and memory, and the same answers to whatever is tried. -/
structure Untouched
    (profile : Profile) (machine later : Machine) : Prop where
  same : later.Matches machine
  answers_eq : ∀ calls : List Call,
    (answerAll (attempt profile) calls later).1 =
      (answerAll (attempt profile) calls machine).1

theorem Matches.untouched
    (same : later.Matches machine) (profile : Profile) :
    machine.Untouched profile later :=
  ⟨same, fun calls => ((Matches.reflects profile).answerAll calls same).1⟩

/-! ## Which requests are refused -/

/-- A request that has claimed a run is granted, if no fault stops it. -/
theorem not_refused_of_claimed
    {size : UInt64} (nonzero : size ≠ 0) {first : Nat} {wrapped : Bool}
    {table : FrameTable}
    (claimed :
      FrameTable.claimRun profile (framesFor size.toNat) machine.table =
        .ok ⟨some first, wrapped⟩ table)
    (refusal : AllocError) :
    machine.allocate profile size ≠ .ok (.error refusal) later := by
  intro ran
  have searched :
      onTable (FrameTable.claimRun profile (framesFor size.toNat)) machine =
        .ok ⟨some first, wrapped⟩ (machine.withTable table) :=
    Action.focus_of_ok claimed
  unfold allocate at ran
  rw [if_neg nonzero] at ran
  dsimp only at ran
  rw [Action.bind_of_ok searched] at ran
  dsimp only at ran
  rw [bind_recordWrap] at ran
  rcases Action.exists_of_bind_lift_ok ran with ⟨length, -, afterSize⟩
  rcases Action.exists_of_bind_ok afterSize with ⟨⟨⟩, filled, -, afterFill⟩
  rcases Action.exists_of_bind_ok afterFill with ⟨⟨⟩, counted, -, reported⟩
  cases reported

/-- A free run below the end of memory has no more frames than are clear. -/
theorem le_card_clearFrames
    {first count : Nat}
    (inside : first + count ≤ machine.allocator.frameLimit)
    (free : machine.table.bitmap.FreeRun first count) :
    count ≤ machine.clearFrames.card := by
  have counted := Finset.card_le_card (ico_subset_clearFrames inside free)
  rw [Nat.card_Ico] at counted
  omega

/-- A request has claimed a run that is free, or changes nothing but the log. -/
theorem CursorBounded.request_cases
    (bounded : machine.CursorBounded) (profile : Profile) {size : UInt64}
    (nonzero : size ≠ 0) :
    (∃ first wrapped table,
      first + framesFor size.toNat ≤ machine.allocator.frameLimit ∧
        machine.table.bitmap.FreeRun first (framesFor size.toNat) ∧
          FrameTable.claimRun profile (framesFor size.toNat) machine.table =
            .ok ⟨some first, wrapped⟩ table) ∨
    machine.allocate profile size =
      .ok (.error (.outOfMemory (framesFor size.toNat)))
        (machine.refuse (framesFor size.toNat) size.toNat) := by
  have positive := framesFor_pos (toNat_pos_of_ne_zero nonzero)
  have ordered : machine.table.cursor ≤ machine.table.scanLimit :=
    bounded.cursor_le
  have limit := scanLimit_le machine
  rcases FrameTable.claimRun_outcome profile machine.table positive ordered
      bounded.bits_lt with
    ⟨first, found, claimed⟩ |
      ⟨-, ⟨first, found, claimed⟩ | ⟨-, missed⟩⟩
  · exact .inl
      ⟨first, false, _, Nat.le_trans found.le_stop limit, found.free, claimed⟩
  · have inside := Nat.le_trans found.le_stop ordered
    exact .inl
      ⟨first, true, _, Nat.le_trans inside limit, found.free, claimed⟩
  · exact .inr (allocate_of_missed nonzero missed)

/--
Wherever calls lead to after a successful set-up, a refusal names the pages that
were asked for and leaves no trace, and every request for more pages than there
are clear bits below the end of memory is refused.
-/
theorem Ensues.refused_without_trace
    (ensues : Ensues profile mapper machine) {size : UInt64}
    (nonzero : size ≠ 0) :
    (∀ (refusal : AllocError) (later : Machine),
      machine.allocate profile size = .ok (.error refusal) later →
        refusal = .outOfMemory (framesFor size.toNat) ∧
          machine.Untouched profile later) ∧
    (∀ frame ∈ machine.clearFrames,
      frame < machine.allocator.storage.bits) ∧
    (machine.clearFrames.card < framesFor size.toNat →
      ∃ later,
        machine.allocate profile size =
          .ok (.error (.outOfMemory (framesFor size.toNat))) later) := by
  have covers := ensues.framesCovered
  have outcome := covers.bounded.request_cases profile nonzero
  refine ⟨?_, ?_, ?_⟩
  · intro refusal later ran
    rcases outcome with ⟨first, wrapped, table, -, -, claimed⟩ | refused
    · exact absurd ran (not_refused_of_claimed nonzero claimed refusal)
    · rw [refused] at ran
      cases ran
      have same :
          (machine.refuse (framesFor size.toNat) size.toNat).Matches machine :=
        ⟨rfl, rfl⟩
      exact ⟨rfl, same.untouched profile⟩
  · intro frame clear
    exact Nat.lt_of_lt_of_le (mem_clearFrames.mp clear).1 covers.covered
  · intro scarce
    rcases outcome with ⟨first, wrapped, table, inside, free, -⟩ | refused
    · have enough := le_card_clearFrames inside free
      omega
    · exact ⟨_, refused⟩

end Machine

namespace Sample

/--
On the sample, with the cursor inside a free run, the largest request there can
be is refused.
-/
theorem split_run_refused_without_trace :
    ∃ machine, Machine.Ensues .debug (.direct ⟨offset⟩) machine ∧
      (18446744073709551615 : UInt64) ≠ 0 ∧
        machine.clearFrames.card < frameCount ∧
          ∃ later,
            machine.allocate .debug 18446744073709551615 =
                .ok (.error (.outOfMemory frameCount)) later ∧
              machine.Untouched .debug later := by
  rcases exists_split_run with ⟨ledger, state⟩
  have arises := Machine.Arises.of_reachable state.reachable
  have count :
      framesFor (18446744073709551615 : UInt64).toNat = frameCount := by
    decide
  rcases Machine.Ensues.refused_without_trace (.of_arises arises)
    (by decide : (18446744073709551615 : UInt64) ≠ 0) with
    ⟨traceless, -, scarce⟩
  rw [count] at traceless scarce
  have few : ledger.machine.clearFrames.card ≤ 6 := by
    rw [← state.limit, ← Finset.card_range ledger.machine.allocator.frameLimit]
    exact Finset.card_filter_le _ _
  have fewer := Nat.lt_of_le_of_lt few (by decide : 6 < frameCount)
  rcases scarce fewer with ⟨later, refused⟩
  exact
    ⟨ledger.machine, .of_arises arises, by decide, fewer, later, refused,
      (traceless _ later refused).2⟩

end Sample

end BootMemory
