import BootMemory.Proofs.Frames.Ledger
import BootMemory.Proofs.Frames.Requests

/-!
# Wherever calls lead

`Machine.Arises` holds of every machine that calls can lead to after a successful
set-up.  Nothing is asked of the memory map, of the mapper, or of the callers:
blocks may be given back that were never handed out, and memory may be
overwritten at any time, the bitmap not excepted.

Little can be said of all of them.  `Machine.CursorBounded` is what
`Arises.cursorBounded` proves: the cursor stands no further than a search goes,
because a search stops at its limit and a release only moves the cursor back, and
the length of the bitmap is one that a word can count.
-/

namespace BootMemory

/-! ## The cursor stays below the end of memory -/

namespace FrameTable

variable {profile : Profile} {table later : FrameTable}

/-- A search does not stop beyond its limit. -/
theorem search_stop_le
    {bitmap : Bitmap} {count cursor remaining run stop : Nat}
    {found : Option Nat} (small : cursor + remaining < wordCount)
    (searched :
      search profile bitmap count cursor remaining run = .ok (found, stop)) :
    stop ≤ cursor + remaining := by
  induction remaining generalizing cursor run with
  | zero =>
      cases searched
      exact Nat.le_refl _
  | succ remaining inductionHypothesis =>
      have advanced : profile.add cursor 1 = .ok (cursor + 1) :=
        profile.add_of_lt (by omega)
      have shifted : cursor + 1 + remaining = cursor + (remaining + 1) := by
        omega
      have rest := @inductionHypothesis (cursor + 1)
      rw [shifted] at rest
      rw [search, advanced] at searched
      rcases Action.exists_of_bind_eq_ok searched with ⟨_, ⟨⟩, looked⟩
      rcases Action.exists_of_bind_eq_ok looked with ⟨used, -, decided⟩
      cases used with
      | true => exact rest small decided
      | false =>
          rcases Action.exists_of_bind_eq_ok decided with ⟨longer, -, weighed⟩
          split at weighed
          · rcases Action.exists_of_bind_eq_ok weighed with
              ⟨first, -, returned⟩
            cases returned
            omega
          · exact rest small weighed

/-- An action on the bitmap leaves the cursor where it is. -/
theorem cursor_onBitmap
    {Value : Type} {action : Action Bitmap Value} {value : Value}
    (ran : onBitmap action table = .ok value later) :
    later.cursor = table.cursor := by
  unfold onBitmap Action.focus at ran
  split at ran
  · cases ran
    rfl
  · cases ran

theorem scan_cursor_le
    {count limit : Nat} {found : Option Nat}
    (ordered : table.cursor ≤ limit) (small : limit < wordCount)
    (ran : scan profile count limit table = .ok found later) :
    later.cursor ≤ limit := by
  have reach : table.cursor + (limit - table.cursor) = limit := by omega
  unfold scan at ran
  rw [Action.bind_get] at ran
  rcases Action.exists_of_bind_lift_ok ran with
    ⟨⟨first, stop⟩, searched, moved⟩
  have within := search_stop_le (by rw [reach]; exact small) searched
  rw [reach] at within
  dsimp only at moved
  rw [Action.bind_set] at moved
  cases first with
  | none =>
      cases moved
      exact within
  | some first =>
      rcases Action.exists_of_bind_ok moved with
        ⟨⟨⟩, middle, marked, returned⟩
      cases returned
      rw [cursor_onBitmap marked]
      exact within

/-- A request leaves the cursor below the end of memory. -/
theorem claimRun_cursor_le
    {count : Nat} {search : RunSearch}
    (ordered : table.cursor ≤ table.scanLimit)
    (small : table.bitmap.bits < wordCount)
    (ran : claimRun profile count table = .ok search later) :
    later.cursor ≤ table.scanLimit := by
  have limit : table.scanLimit < wordCount :=
    Nat.lt_of_le_of_lt (Nat.min_le_right _ _) small
  unfold claimRun at ran
  rw [Action.bind_get] at ran
  rcases Action.exists_of_bind_ok ran with ⟨found, ahead, scanned, rest⟩
  cases found with
  | some first =>
      cases rest
      exact scan_cursor_le ordered limit scanned
  | none =>
      dsimp only at rest
      rw [Action.bind_modify] at rest
      rcases Action.exists_of_bind_ok rest with ⟨again, behind, rescanned, last⟩
      cases again with
      | some first =>
          cases last
          have stop :=
            scan_cursor_le (Nat.zero_le _) (Nat.lt_of_le_of_lt ordered limit)
              rescanned
          exact Nat.le_trans stop ordered
      | none =>
          cases last
          exact ordered

/-- A release moves the cursor back, if at all. -/
theorem release_cursor_le
    {first count : Nat}
    (ran : release profile first count table = .ok () later) :
    later.cursor ≤ table.cursor := by
  unfold release at ran
  rw [Action.bind_get] at ran
  rcases Action.exists_of_bind_lift_ok ran with ⟨⟨⟩, -, cleared⟩
  rcases Action.exists_of_bind_ok cleared with
    ⟨released, middle, emptied, returned⟩
  cases returned
  rw [← cursor_onBitmap emptied]
  dsimp only
  split
  · rename_i before
    exact Nat.le_of_lt before
  · exact Nat.le_refl _

end FrameTable

namespace Machine

/--
The cursor stands no further than a search goes, and a word can count the bits and
the bytes of the bitmap.  Every call keeps these bounds, whatever memory holds.
-/
structure CursorBounded (machine : Machine) : Prop where
  cursor_le :
    machine.allocator.cursor ≤
      min machine.allocator.frameLimit machine.allocator.storage.bits
  bits_lt : machine.allocator.storage.bits < wordCount
  length_le : machine.allocator.storage.length ≤ wordCount

/-- Two machines are the same, and their cursor is below the end of memory. -/
def SameBounded (machine other : Machine) : Prop :=
  machine = other ∧ machine.CursorBounded

/-- An action on the account of frames keeps the bounds if the cursor does. -/
theorem onTable_keeps
    {Value : Type} {action : Action FrameTable Value}
    (stays : ∀ {table later : FrameTable} {value : Value},
      table.cursor ≤ table.scanLimit → table.bitmap.bits < wordCount →
        action table = .ok value later → later.cursor ≤ table.scanLimit) :
    Action.Agrees SameBounded (onTable action) (onTable action) := by
  rintro machine _ value finish ⟨rfl, bounded⟩ ran
  refine ⟨finish, ran, rfl, ?_⟩
  unfold onTable Action.focus at ran
  split at ran
  · rename_i acted
    cases ran
    exact
      ⟨stays bounded.cursor_le bounded.bits_lt acted, bounded.bits_lt,
        bounded.length_le⟩
  · cases ran

/-- Every step of a request keeps the bounds. -/
theorem CursorBounded.simulates (profile : Profile) :
    Simulates SameBounded profile profile := by
  refine
    .of_books (fun same => congrArg allocator same.1)
      (fun same => congrArg table same.1) ?_ ?_ ?_ ?_ ?_
  · intro event
    refine .modify ?_
    rintro machine _ ⟨rfl, bounded⟩
    exact ⟨rfl, ⟨bounded.cursor_le, bounded.bits_lt, bounded.length_le⟩⟩
  · intro count
    exact onTable_keeps FrameTable.claimRun_cursor_le
  · intro first count
    exact onTable_keeps fun ordered _ ran =>
      Nat.le_trans (FrameTable.release_cursor_le ran) ordered
  · intro address length
    unfold Machine.zeroFill
    refine .bind_get ?_
    rintro machine _ ⟨rfl, bounded⟩
    exact
      .bind_lift (.refl _) fun _ _ =>
        .set ⟨rfl, ⟨bounded.cursor_le, bounded.bits_lt, bounded.length_le⟩⟩
  · intro pages
    unfold Machine.addUsed
    refine .bind_get ?_
    rintro machine _ ⟨rfl, bounded⟩
    exact
      .bind_lift (.refl _) fun _ _ =>
        .set ⟨rfl, ⟨bounded.cursor_le, bounded.bits_lt, bounded.length_le⟩⟩

end Machine

namespace Boot

variable {profile : Profile} {mapper : Mapper} {boot middle : Boot}

/-- The size of a bitmap is that of some memory. -/
theorem lt_of_bitmapBytesFor
    {highestRam bytes : Nat}
    (computed : bitmapBytesFor profile highestRam = .ok bytes) :
    bytes < wordCount := by
  rcases Action.exists_of_bind_eq_ok computed with ⟨aligned, -, chosen⟩
  cases chosen
  split
  · decide
  · exact aligned.toNat_lt

theorem placeBitmap_bounds
    {bytes : Nat} {host : Host} {storage : Storage}
    (ran : placeBitmap profile mapper bytes host boot =
      .ok (.ok storage) middle) :
    storage.length = bytes ∧ profile.mul bytes 8 = .ok storage.bits := by
  unfold placeBitmap at ran
  rcases Action.exists_of_bind_lift_ok ran with ⟨reached, -, counted⟩
  rcases Action.exists_of_bind_lift_ok counted with ⟨bits, scaled, bound⟩
  cases offered : Storage.bind reached bytes bits with
  | error refusal =>
      simp only [offered] at bound
      cases bound
  | ok placed =>
      simp only [offered] at bound
      rw [Action.bind_modify] at bound
      rcases Action.exists_of_bind_lift_ok bound with ⟨carved, -, returned⟩
      cases returned
      unfold Storage.bind at offered
      split at offered
      · cases offered
        exact ⟨rfl, scaled⟩
      · cases offered

/-- A set-up that succeeds yields an allocator within the bounds. -/
theorem cursorBounded_start
    {allocator : Allocator}
    (ran : setUp profile mapper boot = .ok (.ok allocator) middle) :
    (middle.start allocator).CursorBounded := by
  rcases exists_founding ran with ⟨founding⟩
  rcases placeBitmap_bounds founding.places with ⟨length, scaled⟩
  have bits := Profile.lt_of_fit scaled
  have small := lt_of_bitmapBytesFor founding.sizes
  rw [← length] at small
  rw [founding.allocator_eq]
  exact ⟨Nat.zero_le _, bits, Nat.le_of_lt small⟩

end Boot

/-! ## Runs of calls -/

namespace Machine

/--
The machines that calls lead to after a successful set-up, whatever others have
written to memory in between.
-/
inductive Arises (profile : Profile) (mapper : Mapper) : Machine → Prop where
  | start {boot middle : Boot} {allocator : Allocator}
      (ran :
        Boot.setUp profile mapper boot = .ok (.ok allocator) middle) :
      Arises profile mapper (middle.start allocator)
  | called {machine later : Machine} {call : Call} {answer : Answer}
      (arises : Arises profile mapper machine)
      (ran : perform profile call machine = .ok answer later) :
      Arises profile mapper later
  | wrote {machine : Machine} (arises : Arises profile mapper machine)
      (memory : Memory) :
      Arises profile mapper { machine with memory }

variable {profile : Profile} {mapper : Mapper} {machine : Machine}

theorem Arises.allocated
    {later : Machine} {size : UInt64}
    {result : Except AllocError PhysicalAddress}
    (arises : Arises profile mapper machine)
    (ran : machine.allocate profile size = .ok result later) :
    Arises profile mapper later := by
  have performed :
      perform profile (.allocate size) machine =
        .ok (.placed result) later := Action.bind_of_ok ran
  exact arises.called performed

theorem Arises.freed
    {later : Machine} {address : PhysicalAddress} {size : UInt64}
    (arises : Arises profile mapper machine)
    (ran : machine.free profile address size = .ok () later) :
    Arises profile mapper later := by
  have performed :
      perform profile (.free address size) machine = .ok .done later :=
    Action.bind_of_ok ran
  exact arises.called performed

/-- Runs that keep to the contract are among them. -/
theorem Arises.of_reachable
    {offset : UInt64} {map : List Region} {ledger : Ledger}
    (reachable : Ledger.Reachable profile offset map ledger) :
    Arises profile (.direct ⟨offset⟩) ledger.machine := by
  induction reachable with
  | start same ran => exact .start ran
  | step _ taken arises =>
      cases taken with
      | granted nonzero ran => exact arises.allocated ran
      | unserved nothing ran => exact arises.allocated ran
      | ignored nothing ran => exact arises.freed ran
      | freed member same ran => exact arises.freed ran
      | handedBack named nonzero whole ran => exact arises.freed ran

theorem Arises.cursorBounded (arises : Arises profile mapper machine) :
    machine.CursorBounded := by
  induction arises with
  | start ran => exact Boot.cursorBounded_start ran
  | @called before later call answer _ ran bounded =>
      rcases
        (CursorBounded.simulates profile).perform call before before answer later
          ⟨rfl, bounded⟩ ran with
        ⟨ending, -, rfl, kept⟩
      exact kept
  | wrote _ memory bounded =>
      exact ⟨bounded.cursor_le, bounded.bits_lt, bounded.length_le⟩

end Machine

end BootMemory
