import BootMemory.Proofs.Frames.Arises
import BootMemory.Proofs.Frames.Completeness
import Mathlib.Order.Bounds.Defs

/-!
# The next-fit search, exactly

`Bitmap.freeRuns` is the set of first frames of all runs of free frames between
two frames.  A search is told by two such sets: the runs ahead of the cursor, up
to the end of memory, and the runs behind it, that end at or before the cursor.
`Machine.Next` picks the least run ahead, or the least run behind if there is
none ahead, and `Machine.NextFit` says that this run is found, that nothing is
found if there is neither, and what becomes of bitmap and books.

`Machine.Arises.claimRun_nextFit` proves it of every machine that calls lead to
after a successful set-up.  A run is overlooked only if the cursor is inside it:
such a run is neither ahead nor behind.
-/

namespace BootMemory

/-! ## Free runs -/

namespace Bitmap

variable {bitmap : Bitmap} {count start stop first : Nat}

/-- The first frames of all free runs between two frames. -/
def freeRuns (bitmap : Bitmap) (count start stop : Nat) : Set Nat :=
  {first | start ≤ first ∧ first + count ≤ stop ∧ bitmap.FreeRun first count}

theorem FirstRun.isLeast (run : bitmap.FirstRun count start stop first) :
    IsLeast (bitmap.freeRuns count start stop) first := by
  refine ⟨⟨run.start_le, run.le_stop, run.free⟩, ?_⟩
  rintro other ⟨lower, -, free⟩
  by_contra before
  exact run.least other lower (Nat.lt_of_not_le before) free

theorem NoRun.freeRuns_eq (none : bitmap.NoRun count start stop) :
    bitmap.freeRuns count start stop = ∅ := by
  ext first
  constructor
  · rintro ⟨lower, upper, free⟩
    exact none first lower upper free
  · intro nowhere
    cases nowhere

end Bitmap

/-! ## The next fit -/

namespace Machine

variable {profile : Profile} {mapper : Mapper} {machine : Machine}

/-- Where the runs start that the first search can find. -/
def runsAhead (machine : Machine) (count : Nat) : Set Nat :=
  machine.table.bitmap.freeRuns count machine.allocator.cursor
    (min machine.allocator.frameLimit machine.table.bitmap.bits)

/-- Where the runs start that the second search can find. -/
def runsBehind (machine : Machine) (count : Nat) : Set Nat :=
  machine.table.bitmap.freeRuns count 0 machine.allocator.cursor

/-- The run to take: the least one ahead, or if there is none, behind. -/
def Next (machine : Machine) (count first : Nat) : Prop :=
  IsLeast (machine.runsAhead count) first ∨
    machine.runsAhead count = ∅ ∧ IsLeast (machine.runsBehind count) first

/-- The outcome of a next-fit search, and the machine that it leaves. -/
structure NextFit
    (machine : Machine) (count : Nat) (search : RunSearch)
    (later : Machine) : Prop where
  found_iff : ∀ first,
    search.first = some first ↔ machine.Next count first
  missed_iff :
    search.first = none ↔
      machine.runsAhead count = ∅ ∧ machine.runsBehind count = ∅
  bit_iff : ∀ first, search.first = some first → ∀ frame,
    later.table.bitmap.bit frame = true ↔
      machine.table.bitmap.bit frame = true ∨
        first ≤ frame ∧ frame < first + count
  books_eq : ∀ first, search.first = some first →
    later.allocator = { machine.allocator with cursor := first + count }
  kept : search.first = none → later = machine

variable {count first : Nat}

theorem Next.unique
    {other : Nat} (next : machine.Next count first)
    (rival : machine.Next count other) : other = first := by
  rcases next with ahead | ⟨nothing, behind⟩
  · rcases rival with least | ⟨nothing, -⟩
    · exact least.unique ahead
    · exact absurd ahead.1 (nothing ▸ Set.notMem_empty first)
  · rcases rival with least | ⟨-, least⟩
    · exact absurd least.1 (nothing ▸ Set.notMem_empty other)
    · exact least.unique behind

theorem Next.not_empty (next : machine.Next count first) :
    ¬ (machine.runsAhead count = ∅ ∧ machine.runsBehind count = ∅) := by
  rintro ⟨noneAhead, noneBehind⟩
  rcases next with ahead | ⟨-, behind⟩
  · exact absurd ahead.1 (noneAhead ▸ Set.notMem_empty first)
  · exact absurd behind.1 (noneBehind ▸ Set.notMem_empty first)

theorem Next.inside
    (next : machine.Next count first) (bounded : machine.CursorBounded) :
    first + count ≤ machine.table.bitmap.bits := by
  have limit :
      min machine.allocator.frameLimit machine.table.bitmap.bits ≤
        machine.table.bitmap.bits := Nat.min_le_right _ _
  rcases next with ahead | ⟨-, behind⟩
  · exact Nat.le_trans ahead.1.2.1 limit
  · exact
      Nat.le_trans behind.1.2.1 (Nat.le_trans bounded.cursor_le limit)

/-- Marking the run to take leaves the machine that is asked for. -/
theorem Next.nextFit
    (next : machine.Next count first) (bounded : machine.CursorBounded)
    (wrapped : Bool) :
    machine.NextFit count ⟨some first, wrapped⟩
      (machine.withTable (machine.table.claim first count)) := by
  have size :
      (machine.table.claim first count).bitmap.bytes.size =
        machine.allocator.storage.length :=
    (Bitmap.size_bytes_putRange _ _ _ _).trans (Storage.size_bytes_load _ _)
  have table :
      (machine.withTable (machine.table.claim first count)).table =
        machine.table.claim first count :=
    table_withTable (Bitmap.bits_putRange _ _ _ _) size rfl bounded.length_le
  refine ⟨?_, iff_of_false nofun next.not_empty, ?_, ?_, nofun⟩
  · intro other
    constructor
    · rintro ⟨⟩
      exact next
    · intro rival
      rw [next.unique rival]
  · rintro _ ⟨⟩ frame
    rw [table, FrameTable.claim, Bitmap.bit_putRange _ _ (next.inside bounded)]
    split
    · rename_i covered
      exact iff_of_true rfl (.inr covered)
    · rename_i elsewhere
      rw [or_iff_left elsewhere]
  · rintro _ ⟨⟩
    rfl

theorem nextFit_none
    (noneAhead : machine.runsAhead count = ∅)
    (noneBehind : machine.runsBehind count = ∅) (wrapped : Bool) :
    machine.NextFit count ⟨none, wrapped⟩ machine := by
  refine ⟨?_, iff_of_true rfl ⟨noneAhead, noneBehind⟩, nofun, nofun, ?_⟩
  · intro first
    constructor
    · intro found
      cases found
    · intro next
      exact absurd ⟨noneAhead, noneBehind⟩ next.not_empty
  · intro missed
    rfl

theorem CursorBounded.exists_nextFit
    (bounded : machine.CursorBounded) (profile : Profile)
    (positive : 0 < count) :
    ∃ search later,
      onTable (FrameTable.claimRun profile count) machine =
        .ok search later ∧
      machine.NextFit count search later := by
  have outcome :=
    FrameTable.claimRun_outcome profile machine.table positive
      bounded.cursor_le bounded.bits_lt
  rcases outcome with
    ⟨first, run, ran⟩ | ⟨ahead, ⟨first, run, ran⟩ | ⟨behind, ran⟩⟩
  · have next : machine.Next count first := .inl run.isLeast
    exact ⟨_, _, Action.focus_of_ok ran, next.nextFit bounded false⟩
  · have next : machine.Next count first :=
      .inr ⟨ahead.freeRuns_eq, run.isLeast⟩
    exact ⟨_, _, Action.focus_of_ok ran, next.nextFit bounded true⟩
  · have missed :=
      nextFit_none ahead.freeRuns_eq behind.freeRuns_eq true
    refine ⟨_, _, Action.focus_of_ok ran, ?_⟩
    rw [withTable_table]
    exact missed

/--
Wherever calls lead to after a successful set-up, a request for one frame or
more is answered by the next fit.
-/
theorem Arises.claimRun_nextFit
    (arises : Arises profile mapper machine) (positive : 0 < count) :
    ∃ search later,
      onTable (FrameTable.claimRun profile count) machine =
        .ok search later ∧
      machine.NextFit count search later :=
  arises.cursorBounded.exists_nextFit profile positive

end Machine

namespace Sample

/--
On the sample, with the cursor behind frames 4 and 5 that were handed out, the
least run of one frame is found behind the cursor.
-/
theorem exists_wrapped_nextFit :
    ∃ machine search later,
      Machine.Arises .debug (.direct ⟨offset⟩) machine ∧ 0 < 1 ∧
      Machine.onTable (FrameTable.claimRun .debug 1) machine =
        .ok search later ∧
      machine.NextFit 1 search later ∧ search.first = some 2 := by
  rcases exists_granted with ⟨ledger, state⟩
  have arises := Machine.Arises.of_reachable state.reachable
  rcases arises.claimRun_nextFit Nat.one_pos with
    ⟨search, later, ran, fit⟩
  have limit :
      min ledger.machine.allocator.frameLimit
        ledger.machine.table.bitmap.bits = 6 := by
    rw [Machine.bits_table, state.limit, state.bits]
    decide
  have noneAhead : ledger.machine.runsAhead 1 = ∅ := by
    rw [Machine.runsAhead, limit, state.cursor_eq]
    ext first
    constructor
    · rintro ⟨lower, upper, -⟩
      omega
    · intro nowhere
      cases nowhere
  have clear : ∀ frame, frame < 6 →
      (ledger.machine.table.bitmap.bit frame = false ↔ frame = 2) := by
    intro frame below
    have held : (Block.mk (Address.ofFrame 4) 8192).frames = {4, 5} := by
      decide
    rw [state.clear_iff below]
    simp only [List.mem_singleton, forall_eq, held, Finset.mem_insert,
      Finset.mem_singleton, Finset.notMem_empty, or_false]
    omega
  have behind : IsLeast (ledger.machine.runsBehind 1) 2 := by
    rw [Machine.runsBehind, state.cursor_eq]
    refine ⟨⟨Nat.zero_le _, by decide, ?_⟩, ?_⟩
    · intro frame lower upper
      exact (clear frame (by omega)).mpr (by omega)
    · rintro other ⟨-, upper, free⟩
      have alone :=
        (clear other (by omega)).mp (free other (by omega) (by omega))
      exact Nat.le_of_eq alone.symm
  exact
    ⟨ledger.machine, search, later, arises, Nat.one_pos, ran, fit,
      (fit.found_iff 2).mpr (.inr ⟨noneAhead, behind⟩)⟩

end Sample

end BootMemory
