import BootMemory.Proofs.Frames.Arises
import BootMemory.Proofs.Frames.PostState
import BootMemory.Proofs.Mirroring
import Mathlib.Logic.Relation

/-!
# Wherever calls lead, faults included

A fault stops a call half way, and what the call has done by then stays done: the
frames that a request has claimed are marked, although nobody was given them.
`Machine.attempt` performs a call and goes on from there, with the fault as its
answer.  `Machine.Leads` is any number of such calls, and `Machine.Ensues` holds
of every machine that they lead to after a successful set-up.

`Machine.Reflects` lists the steps of all requests for a relation of machines
that mirror each other.  `Ensues.framesCovered` uses it for the relation of each
machine to itself: whatever was tried, the cursor stands below the end of memory,
and there is a bit for every frame below that.
-/

namespace BootMemory

namespace Machine

/-! ## Calls that a fault may stop -/

/-- Perform a call; where a fault stops it, the fault is the answer. -/
def attempt (profile : Profile) (call : Call) (machine : Machine) :
    Except Fault Answer × Machine :=
  (Action.outcome (perform profile call machine),
    Action.state (perform profile call machine))

theorem attempt_of_ok
    {profile : Profile} {call : Call} {answer : Answer}
    {machine later : Machine}
    (ran : perform profile call machine = .ok answer later) :
    machine.attempt profile call = (.ok answer, later) := by
  rw [attempt, ran]
  rfl

/-- A relation of machines that mirror each other in the steps of requests. -/
structure Reflects
    (Alike : Machine → Machine → Prop) (profile : Profile) : Prop where
  books_eq : ∀ {machine other}, Alike machine other →
    machine.allocator = other.allocator
  table_eq : ∀ {machine other}, Alike machine other →
    machine.table = other.table
  record : ∀ event, Action.Mirrors Alike (record event) (record event)
  claimRun : ∀ count, 0 < count →
    Action.Mirrors Alike (onTable (FrameTable.claimRun profile count))
      (onTable (FrameTable.claimRun profile count))
  release : ∀ first count,
    Action.Mirrors Alike (onTable (FrameTable.release profile first count))
      (onTable (FrameTable.release profile first count))
  zeroFill : ∀ address length,
    Action.Mirrors Alike (zeroFill profile address length)
      (zeroFill profile address length)
  addUsed : ∀ pages,
    Action.Mirrors Alike (addUsed profile pages) (addUsed profile pages)

namespace Reflects

variable {Alike : Machine → Machine → Prop} {profile : Profile}

theorem allocate (reflects : Reflects Alike profile) (size : UInt64) :
    Action.Mirrors Alike (allocate profile size) (allocate profile size) := by
  unfold Machine.allocate
  refine .ite (fun _ => .pure _) fun nonzero => ?_
  have positive := framesFor_pos (toNat_pos_of_ne_zero nonzero)
  refine (reflects.claimRun _ positive).bind fun search => ?_
  refine .bind_if (reflects.record _) ?_
  cases search.first with
  | none => exact (reflects.record _).bind fun _ => .pure _
  | some first =>
      refine .bind_lift fun length _ => ?_
      refine (reflects.zeroFill _ length).bind fun _ => ?_
      refine (reflects.addUsed _).bind fun _ => ?_
      exact (reflects.record _).bind fun _ => .pure _

theorem free
    (reflects : Reflects Alike profile) (address : PhysicalAddress)
    (size : UInt64) :
    Action.Mirrors Alike (free profile address size)
      (free profile address size) := by
  unfold Machine.free
  refine .ite (fun _ => .pure _) fun _ => ?_
  exact (reflects.release _ _).bind fun _ => reflects.record _

theorem info (reflects : Reflects Alike profile) :
    Action.Mirrors Alike (info profile) (info profile) := by
  unfold Machine.info
  refine .bind_get fun machine other alike => ?_
  rw [stats, stats, reflects.books_eq alike]
  exact .bind_lift fun _ _ => reflects.record _

theorem expose
    (reflects : Reflects Alike profile) (address : PhysicalAddress) :
    Action.Mirrors Alike (expose profile address)
      (expose profile address) := by
  unfold Machine.expose
  refine .ite (fun _ => .pure _) fun _ => ?_
  refine .bind_get fun machine other alike => ?_
  rw [toAccessible, toAccessible, reflects.books_eq alike]
  exact .lift _

theorem allocateAccessible
    (reflects : Reflects Alike profile) (size : UInt64) :
    Action.Mirrors Alike (allocateAccessible profile size)
      (allocateAccessible profile size) := by
  unfold Machine.allocateAccessible
  refine (reflects.allocate size).bind fun result => ?_
  cases result with
  | error refusal => exact .pure _
  | ok address =>
      refine (reflects.expose address).bind fun accessible => ?_
      refine .ite (fun _ => ?_) fun _ => .pure _
      exact (reflects.free address size).bind fun _ => .pure _

theorem freeAccessible
    (reflects : Reflects Alike profile) (accessible : VirtualAddress)
    (size : UInt64) :
    Action.Mirrors Alike (freeAccessible profile accessible size)
      (freeAccessible profile accessible size) := by
  unfold Machine.freeAccessible
  refine .bind_get fun machine other alike => ?_
  rw [fromAccessible, fromAccessible, reflects.books_eq alike]
  exact .bind_lift fun address _ => reflects.free address size

/-- Related machines mirror each other in every call. -/
theorem perform (reflects : Reflects Alike profile) (call : Call) :
    Action.Mirrors Alike (perform profile call) (perform profile call) := by
  cases call with
  | allocate size => exact (reflects.allocate size).bind fun _ => .pure _
  | free address size =>
      exact (reflects.free address size).bind fun _ => .pure _
  | allocateAccessible size =>
      exact (reflects.allocateAccessible size).bind fun _ => .pure _
  | freeAccessible address size =>
      exact (reflects.freeAccessible address size).bind fun _ => .pure _
  | info => exact reflects.info.bind fun _ => .pure _
  | stats =>
      refine .bind_get fun machine other alike => ?_
      rw [stats, stats, reflects.books_eq alike]
      exact .pure _
  | isPageUsed address =>
      refine .bind_get fun machine other alike => ?_
      rw [isPageUsed, isPageUsed, reflects.table_eq alike]
      exact .pure _

/-- Whatever is tried in a row, related machines answer it alike. -/
theorem answerAll
    (reflects : Reflects Alike profile) (calls : List Call)
    {machine other : Machine} (alike : Alike machine other) :
    (answerAll (attempt profile) calls machine).1 =
        (answerAll (attempt profile) calls other).1 ∧
      Alike (answerAll (attempt profile) calls machine).2
        (answerAll (attempt profile) calls other).2 :=
  answerAll_alike (fun call machine other => reflects.perform call machine other)
    calls alike

end Reflects

/-! ## What every call keeps -/

/--
The cursor is within its bounds, and there is a bit for every frame.  Every call
keeps this, also if a fault stops it.
-/
structure FramesCovered (machine : Machine) : Prop where
  bounded : machine.CursorBounded
  covered :
    machine.allocator.frameLimit ≤ machine.allocator.storage.bits

/-- Two machines are the same, with a bit for every frame. -/
def SameCovered (machine other : Machine) : Prop :=
  machine = other ∧ machine.FramesCovered

variable {machine : Machine} {profile : Profile}

/-- Books and memory within the bounds, with other pages and another log. -/
theorem FramesCovered.congr
    (covers : machine.FramesCovered) {later : Machine}
    (cursor : later.allocator.cursor = machine.allocator.cursor)
    (limit : later.allocator.frameLimit = machine.allocator.frameLimit)
    (storage : later.allocator.storage = machine.allocator.storage) :
    later.FramesCovered := by
  refine ⟨⟨?_, ?_, ?_⟩, ?_⟩
  · rw [cursor, limit, storage]
    exact covers.bounded.cursor_le
  · rw [storage]
    exact covers.bounded.bits_lt
  · rw [storage]
    exact covers.bounded.length_le
  · rw [limit, storage]
    exact covers.covered

/-- An action on the account of frames keeps the bounds if the cursor does. -/
theorem FramesCovered.withTable
    (covers : machine.FramesCovered) {table : FrameTable}
    (cursor : table.cursor ≤ machine.table.scanLimit) :
    (machine.withTable table).FramesCovered :=
  ⟨⟨cursor, covers.bounded.bits_lt, covers.bounded.length_le⟩, covers.covered⟩

theorem FramesCovered.onTable
    {Value : Type} {action : Action FrameTable Value}
    (stays : ∀ {machine : Machine}, machine.FramesCovered →
      (Action.state (action machine.table)).cursor ≤
        machine.table.scanLimit) :
    Action.Mirrors SameCovered (onTable action) (onTable action) := by
  refine .focus ?_ ?_
  · rintro machine _ ⟨rfl, -⟩
    rfl
  · rintro machine _ ⟨rfl, covers⟩
    exact ⟨rfl, covers.withTable (stays covers)⟩

/-- A search is never stopped, and its cursor stays below the end of memory. -/
theorem FramesCovered.cursor_claimRun_le
    (covers : machine.FramesCovered) (profile : Profile) {count : Nat}
    (positive : 0 < count) :
    (Action.state
        (FrameTable.claimRun profile count machine.table)).cursor ≤
      machine.table.scanLimit := by
  have bounded := covers.bounded
  rcases FrameTable.claimRun_outcome profile machine.table positive
      bounded.cursor_le bounded.bits_lt with
    ⟨first, -, ran⟩ | ⟨-, ⟨first, -, ran⟩ | ⟨-, ran⟩⟩
  all_goals
    rw [ran]
    exact FrameTable.claimRun_cursor_le bounded.cursor_le bounded.bits_lt ran

/-- A release moves the cursor back, or is stopped before it does anything. -/
theorem FramesCovered.cursor_release_le
    (covers : machine.FramesCovered) (profile : Profile) (first count : Nat) :
    (Action.state
        (FrameTable.release profile first count machine.table)).cursor ≤
      machine.table.scanLimit := by
  have ordered : machine.table.cursor ≤ machine.table.scanLimit :=
    covers.bounded.cursor_le
  cases asserted : machine.table.assertReleasable profile first count with
  | ok =>
      have ran := FrameTable.release_of_assert covers.bounded.bits_lt asserted
      rw [ran]
      exact Nat.le_trans (FrameTable.release_cursor_le ran) ordered
  | error fault =>
      rw [FrameTable.release_of_assert_error asserted]
      exact ordered

/-- Every step of a request keeps the bounds, or is stopped within them. -/
theorem FramesCovered.reflects (profile : Profile) :
    Reflects SameCovered profile where
  books_eq same := congrArg allocator same.1
  table_eq same := congrArg table same.1
  record event := by
    refine .modify ?_
    rintro machine _ ⟨rfl, covers⟩
    exact ⟨rfl, covers.congr rfl rfl rfl⟩
  claimRun count positive :=
    FramesCovered.onTable fun covers =>
      covers.cursor_claimRun_le profile positive
  release first count :=
    FramesCovered.onTable fun covers =>
      covers.cursor_release_le profile first count
  zeroFill address length := by
    unfold Machine.zeroFill
    refine .bind_get ?_
    rintro machine _ ⟨rfl, covers⟩
    exact .bind_lift fun _ _ => .set ⟨rfl, covers.congr rfl rfl rfl⟩
  addUsed pages := by
    unfold Machine.addUsed
    refine .bind_get ?_
    rintro machine _ ⟨rfl, covers⟩
    exact .bind_lift fun _ _ => .set ⟨rfl, covers.congr rfl rfl rfl⟩

end Machine

/-! ## The start -/

namespace Boot

variable {profile : Profile} {mapper : Mapper} {boot middle : Boot}

/-- No end of memory lies beyond the words. -/
theorem highestRam_lt (map : List Region) :
    (Census.ofMap map).highestRam < wordCount := by
  have bounded :
      (Census.ofMap map).highestRam ≤ wordCount - 1 :=
    Census.highestRam_le fun region _ _ => Nat.min_le_right _ _
  simp only [wordCount] at bounded ⊢
  omega

/-- On every map, the bitmap is as large as the end of memory asks for. -/
theorem bitmap_sized
    {allocator : Allocator}
    (ran : setUp profile mapper boot = .ok (.ok allocator) middle) :
    allocator.frameLimit = (Census.ofMap boot.map).highestRam / frameSize ∧
      allocator.storage.length = bitmapFrames boot.map * frameSize ∧
        allocator.storage.bits = bitmapFrames boot.map * frameSize * 8 := by
  rcases exists_founding ran with ⟨founding⟩
  have ends := Census.highestRam_of_take founding.took
  have low := highestRam_lt boot.map
  have small : bitmapFrames boot.map * frameSize * 8 < wordCount := by
    simp only [bitmapFrames, bitmapFramesFor, framesFor, Bitmap.bytesFor,
      frameSize, wordCount] at low ⊢
    omega
  have sized := founding.sizes
  rw [ends, bitmapBytesFor_of_lt profile low, Except.ok.injEq] at sized
  rcases placeBitmap_bounds founding.places with ⟨length, scaled⟩
  rw [← sized] at length scaled
  have bits := Except.ok.inj ((profile.mul_of_lt small).symm.trans scaled)
  rw [founding.allocator_eq, ends]
  exact ⟨rfl, length, bits.symm⟩

/-- On every map, the bitmap has a bit for each frame below the end of memory. -/
theorem framesCovered_start
    {allocator : Allocator}
    (ran : setUp profile mapper boot = .ok (.ok allocator) middle) :
    (middle.start allocator).FramesCovered := by
  refine ⟨cursorBounded_start ran, ?_⟩
  rcases bitmap_sized ran with ⟨limit, -, bits⟩
  have covers := limit_le_bits boot.map
  rw [← limit, ← bits] at covers
  exact covers

end Boot

/-! ## Runs of calls that a fault may stop -/

namespace Machine

/-- A call is tried, or others write to memory. -/
inductive Disturbs (profile : Profile) : Machine → Machine → Prop where
  | tried (machine : Machine) (call : Call) :
      Disturbs profile machine (machine.attempt profile call).2
  | wrote (machine : Machine) (memory : Memory) :
      Disturbs profile machine { machine with memory }

/-- Any number of calls and of writes by others. -/
def Leads (profile : Profile) : Machine → Machine → Prop :=
  Relation.ReflTransGen (Disturbs profile)

/--
The machines that calls lead to after a successful set-up, whether they return
or a fault stops them, and whatever others have written to memory in between.
-/
def Ensues (profile : Profile) (mapper : Mapper) (machine : Machine) : Prop :=
  ∃ (boot middle : Boot) (allocator : Allocator),
    Boot.setUp profile mapper boot = .ok (.ok allocator) middle ∧
      Leads profile (middle.start allocator) machine

variable {profile : Profile} {mapper : Mapper} {machine later : Machine}

theorem Ensues.disturbed
    (ensues : Ensues profile mapper machine)
    (disturbs : Disturbs profile machine later) :
    Ensues profile mapper later := by
  rcases ensues with ⟨boot, middle, allocator, ran, leads⟩
  exact ⟨boot, middle, allocator, ran, leads.tail disturbs⟩

/-- Calls that return are among those that are tried. -/
theorem Ensues.of_arises (arises : Arises profile mapper machine) :
    Ensues profile mapper machine := by
  induction arises with
  | start ran => exact ⟨_, _, _, ran, .refl⟩
  | @called before later call answer _ ran ensues =>
      have tried := ensues.disturbed (.tried before call)
      rw [attempt_of_ok ran] at tried
      exact tried
  | wrote _ memory ensues => exact ensues.disturbed (.wrote _ memory)

theorem Disturbs.framesCovered
    (disturbs : Disturbs profile machine later)
    (covers : machine.FramesCovered) :
    later.FramesCovered := by
  cases disturbs with
  | tried call =>
      exact
        ((FramesCovered.reflects profile).perform call machine machine
          ⟨rfl, covers⟩).2.2
  | wrote memory => exact covers.congr rfl rfl rfl

theorem Leads.framesCovered
    (leads : Leads profile machine later) (covers : machine.FramesCovered) :
    later.FramesCovered := by
  induction leads with
  | refl => exact covers
  | tail _ disturbs inductionHypothesis =>
      exact disturbs.framesCovered inductionHypothesis

theorem Ensues.framesCovered (ensues : Ensues profile mapper machine) :
    machine.FramesCovered := by
  rcases ensues with ⟨boot, middle, allocator, ran, leads⟩
  exact leads.framesCovered (Boot.framesCovered_start ran)

end Machine

end BootMemory
