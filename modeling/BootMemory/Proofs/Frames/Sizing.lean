import BootMemory.Proofs.Frames.Ensues
import BootMemory.Proofs.Frames.LiveSet
import BootMemory.Proofs.Frames.Outcomes

/-!
# The size of the bitmap

The bitmap is sized from the end of memory: a bit for each frame below it, rounded
up to bytes and then to whole frames, and at least one frame.  The two roundings
yield the least size there can be, and nothing overflows wherever memory ends.

Once the allocator is set up no call changes the size, nor the end of memory, as
`Machine.Leads.keeps` says.  So `Machine.Sized` holds throughout: a search is
limited by the end of memory and not by the bitmap, the cursor stands at that
limit at most, and each frame of memory has a bit.  Nothing is asked of the
memory map or of the callers, and calls may be stopped half way.
-/

namespace BootMemory

/-- The sizes, in whole frames, of bitmaps with a bit for each of some frames. -/
def bitmapSizes (frames : Nat) : Set Nat :=
  {bytes | 0 < bytes ∧ frameSize ∣ bytes ∧ frames ≤ 8 * bytes}

namespace Machine

variable {profile : Profile} {mapper : Mapper} {first machine later : Machine}

/-! ## What no call changes -/

/-- Two machines are the same, with the books of a first one. -/
def SameKept (first machine other : Machine) : Prop :=
  machine = other ∧ first.Keeps machine

theorem Keeps.onTable
    {Value : Type} (action : Action FrameTable Value) :
    Action.Mirrors (SameKept first) (onTable action) (onTable action) := by
  refine .focus ?_ ?_
  · rintro machine _ ⟨rfl, -⟩
    rfl
  · rintro machine _ ⟨rfl, keeps⟩
    exact ⟨rfl, keeps.trans ⟨rfl, rfl, rfl, rfl, rfl⟩⟩

/-- Every step of a request keeps the books, or is stopped with them kept. -/
theorem Keeps.reflects (first : Machine) (profile : Profile) :
    Reflects (SameKept first) profile where
  books_eq same := congrArg allocator same.1
  table_eq same := congrArg table same.1
  record event := by
    refine .modify ?_
    rintro machine _ ⟨rfl, keeps⟩
    exact ⟨rfl, keeps.trans ⟨rfl, rfl, rfl, rfl, rfl⟩⟩
  claimRun count _ := Keeps.onTable (FrameTable.claimRun profile count)
  release start count := Keeps.onTable (FrameTable.release profile start count)
  zeroFill address length := by
    unfold Machine.zeroFill
    refine .bind_get ?_
    rintro machine _ ⟨rfl, keeps⟩
    exact
      .bind_lift fun _ _ =>
        .set ⟨rfl, keeps.trans ⟨rfl, rfl, rfl, rfl, rfl⟩⟩
  addUsed pages := by
    unfold Machine.addUsed
    refine .bind_get ?_
    rintro machine _ ⟨rfl, keeps⟩
    exact
      .bind_lift fun _ _ =>
        .set ⟨rfl, keeps.trans ⟨rfl, rfl, rfl, rfl, rfl⟩⟩

theorem Disturbs.keeps (disturbs : Disturbs profile machine later) :
    machine.Keeps later := by
  cases disturbs with
  | tried call =>
      exact
        ((Keeps.reflects machine profile).perform call machine machine
          ⟨rfl, .refl machine⟩).2.2
  | wrote memory => exact ⟨rfl, rfl, rfl, rfl, rfl⟩

theorem Leads.keeps (leads : Leads profile first later) :
    first.Keeps later := by
  induction leads with
  | refl => exact .refl first
  | tail _ disturbs inductionHypothesis =>
      exact inductionHypothesis.trans disturbs.keeps

/-! ## The bitmap of an allocator -/

/-- The bitmap has the least size that covers memory, and limits no search. -/
structure Sized (map : List Region) (machine : Machine) : Prop where
  least :
    IsLeast (bitmapSizes machine.allocator.frameLimit)
      machine.allocator.storage.length
  bits_eq :
    machine.table.bitmap.bits = 8 * machine.allocator.storage.length
  limit_le :
    machine.allocator.frameLimit ≤ machine.table.bitmap.bits
  scanLimit_eq : machine.table.scanLimit = machine.allocator.frameLimit
  cursor_le : machine.allocator.cursor ≤ machine.allocator.frameLimit
  covers : ∀ region ∈ map, region.isRam = true → region.top < wordCount →
    ∀ frame, region.HoldsFrame frame → frame < machine.table.bitmap.bits

/-- The size that was computed at the set-up serves wherever calls lead. -/
theorem Leads.sized
    {boot middle : Boot} {allocator : Allocator}
    (ran : Boot.setUp profile mapper boot = .ok (.ok allocator) middle)
    (leads : Leads profile (middle.start allocator) machine) :
    machine.Sized boot.map := by
  have covers := leads.framesCovered (Boot.framesCovered_start ran)
  have keeps := leads.keeps
  rcases Boot.bitmap_sized ran with ⟨founded, length, bits⟩
  have limit :
      machine.allocator.frameLimit =
        (Census.ofMap boot.map).highestRam / frameSize :=
    keeps.limit.trans founded
  refine
    { least := ?_
      bits_eq := ?_
      limit_le := covers.covered
      scanLimit_eq := Nat.min_eq_left covers.covered
      cursor_le := Nat.le_trans covers.bounded.cursor_le (Nat.min_le_left _ _)
      covers := ?_ }
  · rw [limit, keeps.storage]
    exact length ▸ isLeast_bitmapFramesFor _
  · rw [bits_table, keeps.storage]
    change allocator.storage.bits = 8 * allocator.storage.length
    rw [bits, length, Nat.mul_comm]
  · intro region member ram low frame holds
    have below := Boot.frame_lt_limit_of_top_lt member ram low holds
    rw [← limit] at below
    exact Nat.lt_of_lt_of_le below covers.covered

/--
Wherever memory ends, the least size of a bitmap that covers it is computed
without overflow; so in every allocator, on every map, the bitmap covers memory
and neither the search nor the cursor goes beyond.
-/
theorem bitmap_sizing (profile : Profile) :
    (∀ highestRam : UInt64, ∃ bytes,
      bitmapBytesFor profile highestRam.toNat = .ok bytes ∧
        IsLeast (bitmapSizes (highestRam.toNat / frameSize)) bytes ∧
          8 * bytes < wordCount) ∧
    ∀ (mapper : Mapper) (boot middle : Boot) (allocator : Allocator)
        (machine : Machine),
      Boot.setUp profile mapper boot = .ok (.ok allocator) middle →
        Leads profile (middle.start allocator) machine →
          machine.Sized boot.map := by
  constructor
  · intro highestRam
    have small := highestRam.toNat_lt
    refine
      ⟨_, bitmapBytesFor_of_lt profile small, isLeast_bitmapFramesFor _, ?_⟩
    simp only [bitmapFramesFor, framesFor, Bitmap.bytesFor, frameSize, wordCount]
    omega
  · intro mapper boot middle allocator machine ran leads
    exact leads.sized ran

end Machine

namespace Sample

/-- One frame more than a bitmap of one frame has bits for. -/
def wideMap : List Region := [⟨4096, 134217728, .usable⟩]

/-- The bitmap is at the front of the only region. -/
def wideHost : Host := ⟨[], ⟨4096, 134217728, .usable⟩, []⟩

theorem wideMap_found :
    Host.find (Boot.bitmapFrames wideMap * frameSize)
      (wideMap.map Region.pastFrameZero) = some wideHost := by
  have frames : Boot.bitmapFrames wideMap = 2 := by decide
  rw [frames]
  rfl

theorem wideMap_sound : SoundMap wideMap :=
  .of_sorted (by decide) (by decide)

theorem wideMap_reaches : DirectMap.Reaches ⟨offset⟩ wideMap :=
  reaches_of_low (by decide)

theorem exists_wide_setUp :
    ∃ middle allocator,
      Boot.setUp .debug (.direct ⟨offset⟩) ⟨wideMap, Memory.zero, []⟩ =
        .ok (.ok allocator) middle := by
  rcases @Boot.setUp_of_found offset ⟨wideMap, Memory.zero, []⟩ wideHost .debug
    wideMap_sound wideMap_reaches
    (Boot.any_isOffered_of_found wideMap_found wideMap_sound)
    wideMap_found with ⟨log, ran⟩
  exact ⟨_, _, ran⟩

/-- After a request, the last frame of the sample still has its bit. -/
theorem wide_bitmap_sizing :
    ∃ middle allocator machine,
      Boot.setUp .debug (.direct ⟨offset⟩) ⟨wideMap, Memory.zero, []⟩ =
          .ok (.ok allocator) middle ∧
        Machine.Leads .debug (middle.start allocator) machine ∧
          machine.Sized wideMap ∧ 32768 < machine.table.bitmap.bits := by
  rcases exists_wide_setUp with ⟨middle, allocator, ran⟩
  have leads :
      Machine.Leads .debug (middle.start allocator)
        ((middle.start allocator).attempt .debug (.allocate 134217728)).2 :=
    .single (.tried _ _)
  have sized := (Machine.bitmap_sizing .debug).2 _ _ _ _ _ ran leads
  have covered :=
    sized.covers _ (List.mem_singleton_self _) rfl (by decide) 32768
      (by decide)
  exact ⟨middle, allocator, _, ran, leads, sized, covered⟩

end Sample

end BootMemory
