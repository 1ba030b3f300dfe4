import BootMemory.Alignment
import BootMemory.Bitmap.Range
import BootMemory.Mapper
import BootMemory.Proofs.Simulation
import BootMemory.Region
import BootMemory.Stats
import Mathlib.Algebra.Group.Nat.Defs

/-!
# The profiles agree

What the debug profile finishes without a fault, the release profile finishes
with the same outcome.  The converse is not asked for: where the debug profile
stops, the release profile is free to go on with a wrapped result.

The debug profile leads here and the release profile follows.  Sums and
products agree as they are.  A difference agrees only where the minuend is a
64-bit number, so it matters that the debug profile has reached that number.
-/

namespace BootMemory

namespace Profile

/-! ## Arithmetic -/

theorem assert_agrees (condition : Bool) (fault : Fault) :
    Agrees (debug.assert condition fault) (release.assert condition fault) :=
  .unit _

theorem fit_agrees (fault : Fault) (result : Nat) :
    Agrees (debug.fit fault result) (release.fit fault result) :=
  fun _ accepted => fit_release_of_debug accepted

theorem add_agrees (left right : Nat) :
    Agrees (debug.add left right) (release.add left right) :=
  fit_agrees _ _

theorem mul_agrees (left right : Nat) :
    Agrees (debug.mul left right) (release.mul left right) :=
  fit_agrees _ _

theorem sub_agrees {left : Nat} (small : left < wordCount) (right : Nat) :
    Agrees (debug.sub left right) (release.sub left right) := by
  intro value computed
  by_cases ordered : right ≤ left
  · rw [sub_of_le debug small ordered] at computed
    rw [sub_of_le release small ordered, computed]
  · rw [sub, if_neg ordered] at computed
    cases computed

theorem addWord_agrees (left right : UInt64) :
    Agrees (debug.addWord left right) (release.addWord left right) :=
  (add_agrees _ _).map _

theorem subWord_agrees (left right : UInt64) :
    Agrees (debug.subWord left right) (release.subWord left right) :=
  (sub_agrees left.toNat_lt _).map _

end Profile

open Profile (Agrees)

/-! ## Alignment, direct maps and mappers -/

theorem alignDown_agrees (word alignment : UInt64) :
    Agrees (alignDown .debug word alignment)
      (alignDown .release word alignment) :=
  (Profile.assert_agrees _ _).bind fun _ _ => .refl _

theorem alignUp_agrees (word alignment : UInt64) :
    Agrees (alignUp .debug word alignment) (alignUp .release word alignment) :=
  (Profile.assert_agrees _ _).bind fun _ _ =>
    (Profile.addWord_agrees _ _).bind fun raised _ =>
      alignDown_agrees raised alignment

theorem DirectMap.toVirtual_agrees (map : DirectMap) (address : PhysicalAddress) :
    Agrees (map.toVirtual .debug address) (map.toVirtual .release address) :=
  .ite (.refl _) ((Profile.addWord_agrees _ _).map _)

theorem DirectMap.toPhysical_agrees (map : DirectMap) (address : VirtualAddress) :
    Agrees (map.toPhysical .debug address) (map.toPhysical .release address) :=
  .ite ((Profile.subWord_agrees _ _).map _) (.refl _)

namespace Mapper

/-- The translations of a mapper agree. -/
structure ProfilesAgree (mapper : Mapper) : Prop where
  toVirtual : ∀ address,
    Agrees (mapper.toVirtual .debug address) (mapper.toVirtual .release address)
  toPhysical : ∀ address,
    Agrees (mapper.toPhysical .debug address)
      (mapper.toPhysical .release address)
  reach : ∀ address,
    Agrees (mapper.reach .debug address) (mapper.reach .release address)

theorem direct_agree (map : DirectMap) : (direct map).ProfilesAgree where
  toVirtual := map.toVirtual_agrees
  toPhysical := map.toPhysical_agrees
  reach := map.toVirtual_agrees

theorem ProfilesAgree.zeroFill
    {mapper : Mapper} (agree : mapper.ProfilesAgree)
    (memory : Memory) (address : PhysicalAddress) (length : Nat) :
    Agrees (mapper.zeroFill .debug memory address length)
      (mapper.zeroFill .release memory address length) :=
  (agree.reach address).bind fun _ _ => .refl _

end Mapper

/-! ## Regions and statistics -/

namespace Region

variable (region : Region)

theorem wholeFrames_agrees :
    Agrees (region.wholeFrames .debug) (region.wholeFrames .release) :=
  (Profile.mul_agrees _ _).bind fun _ _ => .refl _

/-- The bounds of the whole frames are 64-bit numbers. -/
theorem stop_wholeFrames_lt
    {span : Span} (computed : region.wholeFrames .debug = .ok span) :
    span.stop < wordCount := by
  rcases Action.exists_of_bind_eq_ok computed with ⟨first, accepted, bounds⟩
  have small := Profile.lt_of_fit accepted
  have capped : region.stop < wordCount := by
    unfold stop
    omega
  dsimp only at bounds
  split at bounds
  · cases bounds
    exact Nat.lt_of_le_of_lt (Nat.div_mul_le_self _ _) capped
  · cases bounds
    exact small

theorem pageCount_agrees :
    Agrees (region.pageCount .debug) (region.pageCount .release) :=
  region.wholeFrames_agrees.bind fun _ computed =>
    (Profile.sub_agrees (region.stop_wholeFrames_lt computed) _).bind
      fun _ _ => .refl _

theorem consumeFront_agrees (bytes : UInt64) :
    Agrees (region.consumeFront .debug bytes)
      (region.consumeFront .release bytes) :=
  (Profile.addWord_agrees _ _).bind fun _ _ =>
    (Profile.subWord_agrees _ _).bind fun _ _ => .refl _

end Region

namespace Stats

theorem pagesToMib_agrees (pages : Nat) :
    Agrees (pagesToMib .debug pages) (pagesToMib .release pages) :=
  (Profile.mul_agrees _ _).map _

theorem display_agrees (stats : Stats) :
    Agrees (stats.display .debug) (stats.display .release) :=
  (pagesToMib_agrees _).bind fun _ _ =>
    (pagesToMib_agrees _).bind fun _ _ =>
      (pagesToMib_agrees _).bind fun _ _ =>
        (pagesToMib_agrees _).bind fun _ _ => .refl _

end Stats

/-! ## Bitmaps -/

namespace Bitmap

theorem get_agrees (bitmap : Bitmap) (index : Nat) :
    Agrees (bitmap.get .debug index) (bitmap.get .release index) :=
  (Profile.assert_agrees _ _).bind fun _ _ => .refl _

theorem allSetFrom_agrees (bitmap : Bitmap) (start count : Nat) :
    Agrees (bitmap.allSetFrom .debug start count)
      (bitmap.allSetFrom .release start count) := by
  induction count generalizing start with
  | zero => exact .refl _
  | succ count inductionHypothesis =>
      exact (bitmap.get_agrees start).bind fun _ _ =>
        .ite (inductionHypothesis (start + 1)) (.refl _)

theorem allSet_agrees (bitmap : Bitmap) (start stop : Nat) :
    Agrees (bitmap.allSet .debug start stop)
      (bitmap.allSet .release start stop) :=
  bitmap.allSetFrom_agrees start (stop - start)

theorem read_agrees (index : Nat) :
    Action.Agrees Eq (read .debug index) (read .release index) := by
  rintro bitmap _ value finish rfl ran
  rw [read] at ran
  cases reached : bitmap.get .debug index with
  | ok bit =>
      rw [reached] at ran
      rw [read, bitmap.get_agrees index bit reached]
      exact ⟨finish, ran, rfl⟩
  | error fault =>
      rw [reached] at ran
      cases ran

theorem write_agrees (value : Bool) (index : Nat) :
    Action.Agrees Eq (write .debug value index)
      (write .release value index) := by
  rintro bitmap _ done finish rfl ran
  rw [write] at ran
  cases reached : bitmap.assertInside .debug index with
  | ok inside =>
      rw [reached] at ran
      exact ⟨finish, ran, rfl⟩
  | error fault =>
      rw [reached] at ran
      cases ran

theorem writeFrom_agrees (value : Bool) (start count : Nat) :
    Action.Agrees Eq (writeFrom .debug value start count)
      (writeFrom .release value start count) := by
  induction count generalizing start with
  | zero => exact .pure _
  | succ count inductionHypothesis =>
      exact (write_agrees value start).bind fun _ =>
        inductionHypothesis (start + 1)

theorem writeRange_agrees (value : Bool) (start stop : Nat) :
    Action.Agrees Eq (writeRange .debug value start stop)
      (writeRange .release value start stop) := by
  rintro bitmap _ done finish rfl ran
  exact writeFrom_agrees value start _ bitmap bitmap done finish rfl ran

theorem releaseFrom_agrees (start count released : Nat) :
    Action.Agrees Eq (releaseFrom .debug start count released)
      (releaseFrom .release start count released) := by
  induction count generalizing start released with
  | zero => exact .pure _
  | succ count inductionHypothesis =>
      exact (read_agrees start).bind fun _ =>
        .ite
          ((write_agrees false start).bind fun _ =>
            .bind_lift (Profile.add_agrees released 1) fun counted _ =>
              inductionHypothesis (start + 1) counted)
          (inductionHypothesis (start + 1) released)

end Bitmap

end BootMemory
