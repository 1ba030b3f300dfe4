import BootMemory.Proofs.Agreement
import BootMemory.Proofs.Frames.Requests

/-!
# The frame allocator in both profiles

The steps of every request agree in the two profiles, and so does the set-up:
what the debug profile finishes, the release profile finishes with the same
outcome, books, memory, memory map and log.

A machine reaches memory through the mapper in its books, so its requests
agree on a machine whose mapper agrees, which is what `Machine.SameWired` says.
The set-up is given its mapper from outside.
-/

namespace BootMemory

open Profile (Agrees)

/-! ## The memory map -/

namespace Census

theorem countPages_agrees (census : Census) (region : Region) :
    Agrees (census.countPages .debug region)
      (census.countPages .release region) := by
  unfold countPages
  refine .ite ?_ (.refl _)
  refine region.pageCount_agrees.bind fun pages _ => ?_
  refine (Profile.add_agrees _ pages).bind fun presentPages _ => ?_
  exact .ite ((Profile.add_agrees _ pages).bind fun _ _ => .refl _) (.refl _)

theorem add_agrees (census : Census) (region : Region) :
    Agrees (add .debug census region) (add .release census region) :=
  ((census.reach region).countPages_agrees region).bind fun _ _ => .refl _

theorem take_agrees (map : List Region) :
    Agrees (take .debug map) (take .release map) :=
  Agrees.foldlM add_agrees map empty

end Census

theorem Region.offFrameZero_agrees (region : Region) :
    Agrees (region.offFrameZero .debug) (region.offFrameZero .release) :=
  .ite (region.consumeFront_agrees _) (.refl _)

theorem Region.allOffFrameZero_agrees (map : List Region) :
    Agrees (allOffFrameZero .debug map) (allOffFrameZero .release map) :=
  Agrees.mapM offFrameZero_agrees map

theorem bitmapBytesFor_agrees (highestRam : Nat) :
    Agrees (bitmapBytesFor .debug highestRam)
      (bitmapBytesFor .release highestRam) :=
  (alignUp_agrees _ _).bind fun _ _ => .refl _

theorem Bitmap.clearUsable_agrees (map : List Region) :
    Action.Agrees Eq (clearUsable .debug map)
      (clearUsable .release map) := by
  induction map with
  | nil => exact .pure _
  | cons region rest inductionHypothesis =>
      unfold clearUsable
      refine .ite ?_ inductionHypothesis
      refine .bind_lift region.wholeFrames_agrees fun span _ => ?_
      exact (writeRange_agrees false _ _).bind fun _ => inductionHypothesis

/-! ## The account of frames -/

namespace FrameTable

/-- The debug profile never looks beyond a 64-bit index. -/
theorem search_agrees
    (bitmap : Bitmap) (count cursor remaining run : Nat) :
    Agrees (search .debug bitmap count cursor remaining run)
      (search .release bitmap count cursor remaining run) := by
  induction remaining generalizing cursor run with
  | zero => exact .refl _
  | succ remaining inductionHypothesis =>
      unfold search
      refine (Profile.add_agrees cursor 1).bind fun next accepted => ?_
      refine (bitmap.get_agrees cursor).bind fun used _ => ?_
      refine .ite (inductionHypothesis next 0) ?_
      refine (Profile.add_agrees run 1).bind fun run _ => ?_
      refine .ite ?_ (inductionHypothesis next run)
      exact
        (Profile.sub_agrees (Profile.lt_of_fit accepted) count).bind
          fun _ _ => .refl _

theorem onBitmap_agrees
    {Value : Type} {checked unchecked : Action Bitmap Value}
    (agrees : Action.Agrees Eq checked unchecked) :
    Action.Agrees Eq (onBitmap checked)
      (onBitmap unchecked) :=
  agrees.focus (fun _ _ same => congrArg bitmap same) <| by
    rintro value table _ bits _ rfl rfl
    rfl

theorem scan_agrees (count limit : Nat) :
    Action.Agrees Eq (scan .debug count limit)
      (scan .release count limit) := by
  unfold scan
  refine .bind_get ?_
  rintro table _ rfl
  refine .bind_lift (search_agrees _ _ _ _ _) fun found _ => ?_
  rcases found with ⟨first, cursor⟩
  refine .bind (.refl _) fun _ => ?_
  cases first with
  | none => exact .pure _
  | some first =>
      exact
        (onBitmap_agrees (Bitmap.writeRange_agrees true first cursor)).bind
          fun _ => .pure _

theorem claimRun_agrees (count : Nat) :
    Action.Agrees Eq (claimRun .debug count)
      (claimRun .release count) := by
  unfold claimRun
  refine .bind_get ?_
  rintro table _ rfl
  refine (scan_agrees count table.scanLimit).bind fun found => ?_
  cases found with
  | some first => exact .pure _
  | none =>
      refine .bind (.refl _) fun _ => ?_
      refine (scan_agrees count table.cursor).bind fun again => ?_
      cases again with
      | some first => exact .pure _
      | none => exact .bind (.refl _) fun _ => .pure _

theorem assertReleasable_agrees (table : FrameTable) (first count : Nat) :
    Agrees (table.assertReleasable .debug first count)
      (table.assertReleasable .release first count) :=
  .unit _

theorem release_agrees (first count : Nat) :
    Action.Agrees Eq (release .debug first count)
      (release .release first count) := by
  unfold release
  refine .bind_get ?_
  rintro table _ rfl
  refine .bind_lift (table.assertReleasable_agrees first count) fun _ _ => ?_
  exact
    (onBitmap_agrees (Bitmap.releaseFrom_agrees _ _ 0)).bind fun _ =>
      .refl _

end FrameTable

/-! ## Requests -/

namespace Machine

/-- The mapper in the books agrees. -/
def Wired (machine : Machine) : Prop :=
  machine.allocator.mapper.ProfilesAgree

/-- Two machines are the same, and their mapper agrees. -/
def SameWired (machine other : Machine) : Prop :=
  machine = other ∧ machine.Wired

theorem record_agrees (event : Event) :
    Action.Agrees SameWired (record event) (record event) := by
  refine .modify ?_
  rintro machine _ ⟨rfl, wired⟩
  exact ⟨rfl, wired⟩

theorem onTable_agrees
    {Value : Type} {checked unchecked : Action FrameTable Value}
    (agrees : Action.Agrees Eq checked unchecked) :
    Action.Agrees SameWired (onTable checked) (onTable unchecked) := by
  refine agrees.focus (fun _ _ same => congrArg table same.1) ?_
  rintro value machine _ part _ ⟨rfl, wired⟩ rfl
  exact ⟨rfl, wired⟩

theorem zeroFill_agrees (address : PhysicalAddress) (length : Nat) :
    Action.Agrees SameWired (zeroFill .debug address length)
      (zeroFill .release address length) := by
  unfold zeroFill
  refine .bind_get ?_
  rintro machine _ ⟨rfl, wired⟩
  exact
    .bind_lift (wired.zeroFill machine.memory address length) fun _ _ =>
      .set ⟨rfl, wired⟩

theorem addUsed_agrees (pages : Nat) :
    Action.Agrees SameWired (addUsed .debug pages)
      (addUsed .release pages) := by
  unfold addUsed
  refine .bind_get ?_
  rintro machine _ ⟨rfl, wired⟩
  exact
    .bind_lift (Profile.add_agrees _ pages) fun _ _ => .set ⟨rfl, wired⟩

/-- The steps of all requests agree in the two profiles. -/
theorem sameWired_simulates : Simulates SameWired .debug .release where
  record := record_agrees
  claimRun count := onTable_agrees (FrameTable.claimRun_agrees count)
  release first count := onTable_agrees (FrameTable.release_agrees first count)
  mul := Profile.mul_agrees
  zeroFill := zeroFill_agrees
  addUsed := addUsed_agrees
  toAccessible := by
    rintro machine _ ⟨rfl, wired⟩ address
    exact wired.toVirtual address
  fromAccessible := by
    rintro machine _ ⟨rfl, wired⟩ address
    exact wired.toPhysical address
  stats_eq same := congrArg stats same.1
  display := Stats.display_agrees
  isPageUsed_eq := by
    rintro machine _ ⟨rfl, -⟩ address
    rfl

end Machine

/-! ## Setting up -/

namespace Boot

theorem record_agrees (event : Event) :
    Action.Agrees Eq (record event) (record event) :=
  .refl _

theorem reserveFrameZero_agrees :
    Action.Agrees Eq (reserveFrameZero .debug) (reserveFrameZero .release) := by
  unfold reserveFrameZero
  refine .bind_get ?_
  rintro boot _ rfl
  refine .bind_lift (Region.allOffFrameZero_agrees boot.map) fun map _ => ?_
  refine .bind (.refl _) fun _ => ?_
  exact .bind_if (record_agrees _) (.pure _)

theorem placeBitmap_agrees
    {mapper : Mapper} (agree : mapper.ProfilesAgree)
    (bytes : Nat) (host : Host) :
    Action.Agrees Eq (placeBitmap .debug mapper bytes host)
      (placeBitmap .release mapper bytes host) := by
  unfold placeBitmap
  refine .bind_lift (agree.reach _) fun reached _ => ?_
  refine .bind_lift (Profile.mul_agrees bytes 8) fun bits _ => ?_
  cases Storage.bind reached bytes bits with
  | error refusal => exact .pure _
  | ok storage =>
      refine .bind (.refl _) fun _ => ?_
      refine .bind_lift (host.region.consumeFront_agrees _) fun carved _ => ?_
      exact .bind (.refl _) fun _ => .pure _

theorem onMemory_agrees
    (storage : Storage) {checked unchecked : Action Bitmap Unit}
    (agrees : Action.Agrees Eq checked unchecked) :
    Action.Agrees Eq (onMemory (storage.onBitmap checked))
      (onMemory (storage.onBitmap unchecked)) := by
  have onStorage :
      Action.Agrees Eq (storage.onBitmap checked)
        (storage.onBitmap unchecked) := by
    refine agrees.focus (fun _ _ same => congrArg storage.load same) ?_
    rintro value memory _ bitmap _ rfl rfl
    rfl
  refine onStorage.focus (fun _ _ same => congrArg Boot.memory same) ?_
  rintro value boot _ memory _ rfl rfl
  rfl

theorem markFree_agrees (storage : Storage) :
    Action.Agrees Eq (markFree .debug storage) (markFree .release storage) := by
  unfold markFree
  refine .bind_get ?_
  rintro boot _ rfl
  exact
    (onMemory_agrees storage (Bitmap.clearUsable_agrees boot.map)).bind
      fun _ => onMemory_agrees storage (Bitmap.write_agrees true 0)

theorem withAllocator_agrees
    {Value : Type} {allocator : Allocator}
    (agree : allocator.mapper.ProfilesAgree)
    {checked unchecked : Action Machine Value}
    (agrees : Action.Agrees Machine.SameWired checked unchecked) :
    Action.Agrees Eq (withAllocator allocator checked)
      (withAllocator allocator unchecked) := by
  refine agrees.focus ?_ ?_
  · rintro boot _ rfl
    exact ⟨rfl, agree⟩
  · rintro value boot _ machine _ rfl ⟨rfl, -⟩
    rfl

/-- The steps of setting up agree in the two profiles. -/
theorem eq_simulates {mapper : Mapper} (agree : mapper.ProfilesAgree) :
    Simulates (fun _ => Eq) mapper .debug .release where
  map_eq same := congrArg map same
  census := Census.take_agrees
  add := Profile.add_agrees
  bitmapBytesFor := bitmapBytesFor_agrees
  toVirtual := agree.toVirtual
  record _ := record_agrees
  reserveFrameZero := reserveFrameZero_agrees
  placeBitmap := placeBitmap_agrees agree
  markFree := markFree_agrees
  info := by
    rintro storage allocator - rfl
    exact withAllocator_agrees agree Machine.sameWired_simulates.info

end Boot

end BootMemory
