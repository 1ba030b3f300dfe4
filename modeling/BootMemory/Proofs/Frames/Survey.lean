import BootMemory.Frames.Survey
import BootMemory.Proofs.Frames.Drain
import BootMemory.Proofs.Frames.Ownership
import BootMemory.Proofs.Listing

/-!
# Surveys tell of all frames

The survey of an interval shows exactly those of its frames of which
`isPageUsed` says that they are in use, with a gap between any two of the runs
that it shows.

A drain makes as many requests as there are frames, and one more.  Each request
that is granted leaves fewer clear frames, so by `Ledger.Reachable.drain_refused`
nothing but a refusal ends a drain.

Asking until a refusal is asking as often as that takes, which is how
`Machine.drainUpTo_of_allocateAll` reads the outcome off the answers to that many
requests.  They are known where each request is for one frame, from
`Ledger.BitsAccounted.allocateAll_exhausts`; by `Ledger.Reachable.drain_complete`
such a drain hands out every available frame, each once.
-/

namespace BootMemory

namespace Machine

variable {profile : Profile} {machine later : Machine} {size : UInt64}

/-! ## Frames in use -/

/-- Surveys and single questions tell the same of a frame. -/
theorem isFrameUsed_table (machine : Machine) (frame : Nat) :
    isFrameUsed machine.table.bitmap frame =
      machine.isPageUsed (Address.ofFrame frame) := rfl

/-- A survey shows the frames of its interval that are in use. -/
theorem mem_usedRuns_iff {first stop frame : Nat} :
    (∃ run ∈ machine.usedRuns first stop,
      run.first ≤ frame ∧ frame < run.stop) ↔
      (first ≤ frame ∧ frame < stop) ∧
        machine.isPageUsed (Address.ofFrame frame) = true := by
  rw [usedRuns, Listing.mem_intervals_iff, List.mem_filter,
    List.mem_range'_1, isFrameUsed_table]
  have interval :
      (first ≤ frame ∧ frame < first + (stop - first)) ↔
        first ≤ frame ∧ frame < stop := by
    omega
  rw [interval]

/-- Between two runs that a survey shows there is a frame that is not in use. -/
theorem gap_usedRuns (machine : Machine) (first stop : Nat) :
    (machine.usedRuns first stop).Pairwise fun earlier later =>
      earlier.stop < later.first :=
  Listing.gap_intervals ((List.pairwise_lt_range' _).filter _)

/-- A frame with a bit is in use exactly if that bit is set. -/
theorem isPageUsed_ofFrame
    {frame : Nat} (small : frame < frameCount)
    (inside : frame < machine.table.bitmap.bits) :
    machine.isPageUsed (Address.ofFrame frame) =
      machine.table.bitmap.bit frame := by
  rw [isPageUsed, Address.frame_ofFrame_of_lt small, Bitmap.tryGet,
    if_pos inside]

/-! ## Asking until memory runs out -/

theorem drainUpTo_succ_of_ok
    {middle : Machine} {address : PhysicalAddress} {most : Nat}
    {drained : Drained} (proper : address ≠ Address.null)
    (granted : machine.allocate profile size = .ok (.ok address) middle)
    (rest : middle.drainUpTo profile size most = .ok drained later) :
    machine.drainUpTo profile size (most + 1) =
      .ok { drained with addresses := address :: drained.addresses } later := by
  rw [drainUpTo, Action.bind_of_ok granted]
  dsimp only
  rw [if_neg (by rwa [Address.isNull_iff]), Action.bind_of_ok rest]
  rfl

theorem drainUpTo_succ_of_error
    {refusal : AllocError}
    (refused : machine.allocate profile size = .ok (.error refusal) later)
    (most : Nat) :
    machine.drainUpTo profile size (most + 1) =
      .ok ⟨[], some refusal⟩ later := by
  rw [drainUpTo, Action.bind_of_ok refused]
  rfl

/-- Asking for nothing yields nothing. -/
theorem drain_zero (profile : Profile) (machine : Machine) :
    machine.drain profile 0 = .ok ⟨[], none⟩ machine := by
  rw [drain, Action.bind_get, drainUpTo,
    Action.bind_of_ok (allocate_zero profile machine)]
  rfl

/-- Asking until a refusal is asking as often as that takes. -/
theorem drainUpTo_of_allocateAll
    {addresses : List PhysicalAddress} {refusal : AllocError} {most : Nat}
    (named : ∀ address ∈ addresses, address ≠ Address.null)
    (enough : addresses.length < most)
    (ran :
      machine.allocateAll profile
          (List.replicate (addresses.length + 1) size) =
        .ok (addresses.map .ok ++ [.error refusal]) later) :
    machine.drainUpTo profile size most =
      .ok ⟨addresses, some refusal⟩ later := by
  induction addresses generalizing machine most with
  | nil =>
      rcases most with _ | most
      · cases enough
      rcases allocateAll_cons_ok_iff.mp ran with ⟨middle, refused, rest⟩
      cases rest
      exact drainUpTo_succ_of_error refused most
  | cons address rest inductionHypothesis =>
      rcases most with _ | most
      · cases enough
      rcases List.forall_mem_cons.mp named with ⟨proper, others⟩
      rcases allocateAll_cons_ok_iff.mp ran with ⟨middle, granted, asked⟩
      exact
        drainUpTo_succ_of_ok proper granted
          (inductionHypothesis others (Nat.lt_of_succ_lt_succ enough) asked)

end Machine

namespace Ledger

variable {profile : Profile} {offset : UInt64} {map : List Region}
  {ledger : Ledger}

/-- There are fewer clear frames than a drain makes requests. -/
theorem card_clearFrames_lt (machine : Machine) :
    machine.clearFrames.card < machine.allocator.frameLimit + 1 :=
  Nat.lt_succ_of_le
    ((Finset.card_filter_le _ _).trans_eq (Finset.card_range _))

/-- A request that is granted leaves fewer clear frames. -/
theorem BitsAccounted.card_clearFrames_granted_lt
    (account : ledger.BitsAccounted offset map) (mapSound : SoundMap map)
    {size : UInt64} {address : PhysicalAddress} {machine : Machine}
    (nonzero : size ≠ 0)
    (granted :
      ledger.machine.allocate profile size = .ok (.ok address) machine) :
    machine.clearFrames.card < ledger.machine.clearFrames.card := by
  have positive := framesFor_pos (Machine.toNat_pos_of_ne_zero nonzero)
  rcases account.granted_run mapSound nonzero granted with
    ⟨first, wrapped, -, rfl, inside, free⟩
  have run := Machine.ico_subset_clearFrames inside free
  have counted := Finset.card_le_card run
  rw [Nat.card_Ico] at counted
  rw [account.clearFrames_take mapSound inside free,
    Finset.card_sdiff_of_subset run, Nat.card_Ico]
  omega

/-- More requests than there are clear frames end with a refusal. -/
theorem BitsAccounted.drainUpTo_refused
    (account : ledger.BitsAccounted offset map) (mapSound : SoundMap map)
    (profile : Profile) {size : UInt64} (nonzero : size ≠ 0) {most : Nat}
    (enough : ledger.machine.clearFrames.card < most) :
    ∃ addresses refusal later,
      ledger.machine.drainUpTo profile size most =
        .ok ⟨addresses, some refusal⟩ later := by
  induction most generalizing ledger with
  | zero => cases enough
  | succ most inductionHypothesis =>
      rcases (account.runsGrantable mapSound).answers profile size with
        ⟨_ | address, machine, answered⟩
      · exact ⟨[], _, machine, Machine.drainUpTo_succ_of_error answered most⟩
      · have next := account.granted mapSound nonzero answered
        have fewer :=
          account.card_clearFrames_granted_lt mapSound nonzero answered
        rcases
          inductionHypothesis next
            (Nat.lt_of_lt_of_le fewer (Nat.le_of_lt_succ enough)) with
          ⟨addresses, refusal, later, drained⟩
        exact
          ⟨address :: addresses, refusal, later,
            Machine.drainUpTo_succ_of_ok
              (next.address_ne_null List.mem_cons_self) answered drained⟩

/-- Whatever the size, only a refusal ends a drain. -/
theorem Reachable.drain_refused
    (mapSound : SoundMap map) (reaches : DirectMap.Reaches ⟨offset⟩ map)
    (reachable : Reachable profile offset map ledger)
    {size : UInt64} (nonzero : size ≠ 0) :
    ∃ addresses refusal later,
      ledger.machine.drain profile size =
        .ok ⟨addresses, some refusal⟩ later := by
  rw [Machine.drain, Action.bind_get]
  exact
    (reachable.accounted mapSound reaches).drainUpTo_refused mapSound profile
      nonzero (card_clearFrames_lt ledger.machine)

/-! ## Asking for single frames -/

/-- A drain by single frames hands out the clear frames. -/
theorem BitsAccounted.drain_exhausts
    (account : ledger.BitsAccounted offset map) (mapSound : SoundMap map)
    (profile : Profile) {size : UInt64} (single : OneFrame size) :
    ∃ (frames : List Nat) (later : Machine),
      ledger.machine.drain profile size =
          .ok ⟨frames.map Address.ofFrame, some (.outOfMemory 1)⟩ later ∧
        ledger.machine.Exhausts (ledger.machine.clearFrames.card + 1) frames
          later := by
  have sizes :
      ∀ other ∈ List.replicate (ledger.machine.clearFrames.card + 1) size,
        OneFrame other := by
    intro other member
    rw [List.eq_of_mem_replicate member]
    exact single
  rcases account.allocateAll_exhausts mapSound profile _ sizes with
    ⟨frames, later, ran, exhausts⟩
  rw [List.length_replicate] at ran exhausts
  have length := exhausts.length_eq
  rw [Nat.min_eq_right (Nat.le_succ _)] at length
  have named : ∀ address ∈ frames.map Address.ofFrame,
      address ≠ Address.null := by
    intro address member
    rcases List.mem_map.mp member with ⟨frame, listed, rfl⟩
    rcases Machine.mem_clearFrames.mp (exhausts.was_clear frame listed) with
      ⟨below, clear⟩
    have covered := account.fits.covered
    have lends := ((account.clear_iff frame (by omega)).mp clear).1
    exact
      Address.ofFrame_ne_null
        (account.fits.placed.lt_frameCount below) lends.1
  refine ⟨frames, later, ?_, exhausts⟩
  rw [Machine.drain, Action.bind_get]
  apply Machine.drainUpTo_of_allocateAll named
  · rw [List.length_map, length]
    exact card_clearFrames_lt ledger.machine
  · rw [List.length_map, length, ran, Machine.answersFor, length,
      Nat.add_sub_cancel_left, List.map_map]
    rfl

/--
A drain by single frames hands out each frame that a survey shows to be
available, once, and goes on until nothing else is.
-/
theorem Reachable.drain_complete
    (mapSound : SoundMap map) (reaches : DirectMap.Reaches ⟨offset⟩ map)
    (reachable : Reachable profile offset map ledger)
    {size : UInt64} (single : OneFrame size) :
    ∃ (frames : List Nat) (later : Machine),
      ledger.machine.drain profile size =
          .ok ⟨frames.map Address.ofFrame, some (.outOfMemory 1)⟩ later ∧
        frames.Nodup ∧
        (∀ frame, frame ∈ frames ↔
          frame < ledger.machine.allocator.frameLimit ∧
            ledger.machine.isPageUsed (Address.ofFrame frame) = false) ∧
        later.clearFrames = ∅ := by
  have account := reachable.accounted mapSound reaches
  have covered := account.fits.covered
  rcases account.drain_exhausts mapSound profile single with
    ⟨frames, later, drained, exhausts⟩
  have all : ∀ frame,
      frame ∈ frames ↔ frame ∈ ledger.machine.clearFrames := fun frame =>
    exhausts.mem_iff (Nat.le_succ _)
  refine ⟨frames, later, drained, exhausts.nodup, ?_, ?_⟩
  · intro frame
    rw [all, Machine.mem_clearFrames]
    refine and_congr_right fun below => ?_
    rw [Machine.isPageUsed_ofFrame (account.fits.placed.lt_frameCount below)
      (Nat.lt_of_lt_of_le below covered)]
  · rw [exhausts.left, Finset.sdiff_eq_empty_iff_subset]
    intro frame clear
    exact List.mem_toFinset.mpr ((all frame).mpr clear)

end Ledger

end BootMemory
