import BootMemory.Proofs.Frames.Completeness

/-!
# Asking until memory runs out

A request for one frame cannot miss a free one, wherever the cursor stands: the
two searches together look at every frame, and a single frame has no inside for
the cursor to be in.  So each such request takes one frame off the clear ones,
and the first that is refused finds none left.

`Machine.Exhausts` is the account of a whole sequence of requests.  By
`Ledger.BitsAccounted.allocateAll_exhausts` every sequence of requests for one
frame each has it, and `Ledger.Reachable.drains_clear_frames` says so of every
ledger of a contract-keeping run: the clear frames are handed out, each once, and
what is asked for beyond them is refused.
-/

namespace BootMemory

/-- A size that takes up one frame, or a part of it. -/
def OneFrame (size : UInt64) : Prop :=
  0 < size.toNat ∧ size.toNat ≤ frameSize

theorem OneFrame.framesFor_eq {size : UInt64} (single : OneFrame size) :
    framesFor size.toNat = 1 := by
  rcases single with ⟨positive, small⟩
  simp only [framesFor, frameSize] at small ⊢
  omega

theorem OneFrame.ne_zero {size : UInt64} (single : OneFrame size) :
    size ≠ 0 := by
  rintro rfl
  exact absurd single.1 (Nat.lt_irrefl 0)

namespace Machine

variable {offset : UInt64} {machine middle later : Machine}
  {frame requests : Nat} {frames : List Nat}

/-- Allocate memory of several sizes, one after the other. -/
def allocateAll (profile : Profile) (sizes : List UInt64) :
    Action Machine (List (Except AllocError PhysicalAddress)) :=
  sizes.mapM (allocate profile)

/-- The answers to requests of which the first ones are granted a frame each. -/
def answersFor (frames : List Nat) (requests : Nat) :
    List (Except AllocError PhysicalAddress) :=
  frames.map (fun frame => .ok (Address.ofFrame frame)) ++
    List.replicate (requests - frames.length) (.error (.outOfMemory 1))

/-- Who asks several times gets the first answer, and then the others. -/
theorem allocateAll_cons_ok_iff
    {profile : Profile} {size : UInt64} {sizes : List UInt64}
    {answer : Except AllocError PhysicalAddress}
    {answers : List (Except AllocError PhysicalAddress)} :
    machine.allocateAll profile (size :: sizes) =
        .ok (answer :: answers) later ↔
      ∃ middle, machine.allocate profile size = .ok answer middle ∧
        middle.allocateAll profile sizes = .ok answers later := by
  rw [allocateAll, List.mapM_cons]
  constructor
  · intro ran
    rcases Action.exists_of_bind_ok ran with ⟨first, middle, asked, others⟩
    rcases Action.exists_of_bind_ok others with ⟨rest, last, answered, done⟩
    cases done
    exact ⟨middle, asked, answered⟩
  · rintro ⟨middle, asked, answered⟩
    rw [Action.bind_of_ok asked]
    exact Action.bind_of_ok answered

theorem answersFor_cons (frame : Nat) (frames : List Nat) (requests : Nat) :
    answersFor (frame :: frames) (requests + 1) =
      .ok (Address.ofFrame frame) :: answersFor frames requests := by
  simp [answersFor]

theorem answersFor_nil_succ (requests : Nat) :
    answersFor [] (requests + 1) =
      .error (.outOfMemory 1) :: answersFor [] requests := rfl

/--
The frames that a number of requests for one frame each is granted: clear ones,
none of them twice, and as many as there are.
-/
structure Exhausts
    (machine : Machine) (requests : Nat) (frames : List Nat)
    (later : Machine) : Prop where
  nodup : frames.Nodup
  was_clear : ∀ frame ∈ frames, frame ∈ machine.clearFrames
  length_eq : frames.length = min requests machine.clearFrames.card
  left : later.clearFrames = machine.clearFrames \ frames.toFinset

namespace Exhausts

/-- One request takes one clear frame, and the others go on from there. -/
theorem cons
    (clear : frame ∈ machine.clearFrames)
    (taken : middle.clearFrames = machine.clearFrames.erase frame)
    (rest : middle.Exhausts requests frames later) :
    machine.Exhausts (requests + 1) (frame :: frames) later where
  nodup := by
    refine List.nodup_cons.mpr ⟨?_, rest.nodup⟩
    intro again
    have still := rest.was_clear frame again
    rw [taken] at still
    exact Finset.notMem_erase frame machine.clearFrames still
  was_clear := by
    intro other member
    rcases List.mem_cons.mp member with rfl | later
    · exact clear
    · have still := rest.was_clear other later
      rw [taken] at still
      exact Finset.mem_of_mem_erase still
  length_eq := by
    have positive := Finset.card_pos.mpr ⟨frame, clear⟩
    have length := rest.length_eq
    rw [taken, Finset.card_erase_of_mem clear] at length
    rw [List.length_cons]
    omega
  left := by
    rw [rest.left, taken, List.toFinset_cons, Finset.insert_eq,
      ← Finset.sup_eq_union, ← sdiff_sdiff_left, Finset.erase_eq]

/-- Without a clear frame no request is granted one. -/
theorem of_empty
    (none : machine.clearFrames = ∅) (same : later.clearFrames = ∅)
    (requests : Nat) : machine.Exhausts requests [] later where
  nodup := List.nodup_nil
  was_clear := nofun
  length_eq := by
    rw [none, Finset.card_empty, Nat.min_zero, List.length_nil]
  left := by
    rw [same, none, Finset.empty_sdiff]

/-- Enough requests are granted all of the clear frames. -/
theorem mem_iff
    (exhausts : machine.Exhausts requests frames later)
    (enough : machine.clearFrames.card ≤ requests) :
    frame ∈ frames ↔ frame ∈ machine.clearFrames := by
  have subset : frames.toFinset ⊆ machine.clearFrames := by
    intro other member
    exact exhausts.was_clear other (List.mem_toFinset.mp member)
  have many : machine.clearFrames.card ≤ frames.toFinset.card := by
    rw [List.toFinset_card_of_nodup exhausts.nodup, exhausts.length_eq]
    exact Nat.le_min.mpr ⟨enough, Nat.le_refl _⟩
  rw [← Finset.eq_of_subset_of_card_le subset many, List.mem_toFinset]

end Exhausts

end Machine

namespace Ledger

variable {profile : Profile} {offset : UInt64} {map : List Region}
  {ledger : Ledger}

/-- Granting a free run takes its frames off the clear ones. -/
theorem BitsAccounted.clearFrames_take
    (account : ledger.BitsAccounted offset map) (mapSound : SoundMap map)
    {first count : Nat}
    (inside : first + count ≤ ledger.machine.allocator.frameLimit)
    (free : ledger.machine.table.bitmap.FreeRun first count)
    (wrapped : Bool) :
    (ledger.machine.grant offset first count wrapped).clearFrames =
      ledger.machine.clearFrames \ Finset.Ico first (first + count) := by
  have covered := account.fits.covered
  apply Machine.clearFrames_grant account.fits.placed covered inside
  intro frame lower upper
  have clear := free frame lower upper
  exact account.apart mapSound ((account.clear_iff frame (by omega)).mp clear).1

/-- Granting a run of one frame takes that frame off the clear ones. -/
theorem BitsAccounted.clearFrame_take
    (account : ledger.BitsAccounted offset map) (mapSound : SoundMap map)
    {frame : Nat} (inside : frame + 1 ≤ ledger.machine.allocator.frameLimit)
    (free : ledger.machine.table.bitmap.FreeRun frame 1) (wrapped : Bool) :
    frame ∈ ledger.machine.clearFrames ∧
      (ledger.machine.grant offset frame 1 wrapped).clearFrames =
        ledger.machine.clearFrames.erase frame := by
  have clear := free frame (Nat.le_refl _) (Nat.lt_succ_self _)
  refine ⟨Machine.mem_clearFrames.mpr ⟨inside, clear⟩, ?_⟩
  rw [account.clearFrames_take mapSound inside free, Nat.Ico_succ_singleton,
    Finset.erase_eq]

/-- A request for one frame takes a clear one, or there is none. -/
theorem BitsAccounted.frame_request
    (account : ledger.BitsAccounted offset map) (mapSound : SoundMap map)
    (profile : Profile) {size : UInt64} (single : OneFrame size) :
    (∃ frame machine,
      frame ∈ ledger.machine.clearFrames ∧
        machine.clearFrames = ledger.machine.clearFrames.erase frame ∧
        ledger.machine.allocate profile size =
          .ok (.ok (Address.ofFrame frame)) machine) ∨
    (ledger.machine.clearFrames = ∅ ∧
      ledger.machine.allocate profile size =
        .ok (.error (.outOfMemory 1))
          (ledger.machine.refuse 1 size.toNat)) := by
  have ordered := account.cursor_le
  have outcome :=
    Machine.allocate_outcome (account.runsGrantable mapSound) profile
      single.ne_zero
  rw [single.framesFor_eq, account.fits.scanLimit_eq] at outcome
  rcases outcome with
    ⟨first, found, granted⟩ |
      ⟨ahead, ⟨first, found, granted⟩ | ⟨behind, refused⟩⟩
  · rcases account.clearFrame_take mapSound found.le_stop found.free false with
      ⟨clear, taken⟩
    exact Or.inl ⟨first, _, clear, taken, granted⟩
  · have inside := Nat.le_trans found.le_stop ordered
    rcases account.clearFrame_take mapSound inside found.free true with
      ⟨clear, taken⟩
    exact Or.inl ⟨first, _, clear, taken, granted⟩
  · refine Or.inr ⟨Finset.eq_empty_of_forall_notMem ?_, refused⟩
    -- A clear frame would be a run of one, ahead of the cursor or behind it.
    intro frame member
    rcases Machine.mem_clearFrames.mp member with ⟨below, clear⟩
    have free : ledger.machine.table.bitmap.FreeRun frame 1 := by
      intro other lower upper
      have same : other = frame := by omega
      rw [same]
      exact clear
    by_cases later : ledger.machine.allocator.cursor ≤ frame
    · exact ahead frame later below free
    · exact behind frame (Nat.zero_le _) (by omega) free

/-- Requests for one frame each are granted the clear frames one by one. -/
theorem BitsAccounted.allocateAll_exhausts
    (account : ledger.BitsAccounted offset map) (mapSound : SoundMap map)
    (profile : Profile) (sizes : List UInt64)
    (single : ∀ size ∈ sizes, OneFrame size) :
    ∃ frames later,
      ledger.machine.allocateAll profile sizes =
          .ok (Machine.answersFor frames sizes.length) later ∧
        ledger.machine.Exhausts sizes.length frames later := by
  induction sizes generalizing ledger with
  | nil =>
      refine ⟨[], ledger.machine, rfl, List.nodup_nil, nofun, ?_, ?_⟩
      · exact (Nat.zero_min _).symm
      · exact (Finset.sdiff_empty).symm
  | cons size rest inductionHypothesis =>
      have others : ∀ size ∈ rest, OneFrame size := fun size member =>
        single size (List.mem_cons_of_mem _ member)
      have first := single size List.mem_cons_self
      rcases account.frame_request mapSound profile first with
        ⟨frame, machine, clear, taken, granted⟩ | ⟨none, refused⟩
      · have next := account.granted mapSound first.ne_zero granted
        rcases inductionHypothesis next others with
          ⟨frames, later, ran, exhausts⟩
        refine ⟨frame :: frames, later, ?_, exhausts.cons clear taken⟩
        rw [List.length_cons, Machine.answersFor_cons]
        exact Machine.allocateAll_cons_ok_iff.mpr ⟨machine, granted, ran⟩
      · have next :=
          account.withLog (ledger.machine.refuse 1 size.toNat).log
        rcases inductionHypothesis next others with
          ⟨frames, later, ran, exhausts⟩
        have kept :
            (ledger.machine.refuse 1 size.toNat).clearFrames = ∅ := none
        have ungranted : frames = [] :=
          List.eq_nil_iff_forall_not_mem.mpr fun frame member =>
            Finset.notMem_empty frame
              (kept ▸ exhausts.was_clear frame member)
        have left := exhausts.left
        subst ungranted
        rw [List.toFinset_nil, Finset.sdiff_empty] at left
        refine ⟨[], later, ?_, .of_empty none (left.trans kept) _⟩
        rw [List.length_cons, Machine.answersFor_nil_succ]
        exact Machine.allocateAll_cons_ok_iff.mpr ⟨_, refused, ran⟩

/--
Wherever the cursor stands, any number of requests for one frame each are
granted clear frames, none of them twice, until the clear frames are used up,
and all further requests are refused.
-/
theorem Reachable.drains_clear_frames
    (mapSound : SoundMap map) (reaches : DirectMap.Reaches ⟨offset⟩ map)
    (reachable : Reachable profile offset map ledger)
    (sizes : List UInt64) (single : ∀ size ∈ sizes, OneFrame size) :
    ∃ frames later,
      ledger.machine.allocateAll profile sizes =
          .ok (Machine.answersFor frames sizes.length) later ∧
        ledger.machine.Exhausts sizes.length frames later ∧
        (ledger.machine.clearFrames.card ≤ sizes.length →
          ∀ frame, frame ∈ frames ↔
            frame < ledger.machine.allocator.frameLimit ∧
              ledger.machine.table.bitmap.bit frame = false) := by
  rcases (reachable.accounted mapSound reaches).allocateAll_exhausts mapSound
    profile sizes single with ⟨frames, later, ran, exhausts⟩
  refine ⟨frames, later, ran, exhausts, ?_⟩
  intro enough frame
  rw [exhausts.mem_iff enough, Machine.mem_clearFrames]

end Ledger

namespace Sample

/--
On the sample frames 2 and 3 are free, with the cursor between them.  Of three
requests two are granted these frames.
-/
theorem split_run_drained :
    SoundMap gapMap ∧ DirectMap.Reaches ⟨offset⟩ gapMap ∧
      (∀ size ∈ [1, 4096, 4000], OneFrame size) ∧
        ∃ ledger, Ledger.Reachable .debug offset gapMap ledger ∧
          ledger.machine.allocator.cursor = 3 ∧
            ∃ (frames : List Nat) (later : Machine),
              ledger.machine.allocateAll .debug [1, 4096, 4000] =
                  .ok
                    (frames.map (fun frame => .ok (Address.ofFrame frame)) ++
                      [.error (.outOfMemory 1)])
                    later ∧
                frames.Nodup ∧
                  ∀ frame, frame ∈ frames ↔ frame = 2 ∨ frame = 3 := by
  have single : ∀ size ∈ [1, 4096, 4000], OneFrame size := by
    simp only [List.forall_mem_cons, List.not_mem_nil, false_imp_iff,
      implies_true, and_true]
    exact ⟨⟨by decide, by decide⟩, ⟨by decide, by decide⟩, by decide, by decide⟩
  rcases exists_split_run with ⟨ledger, state⟩
  rcases
    Ledger.Reachable.drains_clear_frames gapMap_sound gapMap_reaches
      state.reachable [1, 4096, 4000] single with
    ⟨frames, later, ran, exhausts, all⟩
  have free : ledger.machine.clearFrames = {2, 3} := by
    ext frame
    rw [Machine.mem_clearFrames, state.limit, Finset.mem_insert,
      Finset.mem_singleton]
    constructor
    · rintro ⟨below, clear⟩
      exact (state.split_clear_iff below).mp clear
    · intro named
      have below : frame < 6 := by omega
      exact ⟨below, (state.split_clear_iff below).mpr named⟩
  have count : ledger.machine.clearFrames.card = 2 := by
    rw [free]
    decide
  have length : frames.length = 2 := by
    rw [exhausts.length_eq, count]
    decide
  refine
    ⟨gapMap_sound, gapMap_reaches, single, ledger, state.reachable,
      state.cursor_eq, frames, later, ?_, exhausts.nodup, ?_⟩
  · rw [ran, Machine.answersFor, length]
    rfl
  · intro frame
    rw [all (by rw [count]; decide), ← Machine.mem_clearFrames, free,
      Finset.mem_insert, Finset.mem_singleton]

end Sample

end BootMemory
