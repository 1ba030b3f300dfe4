import BootMemory.Proofs.Frames.Arises
import BootMemory.Proofs.Frames.Completeness

/-!
# The order of releases

A release clears bits, takes those that were set off the used pages, and may
move the cursor back.  Two releases do this in either order with one outcome:
each bit is cleared by the first that names it, both together count the union
of what they find set, and the cursor stops at the lowest of the three frames.
`FrameTable.giveBack_comm` says so, and `FrameTable.giveBack_add` says the same
of a release that is split in two.

Neither order is stopped where the other is not.  The debug profile accepts a
release after another one if it would accept it before, and they share no
frame; which one comes first does not matter.

`Machine.Interchangeable` compares actions whose outcomes differ in the log
alone, so that no later call tells them apart.  `Arises.releases_interchange`
is the result for whole sequences of releases of any machine that calls lead
to, whatever is given back.
-/

namespace BootMemory

/-! ## Frame tables -/

namespace FrameTable

variable {profile : Profile} {table : FrameTable}
  {first count other extent : Nat}

/-- What a release has cleared is not counted again. -/
theorem released_giveBack :
    (table.giveBack first count).released other extent =
      table.released other extent \ table.released first count := by
  ext frame
  rw [Finset.mem_sdiff, mem_released, mem_released, mem_released]
  by_cases named : Names first count frame
  · rw [bit_giveBack_of_names table named]
    simp [named]
  · rw [bit_giveBack_of_not_names table named]
    simp [named]

/-- Two releases count what either of them finds set. -/
theorem usedPages_giveBack_giveBack :
    ((table.giveBack first count).giveBack other extent).usedPages =
      table.usedPages -
        (table.released other extent ∪ table.released first count).card := by
  rw [usedPages_giveBack, usedPages_giveBack, released_giveBack, Nat.sub_sub,
    Nat.add_comm, Finset.card_sdiff_add_card]

/-- A table is determined by the bits of its buffer and its numbers. -/
theorem ext_bufferBit
    {left right : FrameTable}
    (bits : left.bitmap.bits = right.bitmap.bits)
    (size : left.bitmap.bytes.size = right.bitmap.bytes.size)
    (same : ∀ index,
      Bitmap.bufferBit left.bitmap.bytes index =
        Bitmap.bufferBit right.bitmap.bytes index)
    (limit : left.frameLimit = right.frameLimit)
    (cursor : left.cursor = right.cursor)
    (pages : left.usedPages = right.usedPages) : left = right := by
  have bitmap : left.bitmap = right.bitmap :=
    Bitmap.ext_bufferBit bits size fun index _ => same index
  cases left
  cases right
  simp_all

/-- The order of two releases does not matter. -/
theorem giveBack_comm :
    (table.giveBack first count).giveBack other extent =
      (table.giveBack other extent).giveBack first count := by
  apply ext_bufferBit
  · simp
  · simp
  · intro index
    simp only [bufferBit_giveBack, bits_giveBack]
    split_ifs <;> rfl
  · rfl
  · simp only [cursor_giveBack]
    split_ifs <;> omega
  · rw [usedPages_giveBack_giveBack, usedPages_giveBack_giveBack,
      Finset.union_comm]

/-- The second part of a split release names what the first one does not. -/
theorem names_add_iff {frame : Nat} :
    Names first (count + extent) frame ↔
      Names first count frame ∨ Names (first + count) extent frame := by
  unfold Names releaseStart runStop
  omega

theorem released_add :
    table.released first (count + extent) =
      table.released (first + count) extent ∪ table.released first count := by
  ext frame
  rw [Finset.mem_union, mem_released, mem_released, mem_released,
    names_add_iff, or_and_right, or_comm]

/-- A release can be split in two. -/
theorem giveBack_add :
    table.giveBack first (count + extent) =
      (table.giveBack first count).giveBack (first + count) extent := by
  apply ext_bufferBit
  · simp
  · simp
  · intro index
    simp only [bufferBit_giveBack, bits_giveBack, names_add_iff]
    split_ifs <;> first | rfl | tauto
  · rfl
  · simp only [cursor_giveBack]
    split_ifs <;> omega
  · rw [usedPages_giveBack_giveBack, usedPages_giveBack, released_add]

/-! ## Which releases are accepted -/

/-- A release leaves those acceptable that share no frame with it. -/
theorem releasable_giveBack_iff :
    (table.giveBack first count).Releasable other extent ↔
      table.Releasable other extent ∧
        ∀ frame, other ≤ frame → frame < runStop other extent →
          ¬ Names first count frame := by
  constructor
  · intro releasable
    have apart : ∀ frame, other ≤ frame → frame < runStop other extent →
        ¬ Names first count frame := by
      intro frame lower upper named
      have held := releasable.held frame lower upper
      rw [bit_giveBack_of_names table named] at held
      cases held
    refine ⟨⟨?_, releasable.nonzero, ?_⟩, apart⟩
    · simpa using releasable.inside
    · intro frame lower upper
      rw [← bit_giveBack_of_not_names table (apart frame lower upper)]
      exact releasable.held frame lower upper
  · rintro ⟨releasable, apart⟩
    refine ⟨?_, releasable.nonzero, ?_⟩
    · simpa using releasable.inside
    · intro frame lower upper
      rw [bit_giveBack_of_not_names table (apart frame lower upper)]
      exact releasable.held frame lower upper

/-- Releases that are accepted in one order are accepted in the other. -/
theorem Accepts.swap
    (one : table.Accepts profile first count)
    (next : (table.giveBack first count).Accepts profile other extent) :
    table.Accepts profile other extent ∧
      (table.giveBack other extent).Accepts profile first count := by
  rcases one with unchecked | firstHeld
  · exact ⟨.inl unchecked, .inl unchecked⟩
  rcases next with unchecked | nextHeld
  · exact ⟨.inl unchecked, .inl unchecked⟩
  rcases releasable_giveBack_iff.mp nextHeld with ⟨otherHeld, apart⟩
  refine ⟨.inr otherHeld, .inr (releasable_giveBack_iff.mpr ⟨firstHeld, ?_⟩)⟩
  -- Frame zero is no exception: a release that contains it is refused.
  intro frame lower upper named
  have nonzero := firstHeld.nonzero
  apply apart frame
  · exact Nat.le_trans (Nat.le_max_left other 1) named.1
  · exact named.2
  · refine ⟨?_, upper⟩
    unfold releaseStart
    omega

/-- A release is accepted if both of its parts are, one after the other. -/
theorem accepts_add_iff :
    table.Accepts profile first (count + extent) ↔
      table.Accepts profile first count ∧
        (table.giveBack first count).Accepts profile (first + count)
          extent := by
  by_cases unchecked : profile = .release
  · simp [Accepts, unchecked]
  simp only [Accepts, unchecked, false_or, releasable_giveBack_iff]
  -- Where the words end, the whole and its second part stop at one frame.
  have shorter :
      runStop first count ≤ runStop first (count + extent) := by
    unfold runStop
    omega
  have stop :
      runStop (first + count) extent = runStop first (count + extent) := by
    unfold runStop
    omega
  constructor
  · intro whole
    refine ⟨⟨?_, whole.nonzero, ?_⟩, ⟨?_, ?_, ?_⟩, ?_⟩
    · exact Nat.le_trans shorter whole.inside
    · intro frame lower upper
      exact whole.held frame lower (Nat.lt_of_lt_of_le upper shorter)
    · rw [stop]
      exact whole.inside
    · have nonzero := whole.nonzero
      omega
    · intro frame lower upper
      rw [stop] at upper
      exact whole.held frame (by omega) upper
    · rintro frame lower - ⟨-, upper⟩
      unfold runStop at upper
      omega
  · rintro ⟨left, right, -⟩
    refine ⟨?_, left.nonzero, ?_⟩
    · rw [← stop]
      exact right.inside
    · intro frame lower upper
      by_cases before : frame < first + count
      · apply left.held frame lower
        unfold runStop at upper ⊢
        omega
      · apply right.held frame (by omega)
        rw [stop]
        exact upper

end FrameTable

/-! ## Blocks in two parts -/

/-- The address a number of frames further on. -/
def Address.past (address : PhysicalAddress) (count : Nat) : PhysicalAddress :=
  ⟨address.value + UInt64.ofNat (count * frameSize)⟩

theorem Address.toNat_past
    {address : PhysicalAddress} {count : Nat}
    (room : address.value.toNat + count * frameSize < wordCount) :
    (address.past count).value.toNat =
      address.value.toNat + count * frameSize := by
  have small : count * frameSize < wordCount := by omega
  rw [past, UInt64.toNat_add, UInt64.toNat_ofNat', Nat.mod_eq_of_lt small,
    Nat.mod_eq_of_lt room]

theorem Address.frame_past
    {address : PhysicalAddress} {count : Nat}
    (room : address.value.toNat + count * frameSize < wordCount) :
    (address.past count).frame = address.frame + count := by
  rw [frame, toNat_past room, Nat.add_mul_div_right _ _ (by decide), frame]

namespace Block

/-- The block of a number of frames from an address on. -/
def spanning (address : PhysicalAddress) (count : Nat) : Block :=
  ⟨address, UInt64.ofNat (count * frameSize)⟩

theorem framesFor_spanning
    {count : Nat} (address : PhysicalAddress)
    (small : count * frameSize < wordCount) :
    framesFor (spanning address count).size.toNat = count := by
  rw [spanning, UInt64.toNat_ofNat', Nat.mod_eq_of_lt small, framesFor_mul]

theorem size_spanning_ne_zero
    {count : Nat} (address : PhysicalAddress) (positive : 0 < count)
    (small : count * frameSize < wordCount) :
    (spanning address count).size ≠ 0 := by
  intro zero
  have counted := framesFor_spanning address small
  rw [zero] at counted
  have none : framesFor (0 : UInt64).toNat = 0 := by decide
  omega

end Block

namespace Machine

variable {profile : Profile} {mapper : Mapper}
  {machine middle other later ending : Machine}

/-! ## Machines that differ in their log -/

/-- The same books and the same memory. -/
structure Matches (machine other : Machine) : Prop where
  books : machine.allocator = other.allocator
  memory : machine.memory = other.memory

namespace Matches

theorem refl (machine : Machine) : machine.Matches machine := ⟨rfl, rfl⟩

theorem symm (same : machine.Matches other) : other.Matches machine :=
  ⟨same.books.symm, same.memory.symm⟩

theorem trans
    (first : machine.Matches middle) (second : middle.Matches other) :
    machine.Matches other :=
  ⟨first.books.trans second.books, first.memory.trans second.memory⟩

theorem table_eq (same : machine.Matches other) :
    machine.table = other.table := by
  rw [table, table, same.books, same.memory]

theorem onTable {Value : Type} (action : Action FrameTable Value) :
    Action.Agrees Matches (onTable action) (onTable action) := by
  refine (Action.Follows.refl action).focus (fun _ _ => table_eq) ?_
  rintro value machine other table _ same rfl
  refine ⟨?_, ?_⟩
  · change Allocator.mk .. = Allocator.mk ..
    rw [same.books]
  · change
      machine.allocator.storage.store _ _ = other.allocator.storage.store _ _
    rw [same.books, same.memory]

theorem record (event : Event) :
    Action.Agrees Matches (record event) (record event) :=
  .modify fun _ _ same => ⟨same.books, same.memory⟩

theorem zeroFill
    (profile : Profile) (address : PhysicalAddress) (length : Nat) :
    Action.Agrees Matches (zeroFill profile address length)
      (zeroFill profile address length) := by
  unfold Machine.zeroFill
  refine .bind_get fun machine other same => ?_
  rw [same.books, same.memory]
  exact .bind_lift (.refl _) fun memory _ => .set ⟨rfl, rfl⟩

theorem addUsed (profile : Profile) (pages : Nat) :
    Action.Agrees Matches (addUsed profile pages) (addUsed profile pages) := by
  unfold Machine.addUsed
  refine .bind_get fun machine other same => ?_
  rw [same.books]
  exact .bind_lift (.refl _) fun usedPages _ => .set ⟨rfl, same.memory⟩

/-- No step of a request reads the log. -/
theorem simulates (profile : Profile) : Simulates Matches profile profile :=
  .of_books books table_eq record
    (fun count => onTable (FrameTable.claimRun profile count))
    (fun first count => onTable (FrameTable.release profile first count))
    (zeroFill profile) (addUsed profile)

end Matches

/-- Perform calls in order. -/
def performAll (profile : Profile) (calls : List Call) :
    Action Machine (List Answer) :=
  calls.mapM (perform profile)

/-- What was answered to calls is answered by a machine that matches, too. -/
theorem Matches.exists_performAll
    (same : machine.Matches other) {calls : List Call}
    {answers : List Answer}
    (ran : machine.performAll profile calls = .ok answers later) :
    ∃ ending, other.performAll profile calls = .ok answers ending := by
  rcases
    Action.Follows.mapM (simulates profile).perform calls machine other
      answers later same ran with
    ⟨ending, followed, -⟩
  exact ⟨ending, followed⟩

/-! ## Releases in a row -/

/-- Give back blocks in order. -/
def freeAll (profile : Profile) (blocks : List Block) :
    Action Machine Unit :=
  blocks.forM fun block => free profile block.address block.size

theorem freeAll_nil_ok_iff :
    machine.freeAll profile [] = .ok () later ↔ machine = later := by
  constructor
  · rintro ⟨⟩
    rfl
  · rintro rfl
    rfl

theorem freeAll_cons_ok_iff {block : Block} {rest : List Block} :
    machine.freeAll profile (block :: rest) = .ok () later ↔
      ∃ middle,
        machine.free profile block.address block.size = .ok () middle ∧
          middle.freeAll profile rest = .ok () later := by
  have unfolded :
      freeAll profile (block :: rest) =
        free profile block.address block.size >>= fun _ =>
          freeAll profile rest := rfl
  rw [unfolded]
  constructor
  · intro ran
    rcases Action.exists_of_bind_ok ran with ⟨⟨⟩, middle, freed, others⟩
    exact ⟨middle, freed, others⟩
  · rintro ⟨middle, freed, others⟩
    rw [Action.bind_of_ok freed]
    exact others

theorem Matches.freeAll (profile : Profile) (blocks : List Block) :
    Action.Agrees Matches (freeAll profile blocks)
      (freeAll profile blocks) := by
  induction blocks with
  | nil => exact .pure _
  | cons block rest inductionHypothesis =>
      exact
        ((simulates profile).free block.address block.size).bind fun _ =>
          inductionHypothesis

theorem CursorBounded.freed
    {address : PhysicalAddress} {size : UInt64} (bounded : machine.CursorBounded)
    (ran : machine.free profile address size = .ok () later) :
    later.CursorBounded := by
  rcases
    (CursorBounded.simulates profile).free address size machine machine () later
      ⟨rfl, bounded⟩ ran with
    ⟨ending, -, rfl, kept⟩
  exact kept

/-- Two releases act on the account of frames one after the other. -/
theorem takeBack_takeBack_matches
    (bounded : machine.CursorBounded) (address next : PhysicalAddress)
    (count extent : Nat) :
    ((machine.takeBack address count).takeBack next extent).Matches
      (machine.withTable
        ((machine.table.giveBack address.frame count).giveBack next.frame
          extent)) := by
  have table := table_takeBack bounded.length_le address count
  have stored :=
    @Storage.store_store machine.allocator.storage
      (machine.table.giveBack address.frame count).bitmap
      ((machine.table.giveBack address.frame count).giveBack next.frame
        extent).bitmap
      machine.memory (by simp)
  rw [takeBack, table]
  exact ⟨rfl, stored⟩

/-- Two releases that return do so in the other order as well. -/
theorem CursorBounded.free_swap
    {one two : Block} (bounded : machine.CursorBounded)
    (first : machine.free profile one.address one.size = .ok () middle)
    (second : middle.free profile two.address two.size = .ok () later) :
    ∃ between ending,
      machine.free profile two.address two.size = .ok () between ∧
        between.free profile one.address one.size = .ok () ending ∧
          later.Matches ending := by
  by_cases firstIgnored : one.address = Address.null ∨ one.size = 0
  · rw [free_ignored profile machine firstIgnored] at first
    cases first
    exact
      ⟨later, later, second, free_ignored profile later firstIgnored,
        .refl later⟩
  by_cases secondIgnored : two.address = Address.null ∨ two.size = 0
  · rw [free_ignored profile middle secondIgnored] at second
    cases second
    exact
      ⟨machine, middle, free_ignored profile machine secondIgnored, first,
        .refl middle⟩
  push Not at firstIgnored secondIgnored
  have between := bounded.freed first
  rcases
    (free_ok_iff firstIgnored.1 firstIgnored.2 bounded.bits_lt).mp first with
    ⟨accepts, rfl⟩
  rcases
    (free_ok_iff secondIgnored.1 secondIgnored.2 between.bits_lt).mp
      second with
    ⟨next, rfl⟩
  rw [table_takeBack bounded.length_le] at next
  rcases accepts.swap next with ⟨otherAccepts, otherNext⟩
  rw [← table_takeBack bounded.length_le] at otherNext
  have otherFirst :=
    (free_ok_iff secondIgnored.1 secondIgnored.2 bounded.bits_lt).mpr
      ⟨otherAccepts, rfl⟩
  have otherSecond :=
    (free_ok_iff firstIgnored.1 firstIgnored.2
      (bounded.freed otherFirst).bits_lt).mpr ⟨otherNext, rfl⟩
  refine ⟨_, _, otherFirst, otherSecond, ?_⟩
  have left :=
    takeBack_takeBack_matches bounded one.address two.address
      (framesFor one.size.toNat) (framesFor two.size.toNat)
  have right :=
    takeBack_takeBack_matches bounded two.address one.address
      (framesFor two.size.toNat) (framesFor one.size.toNat)
  rw [FrameTable.giveBack_comm] at left
  exact left.trans right.symm

/-- The order in which blocks are given back does not matter. -/
theorem CursorBounded.freeAll_perm
    {blocks others : List Block} (bounded : machine.CursorBounded)
    (reordered : blocks.Perm others)
    (ran : machine.freeAll profile blocks = .ok () later) :
    ∃ ending, machine.freeAll profile others = .ok () ending ∧
      later.Matches ending := by
  induction reordered generalizing machine later with
  | nil => exact ⟨later, ran, .refl later⟩
  | cons block _ inductionHypothesis =>
      rcases freeAll_cons_ok_iff.mp ran with ⟨middle, freed, rest⟩
      rcases inductionHypothesis (bounded.freed freed) rest with
        ⟨ending, followed, same⟩
      exact ⟨ending, freeAll_cons_ok_iff.mpr ⟨middle, freed, followed⟩, same⟩
  | swap one two rest =>
      -- The rest runs on from two machines that differ in their log.
      rcases freeAll_cons_ok_iff.mp ran with ⟨middle, first, tail⟩
      rcases freeAll_cons_ok_iff.mp tail with ⟨between, second, last⟩
      rcases bounded.free_swap first second with
        ⟨swapped, joined, otherFirst, otherSecond, same⟩
      rcases Matches.freeAll profile rest between joined () later same last with
        ⟨ending, followed, still⟩
      have others := freeAll_cons_ok_iff.mpr ⟨joined, otherSecond, followed⟩
      exact
        ⟨ending, freeAll_cons_ok_iff.mpr ⟨swapped, otherFirst, others⟩, still⟩
  | trans _ _ firstHypothesis secondHypothesis =>
      rcases firstHypothesis bounded ran with ⟨middle, reached, same⟩
      rcases secondHypothesis bounded reached with ⟨ending, followed, still⟩
      exact ⟨ending, followed, same.trans still⟩

theorem CursorBounded.freeAll_release
    (bounded : machine.CursorBounded) (blocks : List Block) :
    ∃ later, machine.freeAll .release blocks = .ok () later := by
  induction blocks generalizing machine with
  | nil => exact ⟨machine, freeAll_nil_ok_iff.mpr rfl⟩
  | cons block rest inductionHypothesis =>
      rcases free_release_returns bounded.bits_lt block.address block.size with
        ⟨middle, freed⟩
      rcases inductionHypothesis (bounded.freed freed) with ⟨later, ran⟩
      exact ⟨later, freeAll_cons_ok_iff.mpr ⟨middle, freed, ran⟩⟩

/-! ## Actions that nobody can tell apart -/

/--
Of two actions one returns if the other does.  What they leave differs in the
log at most, and every later sequence of calls is answered alike.
-/
structure Interchangeable
    (profile : Profile) (machine : Machine) (one two : Action Machine Unit) :
    Prop where
  returns :
    (∃ later, one machine = .ok () later) ↔
      ∃ ending, two machine = .ok () ending
  same : ∀ later ending, one machine = .ok () later →
    two machine = .ok () ending → later.Matches ending
  answers : ∀ later ending, one machine = .ok () later →
    two machine = .ok () ending →
      ∀ (calls : List Call) (answers : List Answer),
        (∃ finish, later.performAll profile calls = .ok answers finish) ↔
          ∃ finish, ending.performAll profile calls = .ok answers finish

theorem Interchangeable.of_follows
    {one two : Action Machine Unit}
    (forward : ∀ later, one machine = .ok () later →
      ∃ ending, two machine = .ok () ending ∧ later.Matches ending)
    (backward : ∀ ending, two machine = .ok () ending →
      ∃ later, one machine = .ok () later) :
    Interchangeable profile machine one two := by
  have same : ∀ later ending, one machine = .ok () later →
      two machine = .ok () ending → later.Matches ending := by
    intro later ending reached other
    rcases forward later reached with ⟨_, followed, alike⟩
    rw [followed] at other
    cases other
    exact alike
  refine ⟨⟨?_, ?_⟩, same, ?_⟩
  · rintro ⟨later, reached⟩
    rcases forward later reached with ⟨ending, followed, -⟩
    exact ⟨ending, followed⟩
  · rintro ⟨ending, reached⟩
    exact backward ending reached
  · intro later ending reached other calls answers
    have alike := same later ending reached other
    constructor
    · rintro ⟨finish, ran⟩
      exact alike.exists_performAll ran
    · rintro ⟨finish, ran⟩
      exact alike.symm.exists_performAll ran

theorem CursorBounded.interchange_perm
    {blocks others : List Block} (bounded : machine.CursorBounded)
    (reordered : blocks.Perm others) :
    Interchangeable profile machine (freeAll profile blocks)
      (freeAll profile others) := by
  refine .of_follows (fun later ran => bounded.freeAll_perm reordered ran) ?_
  intro ending ran
  rcases bounded.freeAll_perm reordered.symm ran with ⟨later, reached, -⟩
  exact ⟨later, reached⟩

theorem CursorBounded.free_spanning_iff
    {address : PhysicalAddress} {count : Nat} (bounded : machine.CursorBounded)
    (named : address ≠ Address.null) (positive : 0 < count)
    (small : count * frameSize < wordCount) :
    machine.free profile address (Block.spanning address count).size =
        .ok () later ↔
      machine.table.Accepts profile address.frame count ∧
        later = machine.takeBack address count := by
  rw [
    free_ok_iff named (Block.size_spanning_ne_zero address positive small)
      bounded.bits_lt,
    Block.framesFor_spanning address small]

/-- Both parts of a block are taken back if the block would be. -/
theorem CursorBounded.free_parts_iff
    {address : PhysicalAddress} {left right : Nat}
    (bounded : machine.CursorBounded) (named : address ≠ Address.null)
    (leftSome : 0 < left) (rightSome : 0 < right)
    (leftSmall : left * frameSize < wordCount)
    (rightSmall : right * frameSize < wordCount)
    (room : address.value.toNat + left * frameSize < wordCount) :
    machine.freeAll profile
          [.spanning address left, .spanning (address.past left) right] =
        .ok () ending ↔
      machine.table.Accepts profile address.frame (left + right) ∧
        ending =
          (machine.takeBack address left).takeBack (address.past left)
            right := by
  have frame := Address.frame_past room
  have pastNamed : address.past left ≠ Address.null := by
    intro null
    have low : (address.past left).frame = 0 := by
      rw [null]
      rfl
    omega
  rw [FrameTable.accepts_add_iff, freeAll_cons_ok_iff]
  constructor
  · rintro ⟨middle, leftFreed, rest⟩
    rcases freeAll_cons_ok_iff.mp rest with ⟨last, rightFreed, none⟩
    rw [freeAll_nil_ok_iff] at none
    have between := bounded.freed leftFreed
    rcases
      (bounded.free_spanning_iff named leftSome leftSmall).mp leftFreed with
      ⟨first, rfl⟩
    rcases
      (between.free_spanning_iff pastNamed rightSome rightSmall).mp
        rightFreed with
      ⟨second, rfl⟩
    rw [frame, table_takeBack bounded.length_le] at second
    exact ⟨⟨first, second⟩, none.symm⟩
  · rintro ⟨⟨first, second⟩, rfl⟩
    have leftFreed :=
      (bounded.free_spanning_iff named leftSome leftSmall).mpr ⟨first, rfl⟩
    have between := bounded.freed leftFreed
    rw [← frame, ← table_takeBack bounded.length_le] at second
    have rightFreed :=
      (between.free_spanning_iff pastNamed rightSome rightSmall).mpr
        ⟨second, rfl⟩
    exact
      ⟨_, leftFreed, freeAll_cons_ok_iff.mpr
        ⟨_, rightFreed, freeAll_nil_ok_iff.mpr rfl⟩⟩

/-- A block may be given back in two parts. -/
theorem CursorBounded.interchange_split
    {address : PhysicalAddress} {left right : Nat}
    (bounded : machine.CursorBounded) (named : address ≠ Address.null)
    (leftSome : 0 < left) (rightSome : 0 < right)
    (small : (left + right) * frameSize < wordCount)
    (room : address.value.toNat + left * frameSize < wordCount) :
    Interchangeable profile machine
      (freeAll profile [.spanning address (left + right)])
      (freeAll profile
        [.spanning address left,
          .spanning (address.past left) right]) := by
  have leftSmall : left * frameSize < wordCount :=
    Nat.lt_of_le_of_lt
      (Nat.mul_le_mul_right frameSize (Nat.le_add_right left right)) small
  have rightSmall : right * frameSize < wordCount :=
    Nat.lt_of_le_of_lt
      (Nat.mul_le_mul_right frameSize (Nat.le_add_left right left)) small
  refine .of_follows ?_ ?_
  · intro later ran
    rcases freeAll_cons_ok_iff.mp ran with ⟨middle, freed, none⟩
    rw [freeAll_nil_ok_iff] at none
    subst none
    rcases
      (bounded.free_spanning_iff named (by omega) small).mp freed with
      ⟨accepts, rfl⟩
    have parted :=
      (bounded.free_parts_iff named leftSome rightSome leftSmall rightSmall
        room).mpr ⟨accepts, rfl⟩
    refine ⟨_, parted, ?_⟩
    have table :=
      takeBack_takeBack_matches bounded address (address.past left) left right
    rw [Address.frame_past room, ← FrameTable.giveBack_add] at table
    exact ⟨table.books.symm, table.memory.symm⟩
  · intro ending ran
    rcases
      (bounded.free_parts_iff named leftSome rightSome leftSmall rightSmall
        room).mp ran with
      ⟨accepts, -⟩
    have freed :=
      (bounded.free_spanning_iff named (by omega) small).mpr ⟨accepts, rfl⟩
    exact
      ⟨_, freeAll_cons_ok_iff.mpr ⟨_, freed, freeAll_nil_ok_iff.mpr rfl⟩⟩

/--
Blocks may be given back in any order, and in parts: nobody can tell later.
Either order is stopped if the other one is, and in the release profile nothing
is stopped.  What the blocks are does not matter; they may overlap, be free
already, contain frame zero, or lie behind the bitmap.
-/
theorem Arises.releases_interchange
    (arises : Arises profile mapper machine) :
    (∀ blocks others : List Block, blocks.Perm others →
      Interchangeable profile machine (freeAll profile blocks)
        (freeAll profile others)) ∧
    (∀ (address : PhysicalAddress) (left right : Nat),
      address ≠ Address.null → 0 < left → 0 < right →
        (left + right) * frameSize < wordCount →
          address.value.toNat + left * frameSize < wordCount →
            Interchangeable profile machine
              (freeAll profile [.spanning address (left + right)])
              (freeAll profile
                [.spanning address left,
                  .spanning (address.past left) right])) ∧
    (profile = .release → ∀ blocks : List Block,
      ∃ later, machine.freeAll profile blocks = .ok () later) := by
  have bounded := arises.cursorBounded
  refine ⟨?_, ?_, ?_⟩
  · intro blocks others reordered
    exact bounded.interchange_perm reordered
  · intro address left right named leftSome rightSome small room
    exact bounded.interchange_split named leftSome rightSome small room
  · rintro rfl blocks
    exact bounded.freeAll_release blocks

end Machine

namespace Sample

/--
Overlapping blocks, of which one contains frame zero and one ends behind the
bitmap, and a block that is released in two parts.
-/
theorem gap_releases_interchange :
    ∃ machine, Machine.Arises .release (.direct ⟨offset⟩) machine ∧
      (∃ later ending,
        machine.freeAll .release [⟨⟨1⟩, 16384⟩, ⟨⟨8192⟩, 1073741824⟩] =
            .ok () later ∧
          machine.freeAll .release [⟨⟨8192⟩, 1073741824⟩, ⟨⟨1⟩, 16384⟩] =
              .ok () ending ∧
            later.Matches ending) ∧
        machine.Interchangeable .release
          (Machine.freeAll .release [.spanning ⟨100⟩ (2 + 3)])
          (Machine.freeAll .release
            [.spanning ⟨100⟩ 2, .spanning (Address.past ⟨100⟩ 2) 3]) := by
  rcases Ledger.Reachable.exists_start .release gapMap_sound gapMap_reaches
    gapMap_found Memory.zero with ⟨ledger, reachable, -⟩
  have arises := Machine.Arises.of_reachable reachable
  rcases Machine.Arises.releases_interchange arises with
    ⟨orders, parts, returns⟩
  have swapped :=
    orders [⟨⟨1⟩, 16384⟩, ⟨⟨8192⟩, 1073741824⟩]
      [⟨⟨8192⟩, 1073741824⟩, ⟨⟨1⟩, 16384⟩] (.swap _ _ [])
  rcases returns rfl [⟨⟨1⟩, 16384⟩, ⟨⟨8192⟩, 1073741824⟩] with
    ⟨later, ran⟩
  rcases swapped.returns.mp ⟨later, ran⟩ with ⟨ending, other⟩
  exact
    ⟨ledger.machine, arises,
      ⟨later, ending, ran, other, swapped.same later ending ran other⟩,
      parts ⟨100⟩ 2 3 (by decide) (by decide) (by decide) (by decide)
        (by decide)⟩

end Sample

end BootMemory
