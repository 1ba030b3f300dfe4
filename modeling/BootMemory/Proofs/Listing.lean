import BootMemory.Listing
import Mathlib.Data.List.Chain

/-!
# Listings say what they were made from

A listing is read by writing it out again, which gives what was listed: the
items in their order, the numbers of the intervals, the numbers of the
progressions.  None of the listings is longer than need be.  Neighbours among
the repeats have different items, there is a gap between any two intervals, and
a progression ends only where the next number does not go on with it.
-/

namespace BootMemory.Listing

/-! ## Repeats -/

section Repeats

variable {Item : Type}

/-- The items of a listing in a row. -/
def writtenOut (listing : List (Repeat Item)) : List Item :=
  listing.flatMap fun entry => List.replicate entry.count entry.item

/-- Neighbours in a listing have different items. -/
def Parted (listing : List (Repeat Item)) : Prop :=
  listing.IsChain fun earlier later => earlier.item ≠ later.item

variable [BEq Item]

theorem repeats_cons (item : Item) (items : List Item) :
    repeats (item :: items) = consRepeat item (repeats items) := rfl

/-- Every entry stands for at least one item. -/
theorem count_pos_repeats (items : List Item) :
    ∀ entry ∈ repeats items, 0 < entry.count := by
  induction items with
  | nil => nofun
  | cons item rest inductionHypothesis =>
      rw [repeats_cons]
      cases listed : repeats rest with
      | nil => exact List.forall_mem_singleton.mpr Nat.one_pos
      | cons head others =>
          rw [listed] at inductionHypothesis
          rw [consRepeat]
          split
          · exact
              List.forall_mem_cons.mpr
                ⟨Nat.succ_pos _, (List.forall_mem_cons.mp inductionHypothesis).2⟩
          · exact List.forall_mem_cons.mpr ⟨Nat.one_pos, inductionHypothesis⟩

variable [LawfulBEq Item]

theorem writtenOut_consRepeat (item : Item) (listing : List (Repeat Item)) :
    writtenOut (consRepeat item listing) = item :: writtenOut listing := by
  cases listing with
  | nil => rfl
  | cons head rest =>
      rw [consRepeat]
      split
      · rename_i same
        rw [eq_of_beq same]
        rfl
      · rfl

theorem writtenOut_repeats (items : List Item) :
    writtenOut (repeats items) = items := by
  induction items with
  | nil => rfl
  | cons item rest inductionHypothesis =>
      rw [repeats_cons, writtenOut_consRepeat, inductionHypothesis]

theorem Parted.consRepeat
    {listing : List (Repeat Item)} (parted : Parted listing) (item : Item) :
    Parted (consRepeat item listing) := by
  cases listing with
  | nil => exact .singleton _
  | cons head rest =>
      rw [Listing.consRepeat]
      split
      · rename_i same
        cases eq_of_beq same
        -- Only the count of the first entry has changed.
        cases rest with
        | nil => exact .singleton _
        | cons next rest =>
            have ⟨first, others⟩ := List.isChain_cons_cons.mp parted
            exact List.isChain_cons_cons.mpr ⟨first, others⟩
      · rename_i other
        have differs : item ≠ head.item := fun same =>
          other (beq_iff_eq.mpr same)
        exact List.isChain_cons_cons.mpr ⟨differs, parted⟩

theorem parted_repeats (items : List Item) : Parted (repeats items) := by
  induction items with
  | nil => exact .nil
  | cons item rest inductionHypothesis =>
      rw [repeats_cons]
      exact inductionHypothesis.consRepeat item

end Repeats

/-! ## Intervals -/

/-- The numbers of an interval. -/
def Interval.numbers (interval : Interval) : List Nat :=
  List.range' interval.first (interval.stop - interval.first)

theorem Interval.mem_numbers {interval : Interval} {number : Nat} :
    number ∈ interval.numbers ↔
      interval.first ≤ number ∧ number < interval.stop := by
  rw [numbers, List.mem_range'_1]
  omega

/-- An interval that starts with a number and goes on. -/
theorem Interval.numbers_cons {number stop : Nat} (below : number < stop) :
    (Interval.mk number stop).numbers =
      number :: (Interval.mk (number + 1) stop).numbers := by
  have length : stop - number = stop - (number + 1) + 1 := by omega
  rw [numbers, numbers, length, List.range'_succ]

theorem intervals_cons (number : Nat) (numbers : List Nat) :
    intervals (number :: numbers) = consInterval number (intervals numbers) :=
  rfl

/-- None of the intervals is empty. -/
theorem first_lt_stop_intervals (numbers : List Nat) :
    ∀ interval ∈ intervals numbers, interval.first < interval.stop := by
  induction numbers with
  | nil => nofun
  | cons number rest inductionHypothesis =>
      rw [intervals_cons]
      cases listed : intervals rest with
      | nil =>
          intro interval member
          cases List.mem_singleton.mp member
          exact Nat.lt_succ_self number
      | cons head others =>
          rw [listed, List.forall_mem_cons] at inductionHypothesis
          rw [consInterval]
          split
          · rename_i joins
            refine List.forall_mem_cons.mpr ⟨?_, inductionHypothesis.2⟩
            have grows := inductionHypothesis.1
            dsimp only
            omega
          · exact
              List.forall_mem_cons.mpr
                ⟨Nat.lt_succ_self number,
                  List.forall_mem_cons.mpr inductionHypothesis⟩

/-- The intervals have the numbers that they were made from, in their order. -/
theorem numbers_intervals (numbers : List Nat) :
    (intervals numbers).flatMap Interval.numbers = numbers := by
  induction numbers with
  | nil => rfl
  | cons number rest inductionHypothesis =>
      have nonempty := first_lt_stop_intervals rest
      have alone : (Interval.mk number (number + 1)).numbers = [number] := by
        rw [Interval.numbers, Nat.add_sub_cancel_left]
        rfl
      rw [intervals_cons]
      cases listed : intervals rest with
      | nil =>
          rw [listed] at inductionHypothesis
          rw [consInterval, List.flatMap_cons, alone, ← inductionHypothesis]
          rfl
      | cons head others =>
          rw [listed] at inductionHypothesis nonempty
          rw [consInterval]
          split
          · rename_i joins
            have grows := nonempty head List.mem_cons_self
            have below : number < head.stop := by omega
            rw [List.flatMap_cons, Interval.numbers_cons below, joins,
              List.cons_append]
            exact congrArg (number :: ·) inductionHypothesis
          · rw [List.flatMap_cons, alone, inductionHypothesis]
            rfl

theorem mem_intervals_iff {numbers : List Nat} {number : Nat} :
    (∃ interval ∈ intervals numbers,
      interval.first ≤ number ∧ number < interval.stop) ↔
      number ∈ numbers := by
  conv_rhs => rw [← numbers_intervals numbers]
  simp only [List.mem_flatMap, Interval.mem_numbers]

/-- Of ascending numbers there is one missing between any two intervals. -/
theorem gap_intervals
    {numbers : List Nat} (ascending : numbers.Pairwise (· < ·)) :
    (intervals numbers).Pairwise fun earlier later =>
      earlier.stop < later.first := by
  induction numbers with
  | nil => exact .nil
  | cons number rest inductionHypothesis =>
      rcases List.pairwise_cons.mp ascending with ⟨least, ascending⟩
      have apart := inductionHypothesis ascending
      have nonempty := first_lt_stop_intervals rest
      have later : ∀ interval ∈ intervals rest, number < interval.first := by
        intro interval member
        exact
          least _ (mem_intervals_iff.mp
            ⟨interval, member, Nat.le_refl _, nonempty interval member⟩)
      rw [intervals_cons]
      cases listed : intervals rest with
      | nil => exact List.pairwise_singleton _ _
      | cons head others =>
          rw [listed] at apart nonempty later
          have behind := List.pairwise_cons.mp apart
          rw [consInterval]
          split
          · exact List.pairwise_cons.mpr ⟨behind.1, behind.2⟩
          · rename_i gap
            have first := later head List.mem_cons_self
            have grows := nonempty head List.mem_cons_self
            refine
              List.pairwise_cons.mpr
                ⟨List.forall_mem_cons.mpr ⟨?_, ?_⟩, apart⟩
            · dsimp only
              omega
            · intro interval member
              have beyond := behind.1 interval member
              dsimp only
              omega

/-! ## Progressions -/

namespace Progression

/-- The numbers of a progression. -/
def numbers (progression : Progression) : List Nat :=
  List.range' progression.first progression.count progression.step

/-- A progression that is extended has one more number. -/
theorem numbers_extend
    {progression longer : Progression} {number : Nat}
    (extended : progression.extend number = some longer) :
    longer.numbers = progression.numbers ++ [number] := by
  rw [extend] at extended
  split at extended
  · rename_i one
    split at extended
    · rename_i ahead
      cases extended
      rw [numbers, numbers, one]
      simp [List.range'_succ, Nat.add_sub_cancel' (Nat.le_of_lt ahead)]
    · cases extended
  · split at extended
    · rename_i next
      cases extended
      rw [numbers, numbers, next, List.range'_concat, Nat.mul_comm]
    · cases extended

theorem first_extend
    {progression longer : Progression} {number : Nat}
    (extended : progression.extend number = some longer) :
    longer.first = progression.first := by
  rw [extend] at extended
  split at extended <;> split at extended <;> cases extended <;> rfl

theorem numbers_groupFrom (current : Progression) (rest : List Nat) :
    (groupFrom current rest).flatMap numbers = current.numbers ++ rest := by
  induction rest generalizing current with
  | nil => simp [groupFrom]
  | cons number rest inductionHypothesis =>
      rw [groupFrom]
      split
      · rename_i longer extended
        rw [inductionHypothesis, numbers_extend extended, List.append_assoc]
        rfl
      · rw [List.flatMap_cons, inductionHypothesis]
        rfl

/-- No number of a progression's successor goes on with it. -/
def Ended (earlier later : Progression) : Prop :=
  earlier.extend later.first = none

/-- Grouping goes on with the progression that it is given. -/
theorem exists_groupFrom (current : Progression) (rest : List Nat) :
    ∃ head others, groupFrom current rest = head :: others ∧
      head.first = current.first ∧ (head :: others).IsChain Ended := by
  induction rest generalizing current with
  | nil => exact ⟨current, [], rfl, rfl, .singleton _⟩
  | cons number rest inductionHypothesis =>
      rw [groupFrom]
      split
      · rename_i longer extended
        rcases inductionHypothesis longer with
          ⟨head, others, grouped, first, chain⟩
        exact
          ⟨head, others, grouped, first.trans (first_extend extended), chain⟩
      · rename_i ended
        rcases inductionHypothesis (single number) with
          ⟨head, others, grouped, first, chain⟩
        have stops : Ended current head := by
          rw [Ended, first]
          exact ended
        exact
          ⟨current, head :: others, congrArg (current :: ·) grouped, rfl,
            List.isChain_cons_cons.mpr ⟨stops, chain⟩⟩

end Progression

/-- The progressions have the numbers that they were made from. -/
theorem numbers_progressions (numbers : List Nat) :
    (progressions numbers).flatMap Progression.numbers = numbers := by
  cases numbers with
  | nil => rfl
  | cons number rest =>
      rw [progressions, Progression.numbers_groupFrom]
      rfl

/-- A progression ends only where the next number does not go on with it. -/
theorem ended_progressions (numbers : List Nat) :
    (progressions numbers).IsChain Progression.Ended := by
  cases numbers with
  | nil => exact .nil
  | cons number rest =>
      rcases Progression.exists_groupFrom (.single number) rest with
        ⟨head, others, grouped, -, chain⟩
      rw [progressions, grouped]
      exact chain

/-- Four numbers, of which the last one does not go on with the others. -/
example : (progressions [8, 12, 16, 17]).map
    (fun part => (part.first, part.step, part.count)) =
      [(8, 4, 3), (17, 0, 1)] := by
  decide

end BootMemory.Listing
