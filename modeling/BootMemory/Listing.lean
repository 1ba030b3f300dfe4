/-!
# Listings

Memory contents, bitmaps and sequences of addresses are long and regular.
These functions write them down in short: equal bytes in a row as one byte with
a count, used frames as intervals, and evenly spaced addresses as a start, a
step and a count.
-/

namespace BootMemory.Listing

/-- A number of equal items in a row. -/
structure Repeat (Item : Type) where
  item : Item
  count : Nat

/-- Put one item in front of a listing. -/
def consRepeat {Item : Type} [BEq Item] (item : Item) :
    List (Repeat Item) → List (Repeat Item)
  | [] => [⟨item, 1⟩]
  | head :: rest =>
      if item == head.item then
        ⟨item, head.count + 1⟩ :: rest
      else
        ⟨item, 1⟩ :: head :: rest

/-- Equal neighbours taken together. -/
def repeats {Item : Type} [BEq Item] (items : List Item) : List (Repeat Item) :=
  items.foldr consRepeat []

/-- An interval of numbers with `first` but without `stop`. -/
structure Interval where
  first : Nat
  stop : Nat

/-- Put the number directly below a listing, or further below it, in front. -/
def consInterval (number : Nat) : List Interval → List Interval
  | [] => [⟨number, number + 1⟩]
  | head :: rest =>
      if number + 1 = head.first then
        ⟨number, head.stop⟩ :: rest
      else
        ⟨number, number + 1⟩ :: head :: rest

/-- Ascending numbers as maximal intervals. -/
def intervals (ascending : List Nat) : List Interval :=
  ascending.foldr consInterval []

/-- Evenly spaced numbers: `first`, `first + step`, …, `count` of them. -/
structure Progression where
  first : Nat
  step : Nat
  count : Nat

namespace Progression

/-- The progression of one number. -/
def single (number : Nat) : Progression := ⟨number, 0, 1⟩

/--
The progression with one more number, if the number goes on with it.  A single
number goes on with any greater one.
-/
def extend (progression : Progression) (number : Nat) : Option Progression :=
  if progression.count = 1 then
    if progression.first < number then
      some ⟨progression.first, number - progression.first, 2⟩
    else
      none
  else if number = progression.first + progression.count * progression.step then
    some { progression with count := progression.count + 1 }
  else
    none

/-- Go on with a progression as long as the numbers allow, then begin anew. -/
def groupFrom (current : Progression) : List Nat → List Progression
  | [] => [current]
  | number :: numbers =>
      match current.extend number with
      | some longer => groupFrom longer numbers
      | none => current :: groupFrom (single number) numbers

end Progression

/-- Numbers as progressions, each as long as possible from the left. -/
def progressions : List Nat → List Progression
  | [] => []
  | number :: numbers => Progression.groupFrom (.single number) numbers

end BootMemory.Listing
