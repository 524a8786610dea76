/-!
# Sorted tables of code points

A property of characters is kept as an array in ascending order of code point. Looking a code point
up is a binary search for the last entry that starts at or below it.
-/

namespace Lexis.Unicode

/-- Number of leading entries that satisfy `holds`, in an array where all entries that satisfy it
come before all that do not. -/
def partitionPoint {α : Type} (entries : Array α) (holds : α → Bool) : Nat :=
  search 0 entries.size
where
  /-- Bisection: everything before `low` satisfies `holds`, nothing from `high` on does. -/
  search (low high : Nat) : Nat :=
    if low < high then
      let middle := low + (high - low) / 2
      match entries[middle]? with
      | some entry => if holds entry then search (middle + 1) high else search low middle
      | none => low
    else low
  termination_by high - low

/-- Whether one of the ranges, given by its first and last code point, holds `code`. -/
def inRanges (ranges : Array (Nat × Nat)) (code : Nat) : Bool :=
  let started := partitionPoint ranges fun range => range.1 ≤ code
  0 < started &&
    match ranges[started - 1]? with
    | some range => code ≤ range.2
    | none => false

end Lexis.Unicode
