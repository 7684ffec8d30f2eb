/-!
**Tables of code point ranges.**

A character class of the Unicode standard is kept as a sorted array of disjoint closed ranges
of code points; membership is a binary search over the ranges.
-/

namespace Flowgraph.Text

/-- A character class given by its closed code point ranges, sorted and disjoint. -/
structure RangeTable where
  ranges : Array (Nat × Nat)

namespace RangeTable

/-- Whether a code point lies in one of the ranges, by bisection on the sorted ranges. -/
def contains (table : RangeTable) (code : Nat) : Bool :=
  search 0 table.ranges.size
where
  /-- Searches the ranges with positions in `[lo, hi)`. -/
  search (lo hi : Nat) : Bool :=
    if lo < hi then
      let mid := (lo + hi) / 2
      match table.ranges[mid]? with
      | some (first, last) =>
        if code < first then search lo mid
        else if last < code then search (mid + 1) hi
        else true
      | none => false
    else false
  termination_by hi - lo

end RangeTable

end Flowgraph.Text
