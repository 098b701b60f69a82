/-!
# Ranges of numbers

Membership in a table of ranges, by bisection.
-/

namespace ReadOnce.Text

/-- Whether a sorted table of ranges holds `n`, looked for between the indexes `lo` and `hi`. -/
def inRanges (table : Array (Nat × Nat)) (n : Nat) (lo hi : Nat) : Bool :=
  if _h : lo < hi then
    let mid := lo + (hi - lo) / 2
    match table[mid]? with
    | none => false
    | some (first, last) =>
      if n < first then inRanges table n lo mid
      else if last < n then inRanges table n (mid + 1) hi
      else true
  else false
termination_by hi - lo

end ReadOnce.Text
