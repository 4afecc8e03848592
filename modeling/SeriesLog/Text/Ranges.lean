/-! # Ranges of code points

A property of characters is a list of disjoint ranges of code points in ascending order. -/
namespace SeriesLog

def inRanges (point : Nat) : List (Nat × Nat) → Bool
  | [] => false
  | (first, last) :: rest =>
    if point < first then false else if point ≤ last then true else inRanges point rest

end SeriesLog
