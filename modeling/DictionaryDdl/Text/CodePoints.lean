/-!
Sets of characters given as ascending, disjoint ranges of code points.
-/

namespace DictionaryDdl.Text

/-- Closed ranges of code points, in ascending order. -/
abbrev CodePoints := List (Nat × Nat)

/-- Whether a code point lies in one of the ranges; the search stops at the first range above
it. -/
def CodePoints.contains (n : Nat) : CodePoints → Bool
  | [] => false
  | (first, last) :: more =>
      if n < first then false else if n ≤ last then true else CodePoints.contains n more

end DictionaryDdl.Text
