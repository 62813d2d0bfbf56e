/-! Sets of code points given by ascending ranges. -/

namespace Climb

/-- Whether a code point lies in one of some ascending, disjoint, closed ranges. -/
def inRanges : List (Nat × Nat) → Nat → Bool
  -- The first range above the point ends the search, since all later ones are above it too.
  | [], _ => false
  | (low, high) :: rest, point =>
    if point < low then false
    else if point ≤ high then true
    else inRanges rest point

end Climb
