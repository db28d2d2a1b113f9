/-!
Sets of characters as ranges of code points.
-/

namespace Reckoner.Text

-- Closed ranges of code points, ascending and apart.
abbrev Ranges := List (Nat × Nat)

namespace Ranges

-- Whether one of the ranges holds the code point. As the ranges ascend, the search ends at the
-- first one that begins past it.
def has : Ranges → Nat → Bool
  | [], _ => false
  | (first, last) :: rest, code => first ≤ code && (code ≤ last || has rest code)

end Ranges

end Reckoner.Text
