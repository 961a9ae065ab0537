/-!
# Tables of character ranges

A property of characters is kept as the list of its ranges of code points, both ends included, in
increasing order. `Ranges.contains` stops at the first range that starts past the character.
-/

namespace AssignOnce

/-- Ranges of code points, both ends included, in increasing order. -/
abbrev Ranges := List (Nat × Nat)

namespace Ranges

/-- Whether a code point lies in one of the ranges. -/
def contains : Ranges → Nat → Bool
  | [], _ => false
  | (low, high) :: rest, n =>
    if n < low then false else if n ≤ high then true else contains rest n

end Ranges

end AssignOnce
