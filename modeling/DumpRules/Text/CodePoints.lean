/-!
Sets of code points as ascending lists of closed intervals, the form in which character properties
are tabulated. A look-up stops at the first interval that begins after the character, so that the
answer for a low code point needs only the head of a long table.
-/

namespace DumpRules.Text

set_option autoImplicit false

/-- Closed intervals of code points, ascending and disjoint. -/
abbrev CodePoints := List (Nat × Nat)

/-- Whether a character lies in one of the intervals. -/
def CodePoints.contains : CodePoints → Char → Bool
  | [], _ => false
  | (low, high) :: later, c =>
    if c.toNat < low then false
    else if c.toNat ≤ high then true
    else CodePoints.contains later c

end DumpRules.Text
