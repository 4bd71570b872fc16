/-!
# Ranges of characters

Sets of characters as ascending closed ranges of code points. The tables that are given in this form
follow version 14 of the Unicode standard.
-/

namespace PegMatcher.Text

set_option autoImplicit false

def inRanges : List (Nat × Nat) → Nat → Bool
  | [], _ => false
  | (low, high) :: rest, code =>
    if code < low then false else decide (code ≤ high) || inRanges rest code

end PegMatcher.Text
