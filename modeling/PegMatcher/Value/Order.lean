import PegMatcher.Fault

/-!
# Order of values

Numbers are ordered by magnitude, texts by code point, bytes by value, and lists and tuples by
their first pair of unequal items. Any other pair of values is incomparable, which is a fault.
-/

namespace PegMatcher

set_option autoImplicit false

namespace Comparison

def onNumbers : Comparison → Number → Number → Bool
  | .less => Number.less
  | .atMost => Number.atMost

def admits : Comparison → Ordering → Bool
  | _, .lt => true
  | .atMost, .eq => true
  | _, _ => false

end Comparison

namespace Value

def compareCodes : List Nat → List Nat → Ordering
  | [], [] => .eq
  | [], _ :: _ => .lt
  | _ :: _, [] => .gt
  | a :: as, b :: bs => if a < b then .lt else if b < a then .gt else compareCodes as bs

mutual

/-- Whether `left` stands before `right`, or a fault if they are incomparable. -/
def ordered (op : Comparison) : Value → Value → Except Fault Bool
  | .text a, .text b => .ok (op.admits (compareCodes (a.map Char.toNat) (b.map Char.toNat)))
  | .bytes a, .bytes b => .ok (op.admits (compareCodes (a.map UInt8.toNat) (b.map UInt8.toNat)))
  | .list a, .list b => orderedItems op a b
  | .tuple a, .tuple b => orderedItems op a b
  | a, b =>
    match a.number?, b.number? with
    | some x, some y => .ok (op.onNumbers x y)
    | _, _ => .error (.incomparable op a.kind b.kind)

def orderedItems (op : Comparison) : List Value → List Value → Except Fault Bool
  | [], [] => .ok (op.admits .eq)
  | [], _ :: _ => .ok true
  | _ :: _, [] => .ok false
  | a :: as, b :: bs => if a == b then orderedItems op as bs else ordered op a b

end

end Value

end PegMatcher
