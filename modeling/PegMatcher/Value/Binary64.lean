/-!
# Double-precision numbers, exactly

A double-precision value is kept as what its bits stand for: a signed integer mantissa times a
power of two, an infinity, or not-a-number. Comparisons go through `Number`, the exact dyadic
rationals with two ends added, so that integers and doubles are compared without rounding.
-/

namespace PegMatcher

set_option autoImplicit false

inductive Number where
  | nan
  | negInfinity
  | exact (value : Dyadic)
  | posInfinity

namespace Number

def same : Number → Number → Bool
  | .negInfinity, .negInfinity => true
  | .posInfinity, .posInfinity => true
  | .exact a, .exact b => decide (a = b)
  | _, _ => false

def less : Number → Number → Bool
  | .negInfinity, .exact _ => true
  | .negInfinity, .posInfinity => true
  | .exact _, .posInfinity => true
  | .exact a, .exact b => decide (a < b)
  | _, _ => false

/-- Not-a-number is comparable with nothing, so this is not the negation of `less`. -/
def atMost (a b : Number) : Bool := a.less b || a.same b

theorem same_iff {x y : Number} : x.same y = true ↔ x = y ∧ x ≠ .nan := by
  cases x <;> cases y <;> simp [same]

end Number

/-- A double: `± mantissa * 2 ^ exponent`, an infinity, or not-a-number. Zero keeps its sign. -/
inductive Binary64 where
  | nan
  | infinity (negative : Bool)
  | finite (negative : Bool) (mantissa : Nat) (exponent : Int)
deriving DecidableEq

namespace Binary64

def ofBits (bits : UInt64) : Binary64 :=
  let negative := bits >>> 63 == 1
  let biased := ((bits >>> 52) &&& 0x7FF).toNat
  let fraction := (bits &&& 0xFFFFFFFFFFFFF).toNat
  if biased = 0x7FF then
    if fraction = 0 then .infinity negative else .nan
  else if biased = 0 then .finite negative fraction (-1074)
  else .finite negative (0x10000000000000 + fraction) ((biased : Int) - 1075)

def ofDecimal (negative : Bool) (digits : Nat) (exponent : Int) : Binary64 :=
  let magnitude := Float.ofScientific digits (decide (exponent < 0)) exponent.natAbs
  match ofBits magnitude.toBits with
  | .nan => .nan
  | .infinity _ => .infinity negative
  | .finite _ mantissa power => .finite negative mantissa power

def isZero : Binary64 → Bool
  | .finite _ 0 _ => true
  | _ => false

def number : Binary64 → Number
  | .nan => .nan
  | .infinity true => .negInfinity
  | .infinity false => .posInfinity
  | .finite negative mantissa exponent =>
    .exact (.ofIntWithPrec (if negative then -(mantissa : Int) else mantissa) (-exponent))

end Binary64

end PegMatcher
