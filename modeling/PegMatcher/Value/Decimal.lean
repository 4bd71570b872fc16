import PegMatcher.Value.Binary64

/-!
# Doubles in decimal

`shortest` selects the fewest decimal digits that read back to a given double, and of those the
nearest to it. `Binary64.render` lays them out: positionally while the leading digit stands for a
power of ten from 10^-4 to 10^15, otherwise with a signed exponent of at least two digits.
`Binary64.read?` reads such texts.
-/

namespace PegMatcher

set_option autoImplicit false

structure Decimal where
  digits : Nat
  exponent : Int

namespace Decimal

def raised (base : Nat) (exponent : Int) : Nat := base.pow exponent.toNat

/-- Compares `a * 10 ^ i` with `n * 2 ^ j`. -/
def compareScaled (a : Nat) (i : Int) (n : Nat) (j : Int) : Ordering :=
  compare (a * raised 10 i * raised 2 (-j)) (n * raised 2 j * raised 10 (-i))

/-- Whether `d` lies among the reals that round to `mantissa * 2 ^ exponent`, ends included for an even mantissa. -/
def readsBack (mantissa : Nat) (exponent : Int) (d : Decimal) : Bool :=
  let narrow := decide (mantissa = raised 2 52 ∧ exponent > -1074)
  let low := if narrow then 4 * mantissa - 1 else 4 * mantissa - 2
  let high := 4 * mantissa + 2
  let closed := mantissa % 2 == 0
  let fromLow := compareScaled d.digits d.exponent low (exponent - 2)
  let toHigh := compareScaled d.digits d.exponent high (exponent - 2)
  (fromLow == .gt || (closed && fromLow == .eq)) && (toHigh == .lt || (closed && toHigh == .eq))

def magnitude (mantissa : Nat) (exponent : Int) : Int :=
  let guess : Int := ((mantissa.log2 : Int) + exponent) * 30103 / 100000
  ((List.range 4).map fun (i : Nat) => guess + (i : Int) - 1).find?
    (fun k => compareScaled 1 k mantissa exponent == .gt) |>.getD (guess + 3)

/-- The better of the two points of the grid `10 ^ power` around the value, if one reads back. -/
def onGrid (mantissa : Nat) (exponent power : Int) : Option Decimal :=
  let num := mantissa * raised 2 exponent * raised 10 (-power)
  let den := raised 2 (-exponent) * raised 10 power
  let below : Decimal := ⟨num / den, power⟩
  let above : Decimal := ⟨num / den + 1, power⟩
  match readsBack mantissa exponent below, readsBack mantissa exponent above with
  | true, true =>
    match compare (2 * (num % den)) den with
    | .lt => some below
    | .gt => some above
    | .eq => some (if num / den % 2 = 0 then below else above)
  | true, false => some below
  | false, true => some above
  | false, false => none

def trim : Nat → Decimal → Decimal
  | 0, d => d
  | fuel + 1, d =>
    if d.digits ≠ 0 ∧ d.digits % 10 = 0 then trim fuel ⟨d.digits / 10, d.exponent + 1⟩ else d

/-- The fewest digits that read back to a positive `mantissa * 2 ^ exponent`. Seventeen always do. -/
def shortest (mantissa : Nat) (exponent : Int) : Decimal :=
  let top := magnitude mantissa exponent
  let found := ((List.range 17).map fun (n : Nat) => top - ((n : Int) + 1)).findSome?
    (onGrid mantissa exponent)
  trim 20 (found.getD ⟨mantissa * raised 2 exponent * raised 5 (-exponent), min exponent 0⟩)

def layout (d : Decimal) : String :=
  let digits := toString d.digits
  let count := digits.length
  let lead : Int := d.exponent + count - 1
  if -4 ≤ lead ∧ lead < 16 then
    if 0 ≤ d.exponent then digits ++ String.ofList (List.replicate d.exponent.toNat '0') ++ ".0"
    else if 0 ≤ lead then
      let whole := lead.toNat + 1
      String.ofList (digits.toList.take whole) ++ "." ++ String.ofList (digits.toList.drop whole)
    else "0." ++ String.ofList (List.replicate (-lead - 1).toNat '0') ++ digits
  else
    let head := String.ofList (digits.toList.take 1)
    let tail := String.ofList (digits.toList.drop 1)
    let power := toString lead.natAbs
    head ++ (if tail.isEmpty then "" else "." ++ tail) ++ "e" ++ (if lead < 0 then "-" else "+")
      ++ (if power.length < 2 then "0" ++ power else power)

def spanDigits (cs : List Char) : List Char × List Char := cs.span Char.isDigit

def digitsValue (cs : List Char) : Nat :=
  cs.foldl (fun n c => 10 * n + (c.toNat - '0'.toNat)) 0

def splitSign : List Char → Bool × List Char
  | '-' :: cs => (true, cs)
  | '+' :: cs => (false, cs)
  | cs => (false, cs)

end Decimal

namespace Binary64

def render : Binary64 → String
  | .nan => "nan"
  | .infinity negative => if negative then "-inf" else "inf"
  | .finite negative mantissa exponent =>
    (if negative then "-" else "")
      ++ (if mantissa = 0 then "0.0" else (Decimal.shortest mantissa exponent).layout)

def read? (text : String) : Option Binary64 :=
  let (negative, body) := Decimal.splitSign text.toList
  if body = ['n', 'a', 'n'] then some .nan
  else if body = ['i', 'n', 'f'] then some (.infinity negative)
  else
    let (whole, rest) := Decimal.spanDigits body
    let (part, rest) := match rest with
      | '.' :: rest => Decimal.spanDigits rest
      | rest => ([], rest)
    let digits := Decimal.digitsValue (whole ++ part)
    let shift : Int := part.length
    if whole.isEmpty && part.isEmpty then none
    else match rest with
      | [] => some (ofDecimal negative digits (-shift))
      | mark :: rest =>
        let (below, power) := Decimal.splitSign rest
        if (mark = 'e' ∨ mark = 'E') ∧ ¬ power.isEmpty ∧ power.all Char.isDigit then
          let size : Int := Decimal.digitsValue power
          some (ofDecimal negative digits ((if below then -size else size) - shift))
        else none

end Binary64

end PegMatcher
