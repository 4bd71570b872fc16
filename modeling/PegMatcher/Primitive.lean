import PegMatcher.Quoting
import PegMatcher.Regex.Basic

/-!
# Primitive matchers

The matchers that look at elements themselves. Each is a function of the source and a position: it
answers where its match ends, or nothing, and moves no cursor. At the end of the input a matcher
that needs an element answers nothing, so none of them asks for an element that is not there.
-/

namespace PegMatcher

set_option autoImplicit false

inductive Primitive where
  | any
  | endOfInput
  | element (value : Value)
  | literal (values : List Value)
  | range (low high : Value)
  | oneOf (members : List Value)
  | regex (pattern : Regex)
  | quoted (quoting : Quoting)

namespace Primitive

def step (test : Value → Except Fault Bool) (src : Source) (pos : Int) : Except Fault (Option Int) :=
  if (src.size : Int) ≤ pos then .ok none
  else
    match src.elementAt pos with
    | .error f => .error f
    | .ok v =>
      match test v with
      | .error f => .error f
      | .ok true => .ok (some (pos + 1))
      | .ok false => .ok none

def literalFrom (src : Source) : List Value → Int → Except Fault (Option Int)
  | [], pos => .ok (some pos)
  | v :: vs, pos =>
    match step (fun x => .ok (x == v)) src pos with
    | .ok (some next) => literalFrom src vs next
    | answer => answer

/-- The upper bound is looked at only if the lower one holds. -/
def within (low high v : Value) : Except Fault Bool :=
  match low.ordered .atMost v with
  | .ok true => v.ordered .atMost high
  | answer => answer

def scan : Primitive → Source → Int → Except Fault (Option Int)
  | .any, src, pos => .ok (if (src.size : Int) ≤ pos then none else some (pos + 1))
  | .endOfInput, src, pos => .ok (if (src.size : Int) ≤ pos then some pos else none)
  | .element value, src, pos => step (fun x => .ok (x == value)) src pos
  | .literal values, src, pos => literalFrom src values pos
  | .range low high, src, pos => step (within low high) src pos
  | .oneOf members, src, pos => step (fun x => .ok (members.any (· == x))) src pos
  | .regex pattern, .text chars, pos => .ok ((pattern.matchFrom chars pos).map Int.ofNat)
  | .regex _, _, _ => .error .notText
  | .quoted quoting, src, pos => quoting.scan src pos

end Primitive

end PegMatcher
