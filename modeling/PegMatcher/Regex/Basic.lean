import PegMatcher.Text.Case
import PegMatcher.Text.Classes
import PegMatcher.Text.Word

/-!
# Regular expressions

Patterns with ordered choice and backtracking, matched at a fixed start. A pattern is tried with a
continuation that says whether what follows can still succeed; the first way that it accepts wins.
Flags have been resolved into the expression, so matching needs only the text.
-/

namespace PegMatcher.Regex

set_option autoImplicit false

inductive Member where
  | char (code : Nat)
  | range (low high : Nat)
  | digit (negated : Bool)
  | blank (negated : Bool)
  | word (negated : Bool)
deriving DecidableEq

namespace Member

def inRange (low high code : Nat) : Bool := decide (low ≤ code) && decide (code ≤ high)

def holds (c : Char) : Member → Bool
  | .char code => c.toNat == code
  | .range low high => inRange low high c.toNat
  | .digit negated => Text.isDecimalDigit c != negated
  | .blank negated => Text.isBlank c != negated
  | .word negated => Text.isWord c != negated

def basicPlaneEnd : Nat := 0xFFFF

/-- A single member beyond the basic plane is compared with the small letter as it is, and a range that goes
beyond it also holds the letters whose spelled capital begins in it. -/
def holdsAnyCase (c : Char) : Member → Bool
  | .char code =>
    if code ≤ basicPlaneEnd then (Text.caseVariants c.toNat).contains code
    else Text.smallLetter c.toNat == code
  | .range low high =>
    (Text.caseVariants c.toNat).any (inRange low high) ||
      decide (basicPlaneEnd < high) &&
        (Text.spelledCapitals.lookup c.toNat).any (inRange low high)
  | m => m.holds c

end Member

structure CharSet where
  negated : Bool
  ignoreCase : Bool
  members : List Member
deriving DecidableEq

namespace CharSet

def matchesAnyCase (c : Char) : List Member → Bool
  | [.char code] => (Text.caseVariants c.toNat).contains code
  | members => members.any (Member.holdsAnyCase c)

def contains (set : CharSet) (c : Char) : Bool :=
  (if set.ignoreCase then matchesAnyCase c set.members else set.members.any (Member.holds c))
    != set.negated

end CharSet

inductive Anchor where
  | textStart
  | lineStart
  | textEnd
  | lineEnd
  | finalLineEnd
  | boundary
  | noBoundary
deriving DecidableEq

def atBoundary (text : Array Char) (p : Nat) : Bool :=
  let left := p != 0 && (text[p - 1]?.any Text.isWord)
  let right := text[p]?.any Text.isWord
  left != right

def Anchor.holds (text : Array Char) (p : Nat) : Anchor → Bool
  | .textStart => p == 0
  | .lineStart => p == 0 || text[p - 1]? == some '\n'
  | .textEnd => p == text.size
  | .lineEnd => p == text.size || text[p]? == some '\n'
  | .finalLineEnd => p == text.size || (p + 1 == text.size && text[p]? == some '\n')
  | .boundary => text.size != 0 && atBoundary text p
  | .noBoundary => text.size != 0 && !atBoundary text p

structure Rounds where
  greedy : Bool
  least : Nat
  most : Option Nat

def Rounds.allows (r : Rounds) (count : Nat) : Bool :=
  match r.most with
  | some most => decide (count < most)
  | none => true

end Regex

inductive Regex where
  | empty
  | one (set : Regex.CharSet)
  | anchor (place : Regex.Anchor)
  | seq (first second : Regex)
  | alt (first second : Regex)
  | repeated (rounds : Regex.Rounds) (body : Regex)

namespace Regex

/-- Offers the ends that it can reach to the continuation, in the order of preference. -/
abbrev Matcher := Nat → (Nat → Option Nat) → Option Nat

/-- `last` is where the latest round beyond the least number began; a round that came back to its start is the
last one. -/
def iterate (rounds : Rounds) (once : Matcher) : Nat → Nat → Option Nat → Matcher
  | 0, _, _, _, _ => none
  | fuel + 1, count, last, p, k =>
    if count < rounds.least then once p fun q => iterate rounds once fuel (count + 1) last q k
    else
      let more (_ : Unit) : Option Nat :=
        if rounds.allows count && last != some p then
          once p fun q => iterate rounds once fuel (count + 1) (some p) q k
        else none
      if rounds.greedy then more () <|> k p else k p <|> more ()

def run (text : Array Char) : Regex → Matcher
  | .empty, p, k => k p
  | .one set, p, k =>
    match text[p]? with
    | some c => if set.contains c then k (p + 1) else none
    | none => none
  | .anchor place, p, k => if place.holds text p then k p else none
  | .seq first second, p, k => first.run text p fun q => second.run text q k
  | .alt first second, p, k => first.run text p k <|> second.run text p k
  | .repeated rounds body, p, k =>
    iterate rounds (body.run text) (rounds.least + (text.size - p) + 2) 0 none p k

/-- A start before the text is its beginning, and one behind it its end. -/
def matchFrom (r : Regex) (text : Array Char) (pos : Int) : Option Nat :=
  r.run text (min text.size pos.toNat) some

end Regex

end PegMatcher
