import PegMatcher.Expr
import PegMatcher.Operand
import PegMatcher.Notice

/-!
# Cursors

A cursor is a position in a source together with a bound on how deep rules may nest. The bound asked
for is clamped to what a recursion limit leaves room for, at a fixed cost per rule.
-/

namespace PegMatcher

set_option autoImplicit false

def defaultMaxDepth : Int := 100

/-- What one nested rule costs of the recursion limit. -/
def ruleCost : Int := 8

/-- What is kept free of the recursion limit. -/
def reservedDepth : Int := 50

def allowedDepth (limit reserve : Int) : Int := max 1 ((limit - reserve).fdiv ruleCost)

def clampDepth (limit requested reserve : Int) : Int × Option Notice :=
  let allowed := allowedDepth limit reserve
  if requested > allowed then (allowed, some (.depthClamped requested limit allowed))
  else (requested, none)

structure Cursor where
  source : Source
  pos : Int
  maxDepth : Nat
  depth : Nat := 0
deriving Inhabited

namespace Cursor

/-- A cursor at a position of an input, with the remark that its depth had to be clamped. -/
def start (limit : Int) (input : Input) (pos maxDepth : Int) : Except Fault (Cursor × Option Notice) := do
  let source ← input.source
  if ¬ (0 ≤ pos ∧ pos ≤ source.size) then .error (.startOutside pos source.size)
  else if maxDepth < 1 then .error (.depthTooSmall maxDepth)
  else
    let (depth, notice) := clampDepth limit maxDepth reservedDepth
    .ok (⟨source, pos, depth.toNat, 0⟩, notice)

def setting (c : Cursor) : Setting := ⟨c.source, c.maxDepth⟩

def atEnd (c : Cursor) : Bool := decide ((c.source.size : Int) ≤ c.pos)

def peek (c : Cursor) : Except Fault Value := c.source.peek c.pos

def advance (c : Cursor) : Except Fault Cursor :=
  if c.atEnd then .error (.endOfInput c.pos) else .ok { c with pos := c.pos + 1 }

def rest (c : Cursor) : Value := c.source.slice c.pos c.source.size

def describe (c : Cursor) : String :=
  "<Cursor " ++ toString c.pos ++ "/" ++ toString c.source.size ++ ">"

end Cursor

end PegMatcher
