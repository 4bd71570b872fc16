import PegMatcher.Operand
import PegMatcher.Notice

/-!
# Grammars

A table of rules by name. A name gets its place in the table when it is first mentioned, be it to
define the rule or to refer to it, and keeps it. A name is defined once.
-/

namespace PegMatcher

set_option autoImplicit false

namespace Rule

/-- Gives a rule its body. A rule that has one keeps it. -/
def define (rule : Rule) (body : Operand) : Except Fault Rule :=
  match rule.body with
  | some _ => .error (.ruleDefinedTwice rule.name)
  | none => body.convert.map fun e => { rule with body := some e }

def isDefined (rule : Rule) : Bool := rule.body.isSome

def describe (rule : Rule) : String :=
  "<Rule " ++ Fault.ruleLabel rule.name ++ " (" ++ (if rule.isDefined then "defined" else "undefined")
    ++ ")>"

end Rule

structure Grammar where
  slots : List (String × Option Expr) := []

namespace Grammar

def empty : Grammar := {}

def body? (g : Grammar) (name : String) : Option Expr := (g.slots.lookup name).join

def rule (g : Grammar) (name : String) : Rule := ⟨some name, g.body? name⟩

def mention (g : Grammar) (name : String) : Grammar :=
  if (g.slots.lookup name).isSome then g else ⟨g.slots ++ [(name, none)]⟩

def assign (g : Grammar) (name : String) (body : Expr) : Grammar :=
  ⟨g.slots.map fun slot => if slot.1 = name then (slot.1, some body) else slot⟩

/-- Defines a name. The name is mentioned even if the definition is refused. -/
def define (g : Grammar) (name : String) (body : Operand) : Except Fault Unit × Grammar :=
  let g := g.mention name
  match (g.rule name).define body with
  | .error f => (.error f, g)
  | .ok rule =>
    match rule.body with
    | some e => (.ok (), g.assign name e)
    | none => (.ok (), g)

def contains (g : Grammar) (name : String) : Bool := (g.body? name).isSome

def names (g : Grammar) : List String :=
  (g.slots.filter fun slot => slot.2.isSome).map Prod.fst

def undefined (g : Grammar) : List String :=
  (g.slots.filter fun slot => slot.2.isNone).map Prod.fst

def size (g : Grammar) : Nat := g.slots.countP fun slot => slot.2.isSome

end Grammar

end PegMatcher
