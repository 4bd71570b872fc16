import PegMatcher.Expr
import PegMatcher.Regex.Reader

/-!
# Operands and factories

Where a parser is asked for, a text stands for the literal that it spells and a pattern for its regular
expression. `Operand.convert` makes a parser of any of these; the factories below convert their
operands in order, and the first that is no parser is the fault of the whole.
-/

namespace PegMatcher

set_option autoImplicit false

/-- What can be read item by item: a value that holds items, or a stream of them. -/
inductive Input where
  | value (v : Value)
  | stream (items : List Value)

def Input.items : Input → Except Fault (List Value)
  | .stream items => .ok items
  | .value (.text chars) => .ok (chars.map Value.char)
  | .value (.bytes data) => .ok (data.map Value.byte)
  | .value (.list items) => .ok items
  | .value (.tuple items) => .ok items
  | .value v => .error (.notIterable v.kind)

/-- The source to be matched: sequences as they are, a stream as a tuple. -/
def Input.source : Input → Except Fault Source
  | .stream items => .ok (.tuple items.toArray)
  | .value (.text chars) => .ok (.text chars.toArray)
  | .value (.bytes data) => .ok (.bytes data.toArray)
  | .value (.list items) => .ok (.list items.toArray)
  | .value (.tuple items) => .ok (.tuple items.toArray)
  | .value v => .error (.notIterable v.kind)

inductive Operand where
  | parser (e : Expr)
  | pattern (r : Regex)
  | value (v : Value)

/-- A pattern as it is written, or one that was read before. -/
inductive Pattern where
  | written (text : String)
  | compiled (r : Regex)

namespace Expr

def ofText : List Char → Expr
  | [c] => .primitive (.element (.char c))
  | chars => .primitive (.literal (chars.map Value.char))

end Expr

namespace Operand

def ofString (text : String) : Operand := .value (.text text.toList)

def convert : Operand → Except Fault Expr
  | .parser e => .ok e
  | .pattern r => .ok (.primitive (.regex r))
  | .value (.text chars) => .ok (.ofText chars)
  | .value v => .error (.notParser v.kind)

def convertAll : List Operand → Except Fault (List Expr)
  | [] => .ok []
  | p :: ps => do
    let e ← p.convert
    let es ← convertAll ps
    .ok (e :: es)

def joined : List Operand → Except Fault Expr
  | [] => .error .noParsers
  | [p] => p.convert
  | ps => (convertAll ps).map .seq

end Operand

namespace Factory

def seq (ps : List Operand) : Except Fault Expr := (Operand.convertAll ps).map .seq

def choice (ps : List Operand) : Except Fault Expr := (Operand.convertAll ps).map .choice

def star (ps : List Operand) : Except Fault Expr := (Operand.joined ps).map .star

def plus (ps : List Operand) : Except Fault Expr := (Operand.joined ps).map .plus

def opt (ps : List Operand) : Except Fault Expr := (Operand.joined ps).map .opt

def ahead (ps : List Operand) : Except Fault Expr := (Operand.joined ps).map .ahead

def notAhead (ps : List Operand) : Except Fault Expr := (Operand.joined ps).map .notAhead

def expect (tracker label : String) (p : Operand) : Except Fault Expr :=
  p.convert.map (.expect tracker label)

def traced (tag : Value) (p : Operand) : Except Fault Expr := p.convert.map (.traced tag)

def literalRun (input : Input) : Except Fault Expr := input.items.map fun vs => .primitive (.literal vs)

def literal : List Input → Except Fault Expr
  | [] => .error .noLiterals
  | [.value (.text chars)] => .ok (.ofText chars)
  | [input] => literalRun input
  | inputs => (inputs.mapM literalRun).map .choice

def range (low high : Value) : Except Fault Expr := do
  if ← high.ordered .less low then .error (.emptyRange low high)
  else .ok (.primitive (.range low high))

def oneOf (members : Input) : Except Fault Expr := members.items.map fun vs => .primitive (.oneOf vs)

/-- A regular expression. Flags may be given only beside a pattern that is still to be read. -/
def regex (pattern : Pattern) (flags : String) : Except Fault Expr :=
  match pattern with
  | .compiled r => if flags.isEmpty then .ok (.primitive (.regex r)) else .error .flagsOnPattern
  | .written text =>
    match Regex.read? (.ofLetters flags) text with
    | some r => .ok (.primitive (.regex r))
    | none => .error .malformedPattern

end Factory

end PegMatcher
