import PegMatcher.Value.Render

/-!
# Faults

What can go wrong while a parser is built or run, by cause. Failing to match is not among them: a
parser that does not match answers a value that is not `truthy`. `Fault.message` words each cause.
-/

namespace PegMatcher

set_option autoImplicit false

inductive Comparison where
  | less
  | atMost
deriving DecidableEq

def Comparison.symbol : Comparison → String
  | .less => "<"
  | .atMost => "<="

inductive Shape where
  | text | bytes | list | tuple
deriving DecidableEq

inductive Fault where
  | endOfInput (pos : Int)
  | indexOutside (shape : Shape)
  | indexUnbounded
  | indexKind (shape : Shape) (kind : Kind)
  | zeroStep
  | undefinedRule (name : Option String)
  | missingRule (name : String)
  | ruleDefinedTwice (name : Option String)
  | depthExceeded (maxDepth : Nat) (rule : Option String)
  | incomparable (op : Comparison) (left right : Kind)
  | notIterable (kind : Kind)
  | notContainer (kind : Kind)
  | unhashable (kind : Kind)
  | notParser (kind : Kind)
  | noParsers
  | noLiterals
  | emptyRange (low high : Value)
  | startOutside (pos : Int) (size : Nat)
  | depthTooSmall (requested : Int)
  | foreignSavepoint
  | notCheckpoint
  | notText
  | flagsOnPattern
  | malformedPattern
  | notSubtext (kind : Kind)
  | notSubbytes (kind : Kind)
  | byteOutside
  | noLength (kind : Kind)
  | unknownName (name : String)
  | stated (text : String)
  /-- A parser is repeated without end. -/
  | diverged

namespace Fault

def isDepthExceeded : Fault → Bool
  | .depthExceeded _ _ => true
  | _ => false

/-- A fault that comes of running rules or repeating parsers, and of nothing else that is done by hand. -/
def isReserved : Fault → Bool
  | .depthExceeded _ _ => true
  | .diverged => true
  | _ => false

theorem not_isDepthExceeded {f : Fault} (h : f.isReserved = false) : f.isDepthExceeded = false := by
  cases f with
  | depthExceeded _ _ => cases h
  | _ => rfl

/-- A rule without a name, or with an empty one, is anonymous. -/
def ruleLabel : Option String → String
  | none => "<anonymous>"
  | some name => if name.isEmpty then "<anonymous>" else name

def indexMessage : Shape → String
  | .text => "string index out of range"
  | .bytes => "index out of range"
  | .list => "list index out of range"
  | .tuple => "tuple index out of range"

def indexKindMessage (kind : Kind) : Shape → String
  | .text => "string indices must be integers, not '" ++ kind.name ++ "'"
  | .bytes => "byte indices must be integers or slices, not " ++ kind.name
  | .list => "list indices must be integers or slices, not " ++ kind.name
  | .tuple => "tuple indices must be integers or slices, not " ++ kind.name

def message : Fault → String
  | .endOfInput pos => "Unexpected end of input at position " ++ toString pos
  | .indexOutside shape => indexMessage shape
  | .indexUnbounded => "cannot fit 'int' into an index-sized integer"
  | .indexKind shape kind => indexKindMessage kind shape
  | .zeroStep => "slice step cannot be zero"
  | .undefinedRule name => "Rule `" ++ ruleLabel name ++ "` is used before being defined."
  | .missingRule name => "Rule `" ++ name ++ "` is not defined."
  | .ruleDefinedTwice name => "Rule `" ++ ruleLabel name ++ "` is already defined."
  | .depthExceeded maxDepth rule =>
    "Rule nesting exceeded the maximum depth of " ++ toString maxDepth
      ++ (match rule with | some name => " in rule `" ++ name ++ "`" | none => "") ++ "."
  | .incomparable op left right =>
    "'" ++ op.symbol ++ "' not supported between instances of '" ++ left.name ++ "' and '"
      ++ right.name ++ "'"
  | .notIterable kind => "'" ++ kind.name ++ "' object is not iterable"
  | .notContainer kind => "argument of type '" ++ kind.name ++ "' is not iterable"
  | .unhashable kind => "unhashable type: '" ++ kind.name ++ "'"
  | .notParser kind => "Expected a parser, a string or a regex pattern, got " ++ kind.name ++ "."
  | .noParsers => "At least one parser required."
  | .noLiterals => "At least one literal required."
  | .emptyRange low high => "Empty range: " ++ low.render ++ " is greater than " ++ high.render ++ "."
  | .startOutside pos size =>
    "Starting position " ++ toString pos ++ " is outside of the input (length " ++ toString size
      ++ ")."
  | .depthTooSmall requested => "max_depth must be at least 1, got " ++ toString requested ++ "."
  | .foreignSavepoint => "The savepoint belongs to a different cursor."
  | .notCheckpoint => "A savepoint is no checkpoint."
  | .notText => "regex() can only match `str` input."
  | .flagsOnPattern => "cannot process flags argument with a compiled pattern"
  | .malformedPattern => "malformed pattern"
  | .notSubtext kind => "'in <string>' requires string as left operand, not " ++ kind.name
  | .notSubbytes kind => "a bytes-like object is required, not '" ++ kind.name ++ "'"
  | .byteOutside => "byte must be in range(0, 256)"
  | .noLength kind => "object of type '" ++ kind.name ++ "' has no len()"
  | .unknownName name => "'" ++ name ++ "'"
  | .stated text => text
  | .diverged => "the repetition has no end"

end Fault

end PegMatcher
