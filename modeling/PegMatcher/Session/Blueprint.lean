import PegMatcher.Session.Basic

/-!
# Blueprints

The description of a parser by the names that a session gives to its parts. Building follows the
description from left to right, parts first, and brings the rules, grammars and places in grammars
that it mentions into being even if a later part is refused.
-/

namespace PegMatcher

set_option autoImplicit false

inductive Combinator where
  | seq | choice | star | plus | opt | ahead | notAhead

def Combinator.build : Combinator → List Operand → Except Fault Expr
  | .seq => Factory.seq
  | .choice => Factory.choice
  | .star => Factory.star
  | .plus => Factory.plus
  | .opt => Factory.opt
  | .ahead => Factory.ahead
  | .notAhead => Factory.notAhead

inductive PatternSpec where
  | text (pattern : String)
  | compiled (pattern flags : String)

def PatternSpec.read : PatternSpec → Except Fault Pattern
  | .text pattern => .ok (.written pattern)
  | .compiled pattern flags =>
    match Regex.read? (.ofLetters flags) pattern with
    | some r => .ok (.compiled r)
    | none => .error .malformedPattern

/-- The parts of a quoting that differ from the usual ones. -/
structure QuotingSpec where
  quotes : Option Value := none
  escape : Option Value := none
  escapes : Option Input := none

def QuotingSpec.quoting (spec : QuotingSpec) : Except Fault Quoting := do
  let escapes ← match spec.escapes with
    | none => .ok Lexical.defaultQuoting.escapes
    | some input => do
      let items ← input.items
      match Value.firstUnhashable? items with
      | some kind => .error (.unhashable kind)
      | none => .ok items
  .ok ⟨spec.quotes.getD Lexical.defaultQuoting.quotes,
    spec.escape.getD Lexical.defaultQuoting.escape, escapes⟩

inductive Blueprint where
  /-- A text as a literal; any other value is no parser. -/
  | value (v : Value)
  | pattern (spec : PatternSpec)
  | ready (e : Expr)
  | literal (inputs : List Input)
  | range (low high : Value)
  | oneOf (members : Input)
  | regex (spec : PatternSpec) (flags : String)
  | quoted (spec : QuotingSpec)
  | combine (op : Combinator) (parts : List Blueprint)
  | delimited (item : Blueprint) (separator : Option Blueprint) (spaces : Bool)
  | rule (name : String)
  | slot (grammar name : String)
  | stored (name : String)
  | expect (tracker : String) (part : Blueprint) (label : String)
  | traced (tag : Value) (part : Blueprint)
  | block (actions : List (Action Blueprint))

namespace Blueprint

def ready? (e : Except Fault Expr) : SessionM Operand :=
  (Session.ofExcept e).map .parser

mutual

def build : Blueprint → SessionM Operand
  | .value v => pure (.value v)
  | .pattern spec => do
    match ← Session.ofExcept spec.read with
    | .compiled r => return .pattern r
    | .written text => return .ofString text
  | .ready e => pure (.parser e)
  | .literal inputs => ready? (Factory.literal inputs)
  | .range low high => ready? (Factory.range low high)
  | .oneOf members => ready? (Factory.oneOf members)
  | .regex spec flags => do
    let pattern ← Session.ofExcept spec.read
    ready? (Factory.regex pattern flags)
  | .quoted spec => ready? (spec.quoting.map Lexical.quoted)
  | .combine op parts => do
    let parts ← buildAll parts
    ready? (op.build parts)
  | .delimited item separator spaces => do
    let item ← build item
    let separator ← match separator with
      | some separator => build separator
      | none => pure (.ofString ",")
    ready? (Lexical.delimited item separator spaces)
  | .rule name => do
    let index ← Session.ruleIndex name
    return .parser (.rule (.loose index))
  | .slot grammar name => do
    let index ← Session.grammarIndex grammar
    Session.mentionSlot index name
    return .parser (.rule (.slot index name))
  | .stored name => do
    let s ← get
    return .parser (← Session.named s.parsers name)
  | .expect tracker part label => do
    let part ← build part
    ready? (Factory.expect tracker label part)
  | .traced tag part => do
    let part ← build part
    ready? (Factory.traced tag part)
  | .block actions => do
    let actions ← buildActions actions
    return .parser (.block actions)

def buildAll : List Blueprint → SessionM (List Operand)
  | [] => pure []
  | b :: bs => do
    let p ← build b
    let ps ← buildAll bs
    return p :: ps

def buildActions : List (Action Blueprint) → SessionM (List (Action Expr))
  | [] => pure []
  | a :: as => do
    let b ← buildAction a
    let bs ← buildActions as
    return b :: bs

def buildAction : Action Blueprint → SessionM (Action Expr)
  | .need part => do
    let p ← build part
    return .need (← Session.ofExcept p.convert)
  | .attempt part => do
    let p ← build part
    return .attempt (← Session.ofExcept p.convert)
  | .advance => pure .advance
  | .commit => pure .commit
  | .uncommit => pure .uncommit
  | .rollback => pure .rollback
  | .rollbackUncommitted => pure .rollbackUncommitted
  | .sub body => do
    let body ← buildActions body
    return .sub body
  | .raise text => pure (.raise text)
  | .succeed => pure .succeed
  | .fail => pure .fail
  | .give v => pure (.give v)

end

end Blueprint

end PegMatcher
