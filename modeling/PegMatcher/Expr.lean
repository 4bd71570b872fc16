import PegMatcher.Block
import PegMatcher.Routine

/-!
# Parser expressions and rules

Parsers as data. Rules are named by what they are, not by their bodies, so expressions may refer to
rules that are defined later or to themselves. `Expr.run` gives an expression its meaning from a
meaning of the rules, and `invoke` ties the knot: a rule runs its body with one rule fewer to go.
-/

namespace PegMatcher

set_option autoImplicit false

/-- What identifies a rule: a rule of its own, or a name in the table of a grammar. -/
inductive RuleId where
  | loose (index : Nat)
  | slot (grammar : Nat) (name : String)
deriving DecidableEq

inductive Expr where
  | primitive (matcher : Primitive)
  | seq (parts : List Expr)
  | choice (options : List Expr)
  | star (body : Expr)
  | plus (body : Expr)
  | opt (body : Expr)
  | ahead (body : Expr)
  | notAhead (body : Expr)
  | rule (id : RuleId)
  | expect (tracker label : String) (body : Expr)
  | traced (tag : Value) (body : Expr)
  | block (actions : List (Action Expr))
  | routine (routine : Routine Expr)

structure Rule where
  name : Option String := none
  body : Option Expr := none

abbrev Environment := RuleId → Rule

namespace Expr

def scanner (scanner : Scanner) : Expr := .routine (.ofScanner scanner)

mutual

def run (call : RuleId → Parser) : Expr → Setting → State → Reply
  | .primitive matcher, ctx, s => Parser.ofPrimitive matcher ctx s
  | .seq parts, ctx, s => Parser.seq (runAll call parts) ctx s
  | .choice options, ctx, s => Parser.choice (runAll call options) ctx s
  | .star body, ctx, s => Parser.star (run call body) ctx s
  | .plus body, ctx, s => Parser.plus (run call body) ctx s
  | .opt body, ctx, s => Parser.opt (run call body) ctx s
  | .ahead body, ctx, s => Parser.ahead (run call body) ctx s
  | .notAhead body, ctx, s => Parser.notAhead (run call body) ctx s
  | .rule id, ctx, s => call id ctx s
  | .expect tracker label body, ctx, s => Parser.expect tracker label (run call body) ctx s
  | .traced tag body, ctx, s => Parser.traced tag (run call body) ctx s
  | .block actions, ctx, s => Parser.block (runActions call actions) ctx s
  | .routine r, ctx, s => Parser.ofRoutine (runRoutine call r) ctx s

def runAll (call : RuleId → Parser) : List Expr → List Parser
  | [] => []
  | e :: es => run call e :: runAll call es

def runActions (call : RuleId → Parser) : List (Action Expr) → List (Action Parser)
  | [] => []
  | a :: as => runAction call a :: runActions call as

def runAction (call : RuleId → Parser) : Action Expr → Action Parser
  | .need e => .need (run call e)
  | .attempt e => .attempt (run call e)
  | .advance => .advance
  | .commit => .commit
  | .uncommit => .uncommit
  | .rollback => .rollback
  | .rollbackUncommitted => .rollbackUncommitted
  | .sub body => .sub (runActions call body)
  | .raise text => .raise text
  | .succeed => .succeed
  | .fail => .fail
  | .give v => .give v

def runRoutine (call : RuleId → Parser) : Routine Expr → Routine Parser
  | .answer v => .answer v
  | .raise f own => .raise f own
  | .look next => .look fun src pos => runRoutine call (next src pos)
  | .moveTo pos next => .moveTo pos (runRoutine call next)
  | .run e next => .run (run call e) fun matched => runRoutine call (next matched)

end

end Expr

/-- Runs a body one level deeper, unless that is too deep. A refusal inside gives the position back as well. -/
def Parser.nested (name : Option String) (body : Parser) : Parser := fun ctx s =>
  if ctx.maxDepth ≤ s.depth then .raised (.depthExceeded ctx.maxDepth name) s
  else
    match body ctx { s with depth := s.depth + 1 } with
    | .returned v s' => .returned v { s' with depth := s'.depth - 1 }
    | .raised f s' =>
      .raised f { s' with pos := if f.isDepthExceeded then s.pos else s'.pos, depth := s'.depth - 1 }

def Rule.parser (rule : Rule) (run : Expr → Parser) : Parser :=
  match rule.body with
  | none => .fault (.undefinedRule rule.name)
  | some body => .nested rule.name (run body)

/-- Runs a rule inside which at most `levels` more may run. -/
def invoke (env : Environment) : Nat → RuleId → Parser
  | 0, id => (env id).parser fun _ => .fault .diverged
  | levels + 1, id => (env id).parser fun body => body.run (invoke env levels)

def Expr.parser (env : Environment) (e : Expr) : Parser := fun ctx s =>
  e.run (invoke env (ctx.maxDepth - s.depth)) ctx s

end PegMatcher
