import PegMatcher.Cursor
import PegMatcher.Grammar
import PegMatcher.Lexical
import PegMatcher.Mismatch

/-!
# Matching an input

The ways to run a parser on a fresh cursor. All of them leave behind what the run did to the trackers
and what it noted, also when they end in a failure.
-/

namespace PegMatcher

set_option autoImplicit false

inductive Failure where
  | fault (f : Fault)
  | mismatch (m : Mismatch)

structure Journal where
  trackers : Trackers := []
  trace : Array Observation := #[]
  notices : Array Notice := #[]

abbrev Task := EStateM Failure Journal

namespace Task

def ofExcept {α : Type} : Except Fault α → Task α
  | .ok a => pure a
  | .error f => throw (.fault f)

def note (notice : Notice) : Task Unit :=
  modify fun j => { j with notices := j.notices.push notice }

def noteAll (notice? : Option Notice) : Task Unit :=
  match notice? with
  | some notice => note notice
  | none => pure ()

end Task

namespace Cursor

def place (limit : Int) (input : Input) (pos maxDepth : Int) : Task Cursor := do
  let (c, notice?) ← Task.ofExcept (start limit input pos maxDepth)
  Task.noteAll notice?
  return c

def run (env : Environment) (e : Expr) (c : Cursor) (j : Journal) :
    Except Fault Value × Cursor × Journal :=
  let reply := e.parser env c.setting ⟨c.pos, c.depth, j.trackers, j.trace⟩
  let s := reply.state
  let answer := match reply with
    | .returned v _ => .ok v
    | .raised f _ => .error f
  (answer, { c with pos := s.pos, depth := s.depth },
    { j with trackers := s.trackers, trace := s.trace })

def match? (env : Environment) (e : Expr) (c : Cursor) : Task (Option Int) := do
  let j ← get
  let (answer, c, j) := c.run env e j
  set j
  let v ← Task.ofExcept answer
  return if v.truthy then some c.pos else none

end Cursor

/-- The end of the match at a position. The cursor is placed before the operand is converted. -/
def matchAt (env : Environment) (limit : Int) (p : Operand) (input : Input) (pos : Int) :
    Task (Option Int) := do
  let c ← Cursor.place limit input pos defaultMaxDepth
  let e ← Task.ofExcept p.convert
  c.match? env e

def matchesWhole (env : Environment) (limit : Int) (p : Operand) (input : Input) : Task Bool := do
  let e ← Task.ofExcept (Factory.seq [p, .parser (.primitive .endOfInput)])
  let c ← Cursor.place limit input 0 defaultMaxDepth
  let stop? ← c.match? env e
  return stop?.isSome

structure ParseOptions where
  /-- The tracker that says where a failure is; one of its own if none is named. -/
  tracker : Option String := none
  full : Bool := true
  pos : Int := 0
  maxDepth : Int := defaultMaxDepth

def endLabel : String := "end of input"

namespace ParseOptions

def onTracker (o : ParseOptions) (change : Tracker → Tracker) : Task Unit :=
  match o.tracker with
  | some name => modify fun j => { j with trackers := j.trackers.modify name change }
  | none => pure ()

def report (o : ParseOptions) (own : Tracker) (source : Source) : Task Mismatch := do
  let j ← get
  let t := match o.tracker with
    | some name => j.trackers.get name
    | none => own
  let m := t.mismatch (.ofSource source)
  Task.note (.parseFailed m.pos m.text)
  return m

end ParseOptions

/-- The end of a match that has to be there, or a report from its tracker, which is reset first. -/
def parse (env : Environment) (limit : Int) (p : Operand) (input : Input) (o : ParseOptions) :
    Task Int := do
  o.onTracker fun _ => .fresh
  let c ← Cursor.place limit input o.pos o.maxDepth
  let e ← Task.ofExcept p.convert
  match ← c.match? env e with
  | some stop =>
    if ¬ o.full ∨ (c.source.size : Int) ≤ stop then return stop
    else
      o.onTracker fun t => t.record stop endLabel
      throw (.mismatch (← o.report (Tracker.fresh.record stop endLabel) c.source))
  | none => throw (.mismatch (← o.report .fresh c.source))

/-- The end of the match of a defined rule. The grammar is asked for the name before the cursor is placed. -/
def Grammar.matchAt (g : Grammar) (id : Nat) (env : Environment) (limit : Int) (name : String)
    (input : Input) (pos maxDepth : Int) : Task (Option Int) := do
  if ¬ g.contains name then throw (.fault (.missingRule name))
  let c ← Cursor.place limit input pos maxDepth
  c.match? env (.rule (.slot id name))

end PegMatcher
