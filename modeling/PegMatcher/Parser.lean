import PegMatcher.Primitive
import PegMatcher.Tracker

/-!
# Parsers

A parser runs at a cursor and answers a value or a fault; either way it leaves a state behind. A
value that is not `truthy` means that it did not match. The operators here combine arbitrary parsers,
whether or not these restore the position when they fail. Only `seq`, `ahead` and `notAhead` restore
it themselves, and no operator restores it when a fault passes through.
-/

namespace PegMatcher

set_option autoImplicit false

structure Setting where
  source : Source
  maxDepth : Nat

/-- A run of a parser: where it began, what it answered unless it faulted, and where it left the cursor. -/
structure Observation where
  tag : Value
  start : Int
  answer : Option Value
  stop : Int

structure State where
  pos : Int
  depth : Nat
  trackers : Trackers
  trace : Array Observation

inductive Reply where
  | returned (value : Value) (state : State)
  | raised (fault : Fault) (state : State)

abbrev Parser := Setting → State → Reply

namespace Reply

def state : Reply → State
  | .returned _ s => s
  | .raised _ s => s

end Reply

namespace State

def moveTo (s : State) (pos : Int) : State := { s with pos }

def observe (s : State) (o : Observation) : State := { s with trace := s.trace.push o }

def record (s : State) (tracker label : String) : State :=
  { s with trackers := s.trackers.modify tracker fun t => t.record s.pos label }

end State

namespace Parser

def answer (v : Value) : Parser := fun _ s => .returned v s

def fault (f : Fault) : Parser := fun _ s => .raised f s

def ofPrimitive (p : Primitive) : Parser := fun ctx s =>
  match p.scan ctx.source s.pos with
  | .ok (some stop) => .returned (.bool true) (s.moveTo stop)
  | .ok none => .returned (.bool false) s
  | .error f => .raised f s

def all : List Parser → Parser
  | [], _, s => .returned (.bool true) s
  | p :: ps, ctx, s =>
    match p ctx s with
    | .returned v s' => if v.truthy then all ps ctx s' else .returned (.bool false) s'
    | .raised f s' => .raised f s'

/-- Restores the position if the parser does not match. -/
def guarded (p : Parser) : Parser := fun ctx s =>
  match p ctx s with
  | .returned v s' => .returned v (if v.truthy then s' else s'.moveTo s.pos)
  | .raised f s' => .raised f s'

def seq (ps : List Parser) : Parser := guarded (all ps)

def choice : List Parser → Parser
  | [], _, s => .returned (.bool false) s
  | p :: ps, ctx, s =>
    match p ctx s with
    | .returned v s' => if v.truthy then .returned (.bool true) s' else choice ps ctx s'
    | .raised f s' => .raised f s'

/-- Without reply if the parser moves back and forth without end. -/
def repeated (p : Parser) (ctx : Setting) (s : State) : Option Reply :=
  match p ctx s with
  | .returned v s' =>
    if v.truthy then
      if s'.pos = s.pos then some (.returned (.bool true) s') else p |>.repeated ctx s'
    else some (.returned (.bool true) s')
  | .raised f s' => some (.raised f s')
partial_fixpoint

/-- To repeat without end is a fault of its own, which no run lives to see. -/
def star (p : Parser) : Parser := fun ctx s => (repeated p ctx s).getD (.raised .diverged s)

/-- Matches a parser at least once, and then as `star` does if that moved. -/
def plus (p : Parser) : Parser := fun ctx s =>
  match p ctx s with
  | .returned v s' =>
    if v.truthy then
      if s'.pos = s.pos then .returned (.bool true) s'
      else
        match star p ctx s' with
        | .returned _ s'' => .returned (.bool true) s''
        | .raised f s'' => .raised f s''
    else .returned (.bool false) s'
  | .raised f s' => .raised f s'

def opt (p : Parser) : Parser := fun ctx s =>
  match p ctx s with
  | .returned _ s' => .returned (.bool true) s'
  | .raised f s' => .raised f s'

def ahead (p : Parser) : Parser := fun ctx s =>
  match p ctx s with
  | .returned v s' => .returned (.bool v.truthy) (s'.moveTo s.pos)
  | .raised f s' => .raised f s'

def notAhead (p : Parser) : Parser := fun ctx s =>
  match p ctx s with
  | .returned v s' => .returned (.bool !v.truthy) (s'.moveTo s.pos)
  | .raised f s' => .raised f s'

/-- Records a label on a tracker where the parser does not match. -/
def expect (tracker label : String) (p : Parser) : Parser := fun ctx s =>
  match p ctx s with
  | .returned v s' =>
    if v.truthy then .returned (.bool true) s'
    else .returned (.bool false) (s'.record tracker label)
  | .raised f s' => .raised f s'

def traced (tag : Value) (p : Parser) : Parser := fun ctx s =>
  match p ctx s with
  | .returned v s' => .returned v (s'.observe ⟨tag, s.pos, some v, s'.pos⟩)
  | .raised f s' => .raised f (s'.observe ⟨tag, s.pos, none, s'.pos⟩)

end Parser

end PegMatcher
