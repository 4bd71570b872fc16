import PegMatcher.Parser

/-!
# Checkpoint blocks

A hand-written parser opens a checkpoint and performs actions under it. Leaving the block by a fault
restores the position of the checkpoint. Leaving it in another way restores that position unless the
checkpoint, or one around it, is committed. Blocks nest: an action may open a block of its own, and
an answer given inside leaves all blocks, the inner ones first.
-/

namespace PegMatcher

set_option autoImplicit false

inductive Action (P : Type) where
  | need (parser : P)
  | attempt (parser : P)
  | advance
  | commit
  | uncommit
  | rollback
  | rollbackUncommitted
  | sub (body : List (Action P))
  | raise (text : String)
  | succeed
  | fail
  | give (value : Value)

structure Frame where
  pos : Int
  committed : Bool

inductive Flow where
  | done (frame : Frame) (state : State)
  | left (value : Value) (frame : Frame) (state : State)
  | raised (fault : Fault) (state : State)

namespace Frame

def openAt (s : State) : Frame := ⟨s.pos, false⟩

/-- A checkpoint counts as committed if one around it is. -/
def isCommitted (frame : Frame) (outer : List Frame) : Bool :=
  frame.committed || outer.any Frame.committed

def settle (frame : Frame) (outer : List Frame) (s : State) : State :=
  if frame.isCommitted outer then s else s.moveTo frame.pos

end Frame

/-- Leaves the block of a checkpoint opened at `start`. -/
def Flow.leave (start : Int) (outer : List Frame) : Flow → Flow
  | .done frame s => .done frame (frame.settle outer s)
  | .left v frame s => .left v frame (frame.settle outer s)
  | .raised f s => .raised f (s.moveTo start)

namespace Block

mutual

def perform (outer : List Frame) (frame : Frame) :
    List (Action Parser) → Setting → State → Flow
  | [], _, s => .done frame s
  | a :: as, ctx, s =>
    match act outer frame a ctx s with
    | .done frame' s' => perform outer frame' as ctx s'
    | flow => flow

def act (outer : List Frame) (frame : Frame) : Action Parser → Setting → State → Flow
  | .need p, ctx, s =>
    match p ctx s with
    | .returned v s' =>
      if v.truthy then .done frame s' else .left (.bool false) { frame with committed := false } s'
    | .raised f s' => .raised f s'
  | .attempt p, ctx, s =>
    match p ctx s with
    | .returned _ s' => .done frame s'
    | .raised f s' => .raised f s'
  | .advance, ctx, s =>
    if (ctx.source.size : Int) ≤ s.pos then .raised (.endOfInput s.pos) s
    else .done frame (s.moveTo (s.pos + 1))
  | .commit, _, s => .done { frame with committed := true } s
  | .uncommit, _, s => .done { frame with committed := false } s
  | .rollback, _, s => .done frame (s.moveTo frame.pos)
  | .rollbackUncommitted, _, s => .done frame (frame.settle outer s)
  | .sub body, ctx, s =>
    match (perform (frame :: outer) (.openAt s) body ctx s).leave s.pos (frame :: outer) with
    | .done _ s' => .done frame s'
    | .left v _ s' => .left v frame s'
    | .raised f s' => .raised f s'
  | .raise text, _, s => .raised (.stated text) s
  | .succeed, _, s => .left (.bool true) { frame with committed := true } s
  | .fail, _, s => .left (.bool false) { frame with committed := false } s
  | .give v, _, s => .left v frame s

end

end Block

/-- A hand-written parser: its actions under one checkpoint. Running off their end answers true. -/
def Parser.block (actions : List (Action Parser)) : Parser := fun ctx s =>
  match (Block.perform [] (.openAt s) actions ctx s).leave s.pos [] with
  | .done _ s' => .returned (.bool true) s'
  | .left v _ s' => .returned v s'
  | .raised f s' => .raised f s'

end PegMatcher
