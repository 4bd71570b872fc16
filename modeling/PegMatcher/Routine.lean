import PegMatcher.Parser
import PegMatcher.Scanner

/-!
# Routines

A hand-written parser, as the tree of what it may come to do: it looks at the source and the position,
moves the cursor, runs parsers and goes on as they match or not, and ends with an answer or a fault of
its own. It need not keep to any rule for parsers. What goes wrong in a parser that it runs passes
through it, and it touches neither the count of running rules nor the trackers.
-/

namespace PegMatcher

set_option autoImplicit false

inductive Routine (P : Type) where
  | answer (value : Value)
  | raise (fault : Fault) (own : fault.isReserved = false)
  | look (next : Source → Int → Routine P)
  | moveTo (pos : Int) (next : Routine P)
  | run (parser : P) (next : Bool → Routine P)

def Routine.ofScanner {P : Type} (scanner : Scanner) : Routine P :=
  .look fun src pos =>
    match h : scanner.scan src pos with
    | (.ok v, stop) => .moveTo stop (.answer v)
    | (.error f, stop) => .moveTo stop (.raise f (scanner.not_reserved src pos f (by rw [h])))

def Parser.ofRoutine : Routine Parser → Parser
  | .answer v, _, s => .returned v s
  | .raise f _, _, s => .raised f s
  | .look next, ctx, s => ofRoutine (next ctx.source s.pos) ctx s
  | .moveTo pos next, ctx, s => ofRoutine next ctx (s.moveTo pos)
  | .run p next, ctx, s =>
    match p ctx s with
    | .returned v s' => ofRoutine (next v.truthy) ctx s'
    | .raised f s' => .raised f s'

end PegMatcher
