import PegMatcher.Expr
import PegMatcher.Proofs.PrimitiveMatches
import PegMatcher.Proofs.Repetition

/-!
# What runs keep

A `Scope` says to which places a cursor may be moved and on which trackers may be recorded. Primitives
and the operators never leave it of themselves; `Expr.Heeds` says that hand-written parts do not either.
An `Invariant` is a property of states that single moves, records and counts inside the scope keep. A
whole run of what heeds the scope then keeps it as well, whichever way the run ends.
-/

namespace PegMatcher

set_option autoImplicit false

structure Scope (src : Source) where
  place : Int → Prop
  tracker : String → Prop
  scan : ∀ {m : Primitive} {pos next}, place pos → m.scan src pos = .ok (some next) → place next
  advance : ∀ {pos : Int}, place pos → pos < src.size → place (pos + 1)

namespace Scope

/-- Between the ends of the source, and on any tracker. -/
def inside (src : Source) : Scope src where
  place pos := 0 ≤ pos ∧ pos ≤ src.size
  tracker _ := True
  scan h hscan := by
    have hbounds := Primitive.scan_bounds h.1 h.2 hscan
    exact ⟨Int.le_trans h.1 hbounds.1, hbounds.2⟩
  advance h hlt := by omega

def silent (src : Source) : Scope src where
  place _ := True
  tracker _ := False
  scan _ _ := trivial
  advance _ _ := trivial

end Scope

variable {src : Source} {S : Scope src}

namespace Expr

mutual

/-- Hand-written parts move the cursor only to places of the scope, and record only on its trackers. -/
def Heeds (S : Scope src) : Expr → Prop
  | .primitive _ => True
  | .seq parts => AllHeed S parts
  | .choice options => AllHeed S options
  | .star body => Heeds S body
  | .plus body => Heeds S body
  | .opt body => Heeds S body
  | .ahead body => Heeds S body
  | .notAhead body => Heeds S body
  | .rule _ => True
  | .expect tracker _ body => S.tracker tracker ∧ Heeds S body
  | .traced _ body => Heeds S body
  | .block actions => ActionsHeed S actions
  | .routine r => RoutineHeeds S r

def AllHeed (S : Scope src) : List Expr → Prop
  | [] => True
  | e :: es => Heeds S e ∧ AllHeed S es

def ActionsHeed (S : Scope src) : List (Action Expr) → Prop
  | [] => True
  | a :: as => ActionHeeds S a ∧ ActionsHeed S as

def ActionHeeds (S : Scope src) : Action Expr → Prop
  | .need e => Heeds S e
  | .attempt e => Heeds S e
  | .sub body => ActionsHeed S body
  | .advance => True
  | .commit => True
  | .uncommit => True
  | .rollback => True
  | .rollbackUncommitted => True
  | .raise _ => True
  | .succeed => True
  | .fail => True
  | .give _ => True

def RoutineHeeds (S : Scope src) : Routine Expr → Prop
  | .answer _ => True
  | .raise _ _ => True
  | .look next => ∀ pos, S.place pos → RoutineHeeds S (next src pos)
  | .moveTo pos next => S.place pos ∧ RoutineHeeds S next
  | .run e next => Heeds S e ∧ ∀ matched, RoutineHeeds S (next matched)

end

end Expr

def Environment.Heeds (S : Scope src) (env : Environment) : Prop :=
  ∀ id body, (env id).body = some body → body.Heeds S

structure Invariant (S : Scope src) where
  holds : State → Prop
  place_pos : ∀ {s}, holds s → S.place s.pos
  moveTo : ∀ {s pos}, S.place pos → holds s → holds (s.moveTo pos)
  record : ∀ {s tracker} label, S.tracker tracker → holds s → holds (s.record tracker label)
  observe : ∀ {s} o, holds s → holds (s.observe o)
  count : ∀ {s} depth, holds s → holds { s with depth }

namespace Invariant

variable {I : Invariant S}

def Kept (I : Invariant S) (p : Parser) : Prop :=
  ∀ maxDepth s, I.holds s → I.holds (p ⟨src, maxDepth⟩ s).state

theorem back (I : Invariant S) {s s' : State} (h : I.holds s) (h' : I.holds s') :
    I.holds (s'.moveTo s.pos) := I.moveTo (I.place_pos h) h'

theorem andThen {r : Reply} {k : Value → State → Reply} (h : I.holds r.state)
    (next : ∀ {v s}, I.holds s → I.holds (k v s).state) :
    I.holds (match r with | .returned v s => k v s | .raised f s => .raised f s).state := by
  cases r with
  | returned v s => exact next h
  | raised f s => exact h

section Operators

variable {p : Parser} {ps : List Parser}

theorem kept_primitive (m : Primitive) : I.Kept (.ofPrimitive m) := by
  intro n s hs
  unfold Parser.ofPrimitive
  split
  · rename_i next hscan
    exact I.moveTo (S.scan (I.place_pos hs) hscan) hs
  · exact hs
  · exact hs

theorem Kept.guarded (hp : I.Kept p) : I.Kept p.guarded := by
  intro n s hs
  refine andThen (hp n s hs) fun {v s'} h => ?_
  split
  · exact h
  · exact I.back hs h

theorem kept_all (h : ∀ p ∈ ps, I.Kept p) : I.Kept (.all ps) := by
  induction ps with
  | nil => exact fun _ _ hs => hs
  | cons p ps ih =>
    intro n s hs
    refine andThen (h p (by simp) n s hs) fun {v s'} hs' => ?_
    split
    · exact ih (fun q hq => h q (by simp [hq])) n s' hs'
    · exact hs'

theorem kept_seq (h : ∀ p ∈ ps, I.Kept p) : I.Kept (.seq ps) := (kept_all h).guarded

theorem kept_choice (h : ∀ p ∈ ps, I.Kept p) : I.Kept (.choice ps) := by
  induction ps with
  | nil => exact fun _ _ hs => hs
  | cons p ps ih =>
    intro n s hs
    refine andThen (h p (by simp) n s hs) fun {v s'} hs' => ?_
    split
    · exact hs'
    · exact ih (fun q hq => h q (by simp [hq])) n s' hs'

theorem Kept.rounds (hp : I.Kept p) {maxDepth n : Nat} {s : State} {r : Reply}
    (hr : Parser.Rounds p ⟨src, maxDepth⟩ s n r) (hs : I.holds s) : I.holds r.state := by
  induction hr with
  | @failed s s' v run _ =>
    have h := hp maxDepth s hs
    rwa [run] at h
  | @stayed s s' v run _ _ =>
    have h := hp maxDepth s hs
    rwa [run] at h
  | @raised s s' f run =>
    have h := hp maxDepth s hs
    rwa [run] at h
  | @again s s' v n r run _ _ _ ih =>
    have h := hp maxDepth s hs
    rw [run] at h
    exact ih h

theorem Kept.star (hp : I.Kept p) : I.Kept p.star := by
  intro n s hs
  cases hr : Parser.repeated p ⟨src, n⟩ s with
  | none =>
    rw [Parser.star_of_endless hr]
    exact hs
  | some r =>
    rw [Parser.star_of_repeated hr]
    obtain ⟨k, hk⟩ := Parser.exists_rounds hr
    exact hp.rounds hk hs

theorem Kept.plus (hp : I.Kept p) : I.Kept p.plus := by
  intro n s hs
  refine andThen (hp n s hs) fun {v s'} h => ?_
  split
  · split
    · exact h
    · exact andThen (hp.star n s' h) fun hrest => hrest
  · exact h

theorem Kept.opt (hp : I.Kept p) : I.Kept p.opt := fun n s hs =>
  andThen (hp n s hs) fun h => h

theorem Kept.ahead (hp : I.Kept p) : I.Kept p.ahead := fun n s hs =>
  andThen (hp n s hs) fun h => I.back hs h

theorem Kept.notAhead (hp : I.Kept p) : I.Kept p.notAhead := fun n s hs =>
  andThen (hp n s hs) fun h => I.back hs h

theorem Kept.expect {tracker : String} (label : String) (ht : S.tracker tracker) (hp : I.Kept p) :
    I.Kept (p.expect tracker label) := by
  intro n s hs
  refine andThen (hp n s hs) fun {v s'} h => ?_
  split
  · exact h
  · exact I.record label ht h

theorem Kept.traced (tag : Value) (hp : I.Kept p) : I.Kept (p.traced tag) := by
  intro n s hs
  have h := hp n s hs
  unfold Parser.traced
  cases hr : p ⟨src, n⟩ s with
  | returned v s' =>
    rw [hr] at h
    exact I.observe _ h
  | raised f s' =>
    rw [hr] at h
    exact I.observe _ h

/-- A refusal gives back the position before the rule, where the property held. -/
theorem Kept.nested (name : Option String) (hp : I.Kept p) : I.Kept (.nested name p) := by
  intro n s hs
  have h := hp n _ (I.count (s.depth + 1) hs)
  unfold Parser.nested
  split
  · exact hs
  · cases hr : p ⟨src, n⟩ { s with depth := s.depth + 1 } with
    | returned v s' =>
      rw [hr] at h
      exact I.count _ h
    | raised f s' =>
      rw [hr] at h
      dsimp only
      split
      · exact I.count (s'.depth - 1) (I.back hs h)
      · exact I.count _ h

end Operators

/-- The property holds where the actions end, and their checkpoint would move back to a place. -/
def HoldsAfter (I : Invariant S) : Flow → Prop
  | .done frame s => S.place frame.pos ∧ I.holds s
  | .left _ frame s => S.place frame.pos ∧ I.holds s
  | .raised _ s => I.holds s

def ActionKept (I : Invariant S) (a : Action Parser) : Prop :=
  ∀ maxDepth outer frame s, S.place frame.pos → I.holds s →
    I.HoldsAfter (Block.act outer frame a ⟨src, maxDepth⟩ s)

def ActionsKept (I : Invariant S) (as : List (Action Parser)) : Prop :=
  ∀ maxDepth outer frame s, S.place frame.pos → I.holds s →
    I.HoldsAfter (Block.perform outer frame as ⟨src, maxDepth⟩ s)

section Blocks

variable {p : Parser} {a : Action Parser} {as : List (Action Parser)}

theorem settle {frame : Frame} (outer : List Frame) {s : State} (hf : S.place frame.pos)
    (hs : I.holds s) : I.holds (frame.settle outer s) := by
  unfold Frame.settle
  split
  · exact hs
  · exact I.moveTo hf hs

theorem HoldsAfter.leave {flow : Flow} {start : Int} (outer : List Frame) (h : I.HoldsAfter flow)
    (hstart : S.place start) : I.HoldsAfter (flow.leave start outer) := by
  cases flow with
  | done frame s => exact ⟨h.1, settle outer h.1 h.2⟩
  | left v frame s => exact ⟨h.1, settle outer h.1 h.2⟩
  | raised f s => exact I.moveTo hstart h

theorem actionKept_need (hp : I.Kept p) : I.ActionKept (.need p) := by
  intro n outer frame s hf hs
  have h := hp n s hs
  unfold Block.act
  cases hr : p ⟨src, n⟩ s with
  | raised f s' =>
    rw [hr] at h
    exact h
  | returned v s' =>
    rw [hr] at h
    dsimp only
    split <;> exact ⟨hf, h⟩

theorem actionKept_attempt (hp : I.Kept p) : I.ActionKept (.attempt p) := by
  intro n outer frame s hf hs
  have h := hp n s hs
  unfold Block.act
  cases hr : p ⟨src, n⟩ s with
  | raised f s' =>
    rw [hr] at h
    exact h
  | returned v s' =>
    rw [hr] at h
    exact ⟨hf, h⟩

theorem actionKept_advance : I.ActionKept .advance := by
  intro n outer frame s hf hs
  unfold Block.act
  split
  · exact hs
  · rename_i hlt
    exact ⟨hf, I.moveTo (S.advance (I.place_pos hs) (Int.not_le.mp hlt)) hs⟩

theorem actionKept_sub (h : I.ActionsKept as) : I.ActionKept (.sub as) := by
  intro n outer frame s hf hs
  have hstart := I.place_pos hs
  have hleft := (h n (frame :: outer) (.openAt s) s hstart hs).leave (frame :: outer) hstart
  unfold Block.act
  cases hflow : (Block.perform (frame :: outer) (.openAt s) as ⟨src, n⟩ s).leave s.pos
      (frame :: outer) with
  | done inner s' =>
    rw [hflow] at hleft
    exact ⟨hf, hleft.2⟩
  | left v inner s' =>
    rw [hflow] at hleft
    exact ⟨hf, hleft.2⟩
  | raised f s' =>
    rw [hflow] at hleft
    exact hleft

theorem actionsKept_cons (ha : I.ActionKept a) (has : I.ActionsKept as) :
    I.ActionsKept (a :: as) := by
  intro n outer frame s hf hs
  have h := ha n outer frame s hf hs
  unfold Block.perform
  cases hact : Block.act outer frame a ⟨src, n⟩ s with
  | done frame' s' =>
    rw [hact] at h
    exact has n outer frame' s' h.1 h.2
  | left v frame' s' => rwa [hact] at h
  | raised f s' => rwa [hact] at h

theorem kept_block (h : I.ActionsKept as) : I.Kept (.block as) := by
  intro n s hs
  have hstart := I.place_pos hs
  have hleft := (h n [] (.openAt s) s hstart hs).leave [] hstart
  unfold Parser.block
  cases hflow : (Block.perform [] (.openAt s) as ⟨src, n⟩ s).leave s.pos [] with
  | done frame s' =>
    rw [hflow] at hleft
    exact hleft.2
  | left v frame s' =>
    rw [hflow] at hleft
    exact hleft.2
  | raised f s' =>
    rw [hflow] at hleft
    exact hleft

end Blocks

section Expressions

variable {call : RuleId → Parser}

mutual

theorem kept_expr (hrules : ∀ id, I.Kept (call id)) : ∀ e : Expr, e.Heeds S → I.Kept (e.run call)
  | .primitive m, _ => kept_primitive m
  | .seq parts, h => kept_seq (kept_parts hrules parts h)
  | .choice options, h => kept_choice (kept_parts hrules options h)
  | .star body, h => (kept_expr hrules body h).star
  | .plus body, h => (kept_expr hrules body h).plus
  | .opt body, h => (kept_expr hrules body h).opt
  | .ahead body, h => (kept_expr hrules body h).ahead
  | .notAhead body, h => (kept_expr hrules body h).notAhead
  | .rule id, _ => hrules id
  | .expect _ label body, h => (kept_expr hrules body h.2).expect label h.1
  | .traced tag body, h => (kept_expr hrules body h).traced tag
  | .block actions, h => kept_block (kept_actions hrules actions h)
  | .routine r, h => kept_routine hrules r h

theorem kept_parts (hrules : ∀ id, I.Kept (call id)) : ∀ es : List Expr, Expr.AllHeed S es →
    ∀ p ∈ Expr.runAll call es, I.Kept p
  | [], _ => nofun
  | e :: es, h => List.forall_mem_cons.mpr ⟨kept_expr hrules e h.1, kept_parts hrules es h.2⟩

theorem kept_actions (hrules : ∀ id, I.Kept (call id)) : ∀ as : List (Action Expr),
    Expr.ActionsHeed S as → I.ActionsKept (Expr.runActions call as)
  | [], _ => fun _ _ _ _ hf hs => ⟨hf, hs⟩
  | a :: as, h => actionsKept_cons (kept_action hrules a h.1) (kept_actions hrules as h.2)

theorem kept_action (hrules : ∀ id, I.Kept (call id)) : ∀ a : Action Expr,
    Expr.ActionHeeds S a → I.ActionKept (Expr.runAction call a)
  | .need e, h => actionKept_need (kept_expr hrules e h)
  | .attempt e, h => actionKept_attempt (kept_expr hrules e h)
  | .sub body, h => actionKept_sub (kept_actions hrules body h)
  | .advance, _ => actionKept_advance
  | .commit, _ => fun _ _ _ _ hf hs => ⟨hf, hs⟩
  | .uncommit, _ => fun _ _ _ _ hf hs => ⟨hf, hs⟩
  | .rollback, _ => fun _ _ _ _ hf hs => ⟨hf, I.moveTo hf hs⟩
  | .rollbackUncommitted, _ => fun _ outer _ _ hf hs => ⟨hf, settle outer hf hs⟩
  | .raise _, _ => fun _ _ _ _ _ hs => hs
  | .succeed, _ => fun _ _ _ _ hf hs => ⟨hf, hs⟩
  | .fail, _ => fun _ _ _ _ hf hs => ⟨hf, hs⟩
  | .give _, _ => fun _ _ _ _ hf hs => ⟨hf, hs⟩

theorem kept_routine (hrules : ∀ id, I.Kept (call id)) : ∀ r : Routine Expr,
    Expr.RoutineHeeds S r → I.Kept (.ofRoutine (Expr.runRoutine call r))
  | .answer _, _ => fun _ _ hs => hs
  | .raise _ _, _ => fun _ _ hs => hs
  | .look next, h => fun n s hs =>
    kept_routine hrules (next src s.pos) (h s.pos (I.place_pos hs)) n s hs
  | .moveTo _ next, h => fun n _ hs => kept_routine hrules next h.2 n _ (I.moveTo h.1 hs)
  | .run e next, h => fun n s hs => by
    simp only [Expr.runRoutine, Parser.ofRoutine]
    refine andThen (kept_expr hrules e h.1 n s hs) fun {v s'} hs' => ?_
    exact kept_routine hrules (next v.truthy) (h.2 v.truthy) n s' hs'

end

end Expressions

variable {env : Environment}

theorem kept_rule (rule : Rule) {run : Expr → Parser}
    (h : ∀ body, rule.body = some body → I.Kept (run body)) : I.Kept (rule.parser run) := by
  unfold Rule.parser
  split
  · exact fun _ _ hs => hs
  · rename_i body hbody
    exact (h body hbody).nested _

theorem kept_invoke (henv : env.Heeds S) (levels : Nat) : ∀ id, I.Kept (invoke env levels id) := by
  induction levels with
  | zero => exact fun id => kept_rule (env id) fun _ _ _ _ hs => hs
  | succ n ih => exact fun id => kept_rule (env id) fun body hb => kept_expr ih body (henv id body hb)

/-- What every step inside the scope keeps, a whole run keeps, whether it answers or faults. -/
theorem kept_run (I : Invariant S) (henv : env.Heeds S) {e : Expr} (he : e.Heeds S) :
    I.Kept (e.parser env) := fun _ s hs =>
  kept_expr (kept_invoke henv _) e he _ s hs

end Invariant

/-- Hand-written parts move the cursor only to places in the source. -/
abbrev Expr.StaysIn (src : Source) (e : Expr) : Prop := e.Heeds (.inside src)

abbrev Environment.StaysIn (src : Source) (env : Environment) : Prop := env.Heeds (.inside src)

def Invariant.inside (src : Source) : Invariant (.inside src) where
  holds s := 0 ≤ s.pos ∧ s.pos ≤ src.size
  place_pos h := h
  moveTo h _ := h
  record _ _ h := h
  observe _ h := h
  count _ h := h

theorem Expr.StaysIn.pos_bounds {env : Environment} {e : Expr} (ctx : Setting) (s : State)
    (he : e.StaysIn ctx.source) (henv : env.StaysIn ctx.source) (h0 : 0 ≤ s.pos)
    (h1 : s.pos ≤ ctx.source.size) :
    0 ≤ (e.parser env ctx s).state.pos ∧ (e.parser env ctx s).state.pos ≤ ctx.source.size :=
  (Invariant.inside ctx.source).kept_run henv he ctx.maxDepth s ⟨h0, h1⟩

end PegMatcher
