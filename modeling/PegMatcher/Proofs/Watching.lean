import PegMatcher.Proofs.Nesting
import PegMatcher.Proofs.Preservation

/-!
# Watching changes nothing

`Expr.unwatched` leaves every `expect` out of an expression, wherever it stands, and keeps what was
watched. A watch makes a flag of the answer of what it watches and notes failures on a tracker, and no
operator looks at more of an answer than whether it is a match, nor at a tracker. So a run and the same
run without watches go side by side.
-/

namespace PegMatcher

set_option autoImplicit false

namespace Expr

mutual

def unwatched : Expr → Expr
  | .primitive matcher => .primitive matcher
  | .seq parts => .seq (allUnwatched parts)
  | .choice options => .choice (allUnwatched options)
  | .star body => .star (unwatched body)
  | .plus body => .plus (unwatched body)
  | .opt body => .opt (unwatched body)
  | .ahead body => .ahead (unwatched body)
  | .notAhead body => .notAhead (unwatched body)
  | .rule id => .rule id
  | .expect _ _ body => unwatched body
  | .traced tag body => .traced tag (unwatched body)
  | .block actions => .block (actionsUnwatched actions)
  | .routine r => .routine (routineUnwatched r)

def allUnwatched : List Expr → List Expr
  | [] => []
  | e :: es => unwatched e :: allUnwatched es

def actionsUnwatched : List (Action Expr) → List (Action Expr)
  | [] => []
  | a :: as => actionUnwatched a :: actionsUnwatched as

def actionUnwatched : Action Expr → Action Expr
  | .need e => .need (unwatched e)
  | .attempt e => .attempt (unwatched e)
  | .sub body => .sub (actionsUnwatched body)
  | .advance => .advance
  | .commit => .commit
  | .uncommit => .uncommit
  | .rollback => .rollback
  | .rollbackUncommitted => .rollbackUncommitted
  | .raise text => .raise text
  | .succeed => .succeed
  | .fail => .fail
  | .give v => .give v

def routineUnwatched : Routine Expr → Routine Expr
  | .answer v => .answer v
  | .raise f own => .raise f own
  | .look next => .look fun src pos => routineUnwatched (next src pos)
  | .moveTo pos next => .moveTo pos (routineUnwatched next)
  | .run e next => .run (unwatched e) fun matched => routineUnwatched (next matched)

end

end Expr

def Environment.unwatched (env : Environment) : Environment := fun id =>
  { env id with body := (env id).body.map Expr.unwatched }

/-- Runs at one place inside `d` rules, compared by matches and places alone. -/
def Likeness.matching (ctx : Setting) (d : Nat) : Likeness where
  left := ctx
  right := ctx
  shift := 0
  place _ := True
  states s t := s.pos = t.pos ∧ s.depth = d ∧ t.depth = d
  values v w := v.truthy = w.truthy
  excused _ := False
  pos_eq h := by rw [h.1, Int.add_zero]
  place_pos _ := trivial
  moveTo _ h := ⟨(Int.add_zero _).symm, h.2⟩
  record _ _ h := h
  observe _ _ _ _ h := h
  refl _ := rfl
  truthy_eq h := h

namespace Likeness

variable {ctx : Setting} {d : Nat} {L : Likeness} {c c' : RuleId → Parser}

theorem whole_matching : (matching ctx d).Whole := ⟨rfl, rfl, fun _ => trivial⟩

theorem inside_matching : (matching ctx d).Inside (matching ctx (d + 1)) := by
  refine .of_depth_eq rfl rfl id id rfl (fun h => h.2.2.trans h.2.1.symm) ?_ ?_
  · rintro s t ⟨hp, hs, ht⟩
    exact ⟨hp, by rw [← hs], by rw [← ht]⟩
  · rintro s t ⟨hp, hs, ht⟩
    exact ⟨hp, by simp only [hs]; omega, by simp only [ht]; omega⟩

/-- Only the watching side answers with a flag and records; neither is compared. -/
theorem alike_watched (tracker label : String) {p q : Parser} (h : (matching ctx d).Alike p q) :
    (matching ctx d).Alike (.expect tracker label p) q := by
  intro s t hst
  have hr := h s t hst
  unfold Parser.expect
  generalize p (matching ctx d).left s = a at hr ⊢
  generalize q (matching ctx d).right t = b at hr ⊢
  cases hr with
  | @returned v w s' t' hv hs =>
    by_cases htrue : v.truthy = true
    · simp only [htrue, if_true]
      exact .returned (htrue.symm.trans hv) hs
    · simp only [htrue]
      rw [Bool.not_eq_true] at htrue
      exact .returned (htrue.symm.trans hv) hs
  | raised hs => exact .raised hs
  | excused hf => exact hf.elim

structure Oblivious (L : Likeness) (c c' : RuleId → Parser) : Prop where
  whole : L.Whole
  rules : ∀ id, L.Alike (c id) (c' id)
  watch : ∀ tracker label {p q : Parser}, L.Alike p q → L.Alike (.expect tracker label p) q

mutual

/-- Expressions run alike without their watches, wherever a single watch makes no difference. -/
theorem alike_unwatched (h : L.Oblivious c c') : ∀ e : Expr,
    L.Alike (e.run c) (e.unwatched.run c')
  | .primitive m => h.whole.primitive m
  | .seq parts => alike_seq (alike_allUnwatched h parts)
  | .choice options => alike_choice (alike_allUnwatched h options)
  | .star body => (alike_unwatched h body).star
  | .plus body => (alike_unwatched h body).plus
  | .opt body => (alike_unwatched h body).opt
  | .ahead body => (alike_unwatched h body).ahead
  | .notAhead body => (alike_unwatched h body).notAhead
  | .rule id => h.rules id
  | .expect tracker label body => h.watch tracker label (alike_unwatched h body)
  | .traced tag body => (alike_unwatched h body).traced tag
  | .block actions => alike_block h.whole (alike_actionsUnwatched h actions)
  | .routine r => alike_routineUnwatched h r

theorem alike_allUnwatched (h : L.Oblivious c c') : ∀ es : List Expr,
    List.Forall₂ L.Alike (Expr.runAll c es) (Expr.runAll c' (Expr.allUnwatched es))
  | [] => .nil
  | e :: es => .cons (alike_unwatched h e) (alike_allUnwatched h es)

theorem alike_actionsUnwatched (h : L.Oblivious c c') : ∀ as : List (Action Expr),
    L.ActionsAlike (Expr.runActions c as) (Expr.runActions c' (Expr.actionsUnwatched as))
  | [] => fun _ _ _ _ hs => .done hs
  | a :: as => actionsAlike_cons (alike_actionUnwatched h a) (alike_actionsUnwatched h as)

theorem alike_actionUnwatched (h : L.Oblivious c c') : ∀ a : Action Expr,
    L.ActionAlike (Expr.runAction c a) (Expr.runAction c' (Expr.actionUnwatched a))
  | .need e => actionAlike_need (alike_unwatched h e)
  | .attempt e => actionAlike_attempt (alike_unwatched h e)
  | .sub body => actionAlike_sub h.whole (alike_actionsUnwatched h body)
  | .advance => actionAlike_advance h.whole
  | .commit => fun _ _ _ _ hs => .done hs
  | .uncommit => fun _ _ _ _ hs => .done hs
  | .rollback => fun _ _ _ _ hs => .done (h.whole.moveTo _ hs)
  | .rollbackUncommitted => fun _ _ _ _ hs => .done (h.whole.settle _ _ hs)
  | .raise _ => fun _ _ _ _ hs => .raised hs
  | .succeed => fun _ _ _ _ hs => .left (L.refl _) hs
  | .fail => fun _ _ _ _ hs => .left (L.refl _) hs
  | .give _ => fun _ _ _ _ hs => .left (L.refl _) hs

theorem alike_routineUnwatched (h : L.Oblivious c c') : ∀ r : Routine Expr,
    L.Alike (.ofRoutine (Expr.runRoutine c r))
      (.ofRoutine (Expr.runRoutine c' (Expr.routineUnwatched r)))
  | .answer _ => fun _ _ hs => .returned (L.refl _) hs
  | .raise _ _ => fun _ _ hs => .raised hs
  | .look next => alike_look h.whole fun src pos => alike_routineUnwatched h (next src pos)
  | .moveTo pos next => alike_moveTo h.whole pos (alike_routineUnwatched h next)
  | .run e next =>
    alike_run (alike_unwatched h e) fun matched => alike_routineUnwatched h (next matched)

end

theorem Inside.ruleUnwatched {L' : Likeness} (hi : L.Inside L') (env : Environment) (id : RuleId)
    {run run' : Expr → Parser} (h : ∀ body : Expr, L'.Alike (run body) (run' body.unwatched)) :
    L.Alike ((env id).parser run) ((env.unwatched id).parser run') := by
  unfold Rule.parser Environment.unwatched
  cases (env id).body with
  | none => exact alike_fault _
  | some body => exact hi.nested _ (h body)

theorem matching_invoke (env : Environment) (n : Nat) : ∀ d id,
    (matching ctx d).Alike (invoke env n id) (invoke env.unwatched n id) := by
  induction n with
  | zero => exact fun d id => inside_matching.ruleUnwatched env id fun _ => alike_fault _
  | succ n ih =>
    intro d id
    refine inside_matching.ruleUnwatched env id fun body => ?_
    exact alike_unwatched ⟨whole_matching, ih (d + 1), fun _ _ _ _ => alike_watched _ _⟩ body

end Likeness

namespace Expr

variable {src : Source}

mutual

theorem heeds_unwatched : ∀ e : Expr, e.unwatched.Heeds (.silent src)
  | .primitive _ => trivial
  | .seq parts => allHeed_unwatched parts
  | .choice options => allHeed_unwatched options
  | .star body => heeds_unwatched body
  | .plus body => heeds_unwatched body
  | .opt body => heeds_unwatched body
  | .ahead body => heeds_unwatched body
  | .notAhead body => heeds_unwatched body
  | .rule _ => trivial
  | .expect _ _ body => heeds_unwatched body
  | .traced _ body => heeds_unwatched body
  | .block actions => actionsHeed_unwatched actions
  | .routine r => routineHeeds_unwatched r

theorem allHeed_unwatched : ∀ es : List Expr, AllHeed (.silent src) (allUnwatched es)
  | [] => trivial
  | e :: es => ⟨heeds_unwatched e, allHeed_unwatched es⟩

theorem actionsHeed_unwatched : ∀ as : List (Action Expr),
    ActionsHeed (.silent src) (actionsUnwatched as)
  | [] => trivial
  | a :: as => ⟨actionHeeds_unwatched a, actionsHeed_unwatched as⟩

theorem actionHeeds_unwatched : ∀ a : Action Expr, ActionHeeds (.silent src) (actionUnwatched a)
  | .need e => heeds_unwatched e
  | .attempt e => heeds_unwatched e
  | .sub body => actionsHeed_unwatched body
  | .advance => trivial
  | .commit => trivial
  | .uncommit => trivial
  | .rollback => trivial
  | .rollbackUncommitted => trivial
  | .raise _ => trivial
  | .succeed => trivial
  | .fail => trivial
  | .give _ => trivial

theorem routineHeeds_unwatched : ∀ r : Routine Expr,
    RoutineHeeds (.silent src) (routineUnwatched r)
  | .answer _ => trivial
  | .raise _ _ => trivial
  | .look next => fun pos _ => routineHeeds_unwatched (next src pos)
  | .moveTo _ next => ⟨trivial, routineHeeds_unwatched next⟩
  | .run e next => ⟨heeds_unwatched e, fun matched => routineHeeds_unwatched (next matched)⟩

end

end Expr

theorem Environment.heeds_unwatched (env : Environment) (src : Source) :
    env.unwatched.Heeds (.silent src) := by
  intro id body hb
  obtain ⟨watched, _, rfl⟩ := Option.map_eq_some_iff.mp hb
  exact watched.heeds_unwatched

def Invariant.sameTrackers (src : Source) (ts : Trackers) : Invariant (.silent src) where
  holds s := s.trackers = ts
  place_pos _ := trivial
  moveTo _ h := h
  record _ ht _ := ht.elim
  observe _ h := h
  count _ h := h

/-- Both runs match or both do not, or both have the same fault; and they end at one place. -/
inductive Reply.Agrees : Reply → Reply → Prop where
  | returned {v w : Value} {s t : State} : v.truthy = w.truthy → s.pos = t.pos →
      s.depth = t.depth → Agrees (.returned v s) (.returned w t)
  | raised {f : Fault} {s t : State} : s.pos = t.pos → s.depth = t.depth →
      Agrees (.raised f s) (.raised f t)

theorem Likeness.Replies.agrees {ctx : Setting} {d : Nat} {r r' : Reply}
    (h : (matching ctx d).Replies r r') : r.Agrees r' := by
  cases h with
  | returned hv hs => exact .returned hv hs.1 (hs.2.1.trans hs.2.2.symm)
  | raised hs => exact .raised hs.1 (hs.2.1.trans hs.2.2.symm)
  | excused hf => exact hf.elim

/-- An expression and its rules run as they do without any watch: they match alike, fault alike and end at the
same place and depth, whatever the trackers hold. -/
theorem watching_is_transparent (env : Environment) (e : Expr) (ctx : Setting) (pos : Int)
    (depth : Nat) (ts us : Trackers) (trace trace' : Array Observation) :
    let bare := e.unwatched.parser env.unwatched ctx ⟨pos, depth, us, trace'⟩
    (e.parser env ctx ⟨pos, depth, ts, trace⟩).Agrees bare ∧ bare.state.trackers = us := by
  intro bare
  constructor
  · have hrules : ∀ id, (Likeness.matching ctx depth).Alike (invoke env (ctx.maxDepth - depth) id)
        (invoke env.unwatched (ctx.maxDepth - depth) id) := Likeness.matching_invoke env _ depth
    have hrun := Likeness.alike_unwatched
      ⟨Likeness.whole_matching, hrules, fun _ _ _ _ => Likeness.alike_watched _ _⟩ e
    exact (hrun ⟨pos, depth, ts, trace⟩ ⟨pos, depth, us, trace'⟩ ⟨rfl, rfl, rfl⟩).agrees
  · exact (Invariant.sameTrackers ctx.source us).kept_run (env.heeds_unwatched _)
      e.heeds_unwatched ctx.maxDepth _ rfl

/-- A watch makes a flag of the number that is answered; it still is no match, one element further on. -/
example :
    let zero : Expr := .expect "t" "zero" (.scanner (.yielding (.int 0)))
    let run (e : Expr) := e.parser (fun _ => {}) ⟨.text #['a'], 1⟩ ⟨0, 0, [], #[]⟩
    run zero = .returned (.bool false) ⟨1, 0, [("t", ⟨1, ["zero"]⟩)], #[]⟩ ∧
      run zero.unwatched = .returned (.int 0) ⟨1, 0, [], #[]⟩ := ⟨rfl, rfl⟩

end PegMatcher
