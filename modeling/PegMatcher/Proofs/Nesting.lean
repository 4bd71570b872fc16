import PegMatcher.Proofs.Likeness

/-!
# The meaning of expressions, rule by rule

Every run gives back the count of running rules as it found it. So the levels that `invoke` has left
are always those that the count leaves, and `Expr.parser` obeys one equation for each operator, in
which an expression stands for a parser and a rule for the parser of its body, one level deeper.
-/

namespace PegMatcher

set_option autoImplicit false

/-- Two runs at one position inside `d` rules; `exact` asks for the same trackers and trace as well. -/
def Likeness.level (ctx : Setting) (d : Nat) (exact : Prop) : Likeness where
  left := ctx
  right := ctx
  shift := 0
  place _ := True
  states s t := s.pos = t.pos ∧ s.depth = d ∧ t.depth = d ∧ (exact → s = t)
  values := Eq
  excused _ := False
  pos_eq h := by rw [h.1, Int.add_zero]
  place_pos _ := trivial
  moveTo _ h := ⟨(Int.add_zero _).symm, h.2.1, h.2.2.1, fun he => by rw [h.2.2.2 he, Int.add_zero]⟩
  record _ _ h := ⟨h.1, h.2.1, h.2.2.1, fun he => by rw [h.2.2.2 he]⟩
  observe _ _ _ ho h := ⟨h.1, h.2.1, h.2.2.1, fun he => by
    rw [h.2.2.2 he, Int.add_zero, Int.add_zero]
    cases ho with
    | some hv => rw [hv]
    | none => rfl⟩
  refl := Eq.refl
  truthy_eq := @Value.truthy_congr

namespace Likeness

variable {ctx : Setting} {d n : Nat} {exact : Prop} {p q : Parser} {env : Environment}

theorem whole_level : (level ctx d exact).Whole := ⟨rfl, rfl, fun _ => trivial⟩

theorem inside_level : (level ctx d exact).Inside (level ctx (d + 1) exact) := by
  refine .of_depth_eq rfl rfl id id rfl (fun h => h.2.2.1.trans h.2.1.symm) ?_ ?_
  · rintro s t ⟨hp, hd, hd', he⟩
    exact ⟨hp, by rw [← hd], by rw [← hd'], fun hx => by rw [he hx]⟩
  · rintro s t ⟨hp, hd, hd', he⟩
    exact ⟨hp, by simp only [hd]; omega, by simp only [hd']; omega, fun hx => by rw [he hx]⟩

theorem level_invoke (env : Environment) (n : Nat) : ∀ d id,
    (level ctx d exact).Alike (invoke env n id) (invoke env n id) :=
  alike_invoke (L := fun d => level ctx d exact) (fun _ => whole_level) (fun _ => inside_level) env n

theorem level_run (env : Environment) (n : Nat) (e : Expr) :
    (level ctx d exact).Alike (e.run (invoke env n)) (e.run (invoke env n)) :=
  alike_expr whole_level (level_invoke env n d) e

theorem level_meaning (e : Expr) :
    (level ctx d exact).Alike (e.run (invoke env (ctx.maxDepth - d))) (e.parser env) := by
  intro s t hs
  have h := level_run env (ctx.maxDepth - d) e s t hs
  rwa [Expr.parser, hs.2.2.1]

theorem eq_of_level {s : State} (h : (level ctx s.depth True).Alike p q) : p ctx s = q ctx s := by
  have hr : (level ctx s.depth True).Replies (p ctx s) (q ctx s) :=
    h s s ⟨rfl, rfl, rfl, fun _ => rfl⟩
  generalize p ctx s = a at hr ⊢
  generalize q ctx s = b at hr ⊢
  cases hr with
  | returned hv hs => rw [hv, hs.2.2.2 trivial]
  | raised hs => rw [hs.2.2.2 trivial]
  | excused hf => exact hf.elim

theorem depth_of_level {s : State} (h : (level ctx s.depth True).Alike p p) :
    (p ctx s).state.depth = s.depth := by
  have hstates := (h s s ⟨rfl, rfl, rfl, fun _ => rfl⟩).states fun _ => id
  exact hstates.2.1

theorem parser_eq_of_level {e : Expr} {s : State}
    (h : (level ctx s.depth True).Alike (e.run (invoke env (ctx.maxDepth - s.depth))) p) :
    e.parser env ctx s = p ctx s := by
  rw [Expr.parser]
  exact eq_of_level h

end Likeness

namespace Expr

open Likeness

variable (env : Environment)

/-- The count of running rules is given back, whichever way a run ends. -/
theorem parser_depth (e : Expr) (ctx : Setting) (s : State) :
    (e.parser env ctx s).state.depth = s.depth :=
  depth_of_level (p := e.run (invoke env (ctx.maxDepth - s.depth))) (level_run env _ e)

theorem level_parts (ctx : Setting) (d : Nat) (es : List Expr) :
    List.Forall₂ (level ctx d True).Alike (runAll (invoke env (ctx.maxDepth - d)) es)
      (es.map (parser env)) := by
  induction es with
  | nil => exact .nil
  | cons e es ih => exact .cons (level_meaning e) ih

theorem parser_primitive (m : Primitive) : (primitive m).parser env = .ofPrimitive m := rfl

theorem parser_endOfInput (ctx : Setting) (s : State) : (primitive .endOfInput).parser env ctx s =
    .returned (.bool (decide ((ctx.source.size : Int) ≤ s.pos))) s := by
  rw [parser_primitive, Parser.ofPrimitive]
  by_cases hle : (ctx.source.size : Int) ≤ s.pos
  · simp only [Primitive.scan, hle, if_true, decide_true]
    rfl
  · simp only [Primitive.scan, hle, if_false, decide_false]

theorem parser_seq (es : List Expr) : (seq es).parser env = .seq (es.map (parser env)) := by
  funext ctx s
  exact parser_eq_of_level (alike_seq (level_parts env ctx s.depth es))

theorem parser_choice (es : List Expr) :
    (choice es).parser env = .choice (es.map (parser env)) := by
  funext ctx s
  exact parser_eq_of_level (alike_choice (level_parts env ctx s.depth es))

theorem parser_star (e : Expr) : (star e).parser env = .star (e.parser env) := by
  funext ctx s
  exact parser_eq_of_level (level_meaning e).star

theorem parser_plus (e : Expr) : (plus e).parser env = .plus (e.parser env) := by
  funext ctx s
  exact parser_eq_of_level (level_meaning e).plus

theorem parser_opt (e : Expr) : (opt e).parser env = .opt (e.parser env) := by
  funext ctx s
  exact parser_eq_of_level (level_meaning e).opt

theorem parser_ahead (e : Expr) : (ahead e).parser env = .ahead (e.parser env) := by
  funext ctx s
  exact parser_eq_of_level (level_meaning e).ahead

theorem parser_notAhead (e : Expr) : (notAhead e).parser env = .notAhead (e.parser env) := by
  funext ctx s
  exact parser_eq_of_level (level_meaning e).notAhead

theorem parser_expect (tracker label : String) (e : Expr) :
    (expect tracker label e).parser env = .expect tracker label (e.parser env) := by
  funext ctx s
  exact parser_eq_of_level ((level_meaning e).expect tracker label)

theorem parser_traced (tag : Value) (e : Expr) :
    (traced tag e).parser env = .traced tag (e.parser env) := by
  funext ctx s
  exact parser_eq_of_level ((level_meaning e).traced tag)

theorem parser_look (next : Source → Int → Routine Expr) (ctx : Setting) (s : State) :
    (routine (.look next)).parser env ctx s =
      (routine (next ctx.source s.pos)).parser env ctx s := by
  simp only [parser, run, runRoutine, Parser.ofRoutine]

theorem parser_moveTo (pos : Int) (r : Routine Expr) (ctx : Setting) (s : State) :
    (routine (.moveTo pos r)).parser env ctx s = (routine r).parser env ctx (s.moveTo pos) := by
  simp only [parser, run, runRoutine, Parser.ofRoutine, State.moveTo]

/-- What a routine runs is an expression of its own, and so is the rest of the routine. -/
theorem parser_run (e : Expr) (next : Bool → Routine Expr) (ctx : Setting) (s : State) :
    (routine (.run e next)).parser env ctx s =
      match e.parser env ctx s with
      | .returned v s' => (routine (next v.truthy)).parser env ctx s'
      | .raised f s' => .raised f s' := by
  have hd := e.parser_depth env ctx s
  simp only [parser, run, runRoutine, Parser.ofRoutine] at hd ⊢
  generalize e.run (invoke env (ctx.maxDepth - s.depth)) ctx s = r at hd ⊢
  cases r with
  | raised f s' => rfl
  | returned v s' =>
    simp only [Reply.state] at hd
    simp only [hd]

/-- A rule runs its body as an expression of its own, one level deeper. -/
theorem parser_rule (id : RuleId) : (rule id).parser env = (env id).parser (parser env) := by
  funext ctx s
  simp only [parser, run]
  cases hb : (env id).body with
  | none => cases ctx.maxDepth - s.depth <;> simp only [invoke, Rule.parser, hb]
  | some body =>
    cases hn : ctx.maxDepth - s.depth with
    | zero =>
      have hmax : ctx.maxDepth ≤ s.depth := by omega
      simp only [invoke, Rule.parser, hb, Parser.nested, hmax, if_true]
    | succ n =>
      have hmax : ¬ ctx.maxDepth ≤ s.depth := by omega
      have hn' : ctx.maxDepth - (s.depth + 1) = n := by omega
      simp only [invoke, Rule.parser, hb, Parser.nested, hmax, if_false, parser, hn']

end Expr

end PegMatcher
