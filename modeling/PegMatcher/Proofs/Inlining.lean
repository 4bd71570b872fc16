import PegMatcher.Proofs.Limits

/-!
# Inlining rules

A reference to a rule may be replaced by the body of the rule. The run behind a replacement has fewer rules
around it, and that is all that it differs in: a refusal for depth apart, no operator looks at their number,
and a rule passes on whatever its body answers. So a run that is not refused is the same with any references
replaced, in the expression or in the bodies of the rules themselves.
-/

namespace PegMatcher

set_option autoImplicit false

namespace Expr

mutual

/-- Some references to defined rules are replaced by their bodies, inside which others may be in their turn. -/
inductive Inlines (env : Environment) : Expr → Expr → Prop where
  | same (e : Expr) : Inlines env e e
  | body {id : RuleId} {body e' : Expr} : (env id).body = some body → Inlines env body e' →
      Inlines env (.rule id) e'
  | seq {es es' : List Expr} : AllInline env es es' → Inlines env (.seq es) (.seq es')
  | choice {es es' : List Expr} : AllInline env es es' → Inlines env (.choice es) (.choice es')
  | star {e e' : Expr} : Inlines env e e' → Inlines env (.star e) (.star e')
  | plus {e e' : Expr} : Inlines env e e' → Inlines env (.plus e) (.plus e')
  | opt {e e' : Expr} : Inlines env e e' → Inlines env (.opt e) (.opt e')
  | ahead {e e' : Expr} : Inlines env e e' → Inlines env (.ahead e) (.ahead e')
  | notAhead {e e' : Expr} : Inlines env e e' → Inlines env (.notAhead e) (.notAhead e')
  | expect {tracker label : String} {e e' : Expr} : Inlines env e e' →
      Inlines env (.expect tracker label e) (.expect tracker label e')
  | traced {tag : Value} {e e' : Expr} : Inlines env e e' → Inlines env (.traced tag e) (.traced tag e')
  | block {as as' : List (Action Expr)} : ActionsInline env as as' → Inlines env (.block as) (.block as')
  | routine {r r' : Routine Expr} : RoutineInlines env r r' → Inlines env (.routine r) (.routine r')

inductive AllInline (env : Environment) : List Expr → List Expr → Prop where
  | nil : AllInline env [] []
  | cons {e e' : Expr} {es es' : List Expr} : Inlines env e e' → AllInline env es es' →
      AllInline env (e :: es) (e' :: es')

inductive ActionsInline (env : Environment) : List (Action Expr) → List (Action Expr) → Prop where
  | nil : ActionsInline env [] []
  | cons {a a' : Action Expr} {as as' : List (Action Expr)} : ActionInlines env a a' →
      ActionsInline env as as' → ActionsInline env (a :: as) (a' :: as')

inductive ActionInlines (env : Environment) : Action Expr → Action Expr → Prop where
  | same (a : Action Expr) : ActionInlines env a a
  | need {e e' : Expr} : Inlines env e e' → ActionInlines env (.need e) (.need e')
  | attempt {e e' : Expr} : Inlines env e e' → ActionInlines env (.attempt e) (.attempt e')
  | sub {as as' : List (Action Expr)} : ActionsInline env as as' → ActionInlines env (.sub as) (.sub as')

inductive RoutineInlines (env : Environment) : Routine Expr → Routine Expr → Prop where
  | same (r : Routine Expr) : RoutineInlines env r r
  | look {next next' : Source → Int → Routine Expr} :
      (∀ src pos, RoutineInlines env (next src pos) (next' src pos)) →
      RoutineInlines env (.look next) (.look next')
  | moveTo {pos : Int} {r r' : Routine Expr} : RoutineInlines env r r' →
      RoutineInlines env (.moveTo pos r) (.moveTo pos r')
  | run {e e' : Expr} {next next' : Bool → Routine Expr} : Inlines env e e' →
      (∀ matched, RoutineInlines env (next matched) (next' matched)) →
      RoutineInlines env (.run e next) (.run e' next')

end

end Expr

def Environment.Inlines (env env' : Environment) : Prop := ∀ id,
  (env' id).name = (env id).name ∧ Option.Rel (Expr.Inlines env) (env id).body (env' id).body

theorem Environment.inlines_self (env : Environment) : env.Inlines env := by
  intro id
  refine ⟨rfl, ?_⟩
  cases (env id).body with
  | none => exact .none
  | some body => exact .some (.same body)

namespace Likeness

variable {L : Likeness} {env env' : Environment} {c c' : RuleId → Parser}

/-- Rules run alike, and on the left as what stands for them on the right where they are replaced. -/
structure Inlined (L : Likeness) (env : Environment) (c c' : RuleId → Parser) : Prop where
  whole : L.Whole
  rules : ∀ id, L.Alike (c id) (c' id)
  bodies : ∀ {id body e'}, (env id).body = some body → body.Inlines env e' → L.Alike (c id) (e'.run c')

mutual

theorem alike_inlined (h : L.Inlined env c c') : ∀ {e e' : Expr}, e.Inlines env e' →
    L.Alike (e.run c) (e'.run c')
  | e, _, .same _ => alike_expr h.whole h.rules e
  | _, _, .body hbody he => h.bodies hbody he
  | _, _, .seq hes => alike_seq (alike_allInlined h hes)
  | _, _, .choice hes => alike_choice (alike_allInlined h hes)
  | _, _, .star he => (alike_inlined h he).star
  | _, _, .plus he => (alike_inlined h he).plus
  | _, _, .opt he => (alike_inlined h he).opt
  | _, _, .ahead he => (alike_inlined h he).ahead
  | _, _, .notAhead he => (alike_inlined h he).notAhead
  | _, _, .expect he => (alike_inlined h he).expect _ _
  | _, _, .traced he => (alike_inlined h he).traced _
  | _, _, .block has => alike_block h.whole (alike_actionsInlined h has)
  | _, _, .routine hr => alike_routineInlined h hr

theorem alike_allInlined (h : L.Inlined env c c') : ∀ {es es' : List Expr}, Expr.AllInline env es es' →
    List.Forall₂ L.Alike (Expr.runAll c es) (Expr.runAll c' es')
  | _, _, .nil => .nil
  | _, _, .cons he hes => .cons (alike_inlined h he) (alike_allInlined h hes)

theorem alike_actionsInlined (h : L.Inlined env c c') : ∀ {as as' : List (Action Expr)},
    Expr.ActionsInline env as as' → L.ActionsAlike (Expr.runActions c as) (Expr.runActions c' as')
  | _, _, .nil => fun _ _ _ _ hs => .done hs
  | _, _, .cons ha has => actionsAlike_cons (alike_actionInlined h ha) (alike_actionsInlined h has)

theorem alike_actionInlined (h : L.Inlined env c c') : ∀ {a a' : Action Expr},
    Expr.ActionInlines env a a' → L.ActionAlike (Expr.runAction c a) (Expr.runAction c' a')
  | a, _, .same _ => alike_action h.whole h.rules a
  | _, _, .need he => actionAlike_need (alike_inlined h he)
  | _, _, .attempt he => actionAlike_attempt (alike_inlined h he)
  | _, _, .sub has => actionAlike_sub h.whole (alike_actionsInlined h has)

theorem alike_routineInlined (h : L.Inlined env c c') : ∀ {r r' : Routine Expr},
    Expr.RoutineInlines env r r' →
    L.Alike (.ofRoutine (Expr.runRoutine c r)) (.ofRoutine (Expr.runRoutine c' r'))
  | r, _, .same _ => alike_routine h.whole h.rules r
  | _, _, .look hnext => alike_look h.whole fun src pos => alike_routineInlined h (hnext src pos)
  | _, _, .moveTo hr => alike_moveTo h.whole _ (alike_routineInlined h hr)
  | _, _, .run he hnext =>
    alike_run (alike_inlined h he) fun matched => alike_routineInlined h (hnext matched)

end

/-- Equal runs under one bound, inside `d` rules and `d'` rules, up to a refusal on the left. -/
def depths (ctx : Setting) (d d' : Nat) : Likeness where
  left := ctx
  right := ctx
  shift := 0
  place _ := True
  states s t := s.depth = d ∧ t = { s with depth := d' }
  values := Eq
  excused f := f.isDepthExceeded = true
  pos_eq h := by rw [h.2, Int.add_zero]
  place_pos _ := trivial
  moveTo _ h := ⟨h.1, by rw [h.2, Int.add_zero]; rfl⟩
  record _ _ h := ⟨h.1, by rw [h.2]; rfl⟩
  observe _ _ _ ho h := by
    rw [h.2, Int.add_zero, Int.add_zero]
    cases ho with
    | some hv => exact ⟨h.1, by rw [hv]; rfl⟩
    | none => exact ⟨h.1, rfl⟩
  refl := Eq.refl
  truthy_eq := @Value.truthy_congr

variable {ctx : Setting} {d d' : Nat}

theorem whole_depths : (depths ctx d d').Whole := ⟨rfl, rfl, fun _ => trivial⟩

theorem inside_depths (hle : d' ≤ d) : (depths ctx d d').Inside (depths ctx (d + 1) (d' + 1)) where
  left_eq := rfl
  right_eq := rfl
  values h := h
  excused h := h
  enter := by
    rintro s t ⟨hd, rfl⟩
    exact ⟨by rw [← hd], rfl⟩
  leave := by
    rintro s t ⟨hd, rfl⟩
    exact ⟨by simp only [hd]; omega, rfl⟩
  refused _ _ _ := .inl rfl
  admitted := by
    rintro s t ⟨hd, rfl⟩ hmax
    exact Nat.le_trans hmax (hd ▸ hle)

theorem depths_refused (hfull : ctx.maxDepth ≤ d) (name : Option String) (p q : Parser) :
    (depths ctx d d').Alike (.nested name p) q := by
  rintro s t ⟨hd, rfl⟩
  have hrun : Parser.nested name p ctx s = .raised (.depthExceeded ctx.maxDepth name) s := by
    simp only [Parser.nested, hd, hfull, if_true]
  exact hrun ▸ .excused rfl

theorem depths_nested {p q : Parser} (name : Option String) (h : (depths ctx (d + 1) d').Alike p q) :
    (depths ctx d d').Alike (.nested name p) q := by
  rintro s t ⟨hd, rfl⟩
  have hr := h { s with depth := s.depth + 1 } { s with depth := d' } ⟨by rw [← hd], rfl⟩
  have hback {u v : State} (hs : (depths ctx (d + 1) d').states u v) :
      (depths ctx d d').states { u with depth := u.depth - 1 } v :=
    ⟨by simp only [hs.1]; omega, hs.2⟩
  change (depths ctx d d').Replies (Parser.nested name p ctx s) (q ctx { s with depth := d' })
  change (depths ctx (d + 1) d').Replies (p ctx _) (q ctx _) at hr
  simp only [Parser.nested]
  split
  · exact .excused rfl
  · generalize p ctx { s with depth := s.depth + 1 } = a at hr ⊢
    generalize q ctx { s with depth := d' } = b at hr ⊢
    cases hr with
    | returned hv hs => exact .returned hv (hback hs)
    | @raised f u v hs =>
      cases hf : f.isDepthExceeded with
      | true => exact .excused hf
      | false => simpa only [hf] using .raised (hback hs)
    | excused hf => exact .excused hf

theorem depths_rule (hle : d' ≤ d) {rule rule' : Rule} {run run' : Expr → Parser}
    (hname : rule'.name = rule.name) (hbodies : Option.Rel (Expr.Inlines env) rule.body rule'.body)
    (h : d < ctx.maxDepth → ∀ {body body' : Expr}, body.Inlines env body' →
      (depths ctx (d + 1) (d' + 1)).Alike (run body) (run' body')) :
    (depths ctx d d').Alike (rule.parser run) (rule'.parser run') := by
  unfold Rule.parser
  rw [hname]
  generalize rule.body = body? at hbodies ⊢
  generalize rule'.body = body?' at hbodies ⊢
  cases hbodies with
  | none => exact alike_fault _
  | some hbody =>
    by_cases hlt : d < ctx.maxDepth
    · exact (inside_depths hle).nested _ (h hlt hbody)
    · exact depths_refused (Nat.le_of_not_lt hlt) _ _ _

/-- There are only so many levels, and what stands for a rule takes one fewer than the rule. -/
theorem depths_invoke (henv : env.Inlines env') (hle : d' ≤ d) :
    (depths ctx d d').Inlined env (invoke env (ctx.maxDepth - d)) (invoke env' (ctx.maxDepth - d')) := by
  induction hn : ctx.maxDepth - d generalizing d d' with
  | zero =>
    refine ⟨whole_depths, fun id => ?_, fun hbody _ => ?_⟩
    · obtain ⟨run', hrun'⟩ : ∃ run', invoke env' (ctx.maxDepth - d') id = (env' id).parser run' := by
        cases ctx.maxDepth - d' <;> exact ⟨_, rfl⟩
      rw [hrun', invoke]
      exact depths_rule hle (henv id).1 (henv id).2 fun hlt => absurd hlt (by omega)
    · simp only [invoke, Rule.parser, hbody]
      exact depths_refused (by omega) _ _ _
  | succ n ih =>
    refine ⟨whole_depths, fun id => ?_, fun hbody he => ?_⟩
    · obtain ⟨n', hn'⟩ : ∃ n', ctx.maxDepth - d' = n' + 1 := ⟨ctx.maxDepth - d' - 1, by omega⟩
      have hinside := @ih (d + 1) (d' + 1) (by omega) (by omega)
      rw [show ctx.maxDepth - (d' + 1) = n' by omega] at hinside
      rw [hn', invoke, invoke]
      exact depths_rule hle (henv id).1 (henv id).2 fun _ _ _ hbody => alike_inlined hinside hbody
    · simp only [invoke, Rule.parser, hbody]
      exact depths_nested _ (alike_inlined (ih (by omega) (by omega)) he)

theorem Replies.eq_of_depths {r r' : Reply} (h : (depths ctx d d).Replies r r')
    (hr : ¬ r.IsRefused) : r' = r := by
  cases h with
  | returned hv hs => rw [hv, hs.2, ← hs.1]
  | raised hs => rw [hs.2, ← hs.1]
  | excused hf => exact absurd ⟨_, _, rfl, hf⟩ hr

end Likeness

/-- A run that is not refused for its depth stays the same if references to defined rules are replaced by their
bodies, in the expression or in the bodies of rules. -/
theorem inlining_preserves {env : Environment} {e e' : Expr} {ctx : Setting} {s : State}
    (hrun : ¬ (e.parser env ctx s).IsRefused) (h : e.Inlines env e') :
    e'.parser env ctx s = e.parser env ctx s ∧
      ∀ env', env.Inlines env' → e'.parser env' ctx s = e.parser env ctx s := by
  have hboth : ∀ env', env.Inlines env' → e'.parser env' ctx s = e.parser env ctx s := by
    intro env' henv
    have hreplies : (Likeness.depths ctx s.depth s.depth).Replies (e.parser env ctx s)
        (e'.parser env' ctx s) :=
      Likeness.alike_inlined (Likeness.depths_invoke henv (Nat.le_refl _)) h s s ⟨rfl, rfl⟩
    exact hreplies.eq_of_depths hrun
  exact ⟨hboth env env.inlines_self, hboth⟩

def tailBody (rest : Expr) : Expr :=
  .choice [.seq [.primitive (.element (.char 't')), rest], .expect "t" "end" (.primitive .endOfInput)]

/-- The body stands for the rule ahead of the cursor and inside itself, and two levels are enough. -/
theorem inlining_preserves_tail :
    let tail : Expr := .rule (.loose 0)
    let e : Expr := .ahead tail
    let e' : Expr := .ahead (tailBody (tailBody tail))
    let env' : Environment := fun _ => ⟨some "tail", some (tailBody (tailBody tail))⟩
    let run (env : Environment) (e : Expr) (maxDepth : Nat) : Reply :=
      e.parser env ⟨.text #['t', 't'], maxDepth⟩ ⟨0, 0, [], #[]⟩
    (¬ (run tailRules e 3).IsRefused ∧ e.Inlines tailRules e' ∧ tailRules.Inlines env' ∧
      run tailRules e' 3 = run tailRules e 3 ∧ run env' e' 3 = run tailRules e 3) ∧
    (run tailRules e 2).IsRefused ∧ ¬ (run env' e 2).IsRefused := by
  intro tail e e' env' run
  have hbody : (tailBody tail).Inlines tailRules (tailBody (tailBody tail)) := by
    have hinner : tail.Inlines tailRules (tailBody tail) := .body rfl (.same _)
    exact .choice (.cons (.seq (.cons (.same _) (.cons hinner .nil))) (.cons (.same _) .nil))
  have hinlines : e.Inlines tailRules e' := .ahead (.body rfl hbody)
  have henv : tailRules.Inlines env' := fun _ => ⟨rfl, .some hbody⟩
  have hanswered : ¬ (run tailRules e 3).IsRefused := by
    rintro ⟨f, s, hr, _⟩
    have hthree : run tailRules e 3 = .returned (.bool true) ⟨0, 0, [], #[]⟩ := rfl
    cases hthree.symm.trans hr
  have htwo : ¬ (run env' e 2).IsRefused := by
    rintro ⟨f, s, hr, _⟩
    have hanswer : run env' e 2 = .returned (.bool true) ⟨0, 0, [], #[]⟩ := rfl
    cases hanswer.symm.trans hr
  obtain ⟨hsame, hrules⟩ := inlining_preserves hanswered hinlines
  exact ⟨⟨hanswered, hinlines, henv, hsame, hrules env' henv⟩,
    ⟨.depthExceeded 2 (some "tail"), ⟨0, 0, [], #[]⟩, rfl, rfl⟩, htwo⟩

end PegMatcher
