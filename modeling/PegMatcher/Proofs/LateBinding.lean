import Mathlib.Data.List.Nodup
import PegMatcher.Proofs.Definitions
import PegMatcher.Proofs.Limits

/-!
# Late binding

A name is looked up when a rule runs, not when a parser is made. So the order in which rules are defined
does not matter, and a run that reaches no rule without a body is not changed by definitions that are made
later. Where a rule without a body is reached, the run ends with that fault, and no operator goes on behind
it.
-/

namespace PegMatcher

set_option autoImplicit false

namespace Environment

variable {env env' : Environment} {a b : RuleId} {p q : Operand}

theorem define_comm (h : a ≠ b) (env : Environment) (p q : Operand) :
    (env.define a p).define b q = (env.define b q).define a p := by
  simp only [define, Function.update_of_ne h, Function.update_of_ne h.symm]
  exact Function.update_comm h _ _ env

/-- The first environment defines every rule that the second one does, and in the same way. -/
def Extends (env' env : Environment) : Prop := ∀ id, (env id).body ≠ none → env' id = env id

theorem Extends.refl (env : Environment) : env.Extends env := fun _ _ => rfl

theorem Extends.trans {env'' : Environment} (h : env'.Extends env) (h' : env''.Extends env') :
    env''.Extends env := by
  intro id hb
  have heq := h id hb
  rw [h' id (by rwa [heq]), heq]

theorem extends_define (env : Environment) (id : RuleId) (p : Operand) : (env.define id p).Extends env := by
  intro other hb
  by_cases hother : other = id
  · subst hother
    obtain ⟨body, hbody⟩ := Option.ne_none_iff_exists'.mp hb
    rw [define, Function.update_self, Rule.defined_of_body hbody]
  · rw [define, Function.update_of_ne hother]

end Environment

/-- The run ended because a rule without a body was reached. -/
def Reply.MissesRule (r : Reply) : Prop := ∃ name s, r = .raised (.undefinedRule name) s

namespace Likeness

variable {ctx : Setting} {d : Nat} {env env' : Environment}

def upToMissing (ctx : Setting) (d : Nat) : Likeness :=
  { bounds ctx.source ctx.maxDepth ctx.maxDepth d with excused := fun f => ∃ name, f = .undefinedRule name }

theorem whole_upToMissing : (upToMissing ctx d).Whole := ⟨rfl, rfl, fun _ => trivial⟩

theorem inside_upToMissing : (upToMissing ctx d).Inside (upToMissing ctx (d + 1)) := by
  have hbounds : (bounds ctx.source ctx.maxDepth ctx.maxDepth d).Inside
      (bounds ctx.source ctx.maxDepth ctx.maxDepth (d + 1)) := inside_bounds (Nat.le_refl _)
  exact { hbounds with
    excused := fun h => h
    refused := fun _ hs hmax => .inr ⟨rfl, hs.1 ▸ hmax⟩ }

theorem upToMissing_undefined {rule : Rule} (h : rule.body = none) (run : Expr → Parser) (q : Parser) :
    (upToMissing ctx d).Alike (rule.parser run) q := by
  intro s t _
  rw [Rule.parser, h]
  exact .excused ⟨rule.name, rfl⟩

theorem upToMissing_invoke (h : env'.Extends env) (n : Nat) : ∀ d id,
    (upToMissing ctx d).Alike (invoke env n id) (invoke env' n id) := by
  induction n with
  | zero =>
    intro d id
    cases hb : (env id).body with
    | none => exact upToMissing_undefined hb _ _
    | some body =>
      have heq := h id (by rw [hb]; nofun)
      simp only [invoke, heq]
      exact inside_upToMissing.rule (env id) fun _ _ => alike_fault _
  | succ n ih =>
    intro d id
    cases hb : (env id).body with
    | none => exact upToMissing_undefined hb _ _
    | some body =>
      have heq := h id (by rw [hb]; nofun)
      simp only [invoke, heq]
      exact inside_upToMissing.rule (env id) fun body _ => alike_expr whole_upToMissing (ih (d + 1)) body

end Likeness

/-- A run that reaches no rule without a body is the same wherever more rules are defined. -/
theorem Expr.parser_of_extends {env env' : Environment} (h : env'.Extends env) (e : Expr) (ctx : Setting)
    (s : State) (hr : ¬ (e.parser env ctx s).MissesRule) : e.parser env' ctx s = e.parser env ctx s := by
  have hrun : (Likeness.upToMissing ctx s.depth).Replies (e.parser env ctx s) (e.parser env' ctx s) :=
    Likeness.alike_expr Likeness.whole_upToMissing (Likeness.upToMissing_invoke h _ s.depth) e s s
      ⟨rfl, rfl⟩
  generalize e.parser env ctx s = r at hr hrun ⊢
  generalize e.parser env' ctx s = r' at hrun ⊢
  cases hrun with
  | returned hv hs => rw [hv, hs.1]
  | raised hs => rw [hs.1]
  | excused hf =>
    obtain ⟨name, rfl⟩ := hf
    exact absurd ⟨name, _, rfl⟩ hr

namespace Session

/-- The session behind attempts to define rules, one after the other. -/
def defining (s : Session) (definitions : List (RuleId × Operand)) : Session :=
  definitions.foldl (fun s definition => s.behind (define definition.1 definition.2)) s

theorem environment_defining (definitions : List (RuleId × Operand)) : ∀ s : Session,
    (s.defining definitions).environment = definitions.foldl (fun env definition =>
      if s.Has definition.1 then env.define definition.1 definition.2 else env) s.environment := by
  induction definitions with
  | nil => exact fun _ => rfl
  | cons definition rest ih =>
    intro s
    have hrest := ih (s.behind (define definition.1 definition.2))
    rw [environment_behind_define] at hrest
    simp only [has_behind_define] at hrest
    exact hrest

theorem extends_defining (s : Session) (definitions : List (RuleId × Operand)) :
    (s.defining definitions).environment.Extends s.environment := by
  induction definitions generalizing s with
  | nil => exact .refl _
  | cons definition rest ih =>
    have hstep : (s.behind (define definition.1 definition.2)).environment.Extends s.environment := by
      rw [environment_behind_define]
      split
      · exact Environment.extends_define _ _ _
      · exact .refl _
    exact hstep.trans (ih _)

theorem environment_of_perm (s : Session) {definitions permuted : List (RuleId × Operand)}
    (h : definitions.Perm permuted) (hdistinct : (definitions.map Prod.fst).Nodup) :
    (s.defining permuted).environment = (s.defining definitions).environment := by
  rw [environment_defining, environment_defining]
  refine (h.foldl_eq' (fun a ha b hb env => ?_) s.environment).symm
  by_cases heq : a = b
  · rw [heq]
  · have hne : a.1 ≠ b.1 := fun hid => heq (List.inj_on_of_nodup_map hdistinct ha hb hid)
    split <;> split <;> simp only [Environment.define_comm hne]

end Session

/-- Definitions of different rules may be made in any order, and more of them do not change a run that reaches
no rule without a body. -/
theorem late_binding (e : Expr) (ctx : Setting) (st : State) :
    (∀ (s : Session) (definitions permuted : List (RuleId × Operand)),
      definitions.Perm permuted → (definitions.map Prod.fst).Nodup →
      e.parser (s.defining permuted).environment ctx st =
        e.parser (s.defining definitions).environment ctx st) ∧
    (∀ env env' : Environment, env'.Extends env → ¬ (e.parser env ctx st).MissesRule →
      e.parser env' ctx st = e.parser env ctx st) ∧
    (∀ (s : Session) (definitions : List (RuleId × Operand)),
      ¬ (e.parser s.environment ctx st).MissesRule →
      e.parser (s.defining definitions).environment ctx st = e.parser s.environment ctx st) := by
  refine ⟨fun s definitions permuted h hdistinct => ?_, fun env env' h hr => ?_, fun s definitions hr => ?_⟩
  · rw [s.environment_of_perm h hdistinct]
  · exact Expr.parser_of_extends h e ctx st hr
  · exact Expr.parser_of_extends (s.extends_defining definitions) e ctx st hr

/-- A list refers to its item, which is defined behind it, and to itself. -/
def itemDefinitions : List (RuleId × Operand) :=
  [(.slot 0 "list", .parser (.seq [.rule (.slot 0 "item"), .opt (.rule (.slot 0 "list"))])),
    (.slot 0 "item", .ofString "x")]

theorem late_binding_items :
    let s : Session := { grammars := #[.empty] }
    let list : Expr := .rule (.slot 0 "list")
    let either : Expr := .choice [.primitive .any, list]
    let ctx : Setting := ⟨.text #['x', 'x'], 5⟩
    let start : State := ⟨0, 0, [], #[]⟩
    let after : Environment := (s.defining itemDefinitions).environment
    (itemDefinitions.Perm itemDefinitions.reverse ∧ (itemDefinitions.map Prod.fst).Nodup ∧
      list.parser (s.defining itemDefinitions.reverse).environment ctx start = list.parser after ctx start ∧
      list.parser after ctx start = .returned (.bool true) ⟨2, 0, [], #[]⟩) ∧
    (after.Extends s.environment ∧ ¬ (either.parser s.environment ctx start).MissesRule ∧
      either.parser after ctx start = either.parser s.environment ctx start) ∧
    (list.parser s.environment ctx start).MissesRule := by
  intro s list either ctx start after
  have hperm : itemDefinitions.Perm itemDefinitions.reverse := (List.reverse_perm _).symm
  have hdistinct : (itemDefinitions.map Prod.fst).Nodup := by decide
  have hextends : after.Extends s.environment := s.extends_defining itemDefinitions
  have hanswers : either.parser s.environment ctx start = .returned (.bool true) ⟨1, 0, [], #[]⟩ := rfl
  have hmeets : ¬ (either.parser s.environment ctx start).MissesRule := by
    rintro ⟨name, t, hr⟩
    rw [hanswers] at hr
    cases hr
  have horder := (late_binding list ctx start).1 s _ _ hperm hdistinct
  have hlater := (late_binding either ctx start).2.1 s.environment after hextends hmeets
  have hbodies : after = ({ grammars := #[⟨[("list", some (.seq [.rule (.slot 0 "item"), .opt list])),
      ("item", some (.ofText ['x']))]⟩] } : Session).environment := rfl
  have hboth : list.parser after ctx start = .returned (.bool true) ⟨2, 0, [], #[]⟩ := by
    rw [hbodies]
    rfl
  exact ⟨⟨hperm, hdistinct, horder, hboth⟩, ⟨hextends, hmeets, hlater⟩, some "list", start, rfl⟩

end PegMatcher
