import Mathlib.Order.Preorder.Finite
import PegMatcher.Proofs.Refusal

/-!
# Left recursion

What an expression runs before anything else is its head. Where the head of a rule is a rule again, and so on
without end, nothing is ever taken from the source: each rule of the chain is run by the one before it, at the
same place and one level deeper, up to the one that no level is left for. No operator goes on behind its
refusal, so the first rule of the chain ends in this refusal too, and leaves the cursor and the trackers as they
were.
-/

namespace PegMatcher

set_option autoImplicit false

namespace Expr

/-- What an expression runs before anything else, or the expression itself if it has no operands. -/
def head : Expr → Expr
  | .seq (e :: _) => head e
  | .choice (e :: _) => head e
  | .star e => head e
  | .plus e => head e
  | .opt e => head e
  | .ahead e => head e
  | .notAhead e => head e
  | .expect _ _ e => head e
  | .traced _ e => head e
  | e => e

end Expr

/-- Each rule of the chain is defined, and runs the next one before anything else. -/
def Environment.HeadChain (env : Environment) (chain : Nat → RuleId) : Prop :=
  ∀ i, ∃ body, (env (chain i)).body = some body ∧ body.head = .rule (chain (i + 1))

variable {env : Environment} {ctx : Setting} {chain : Nat → RuleId} {s t : State} {f : Fault}

theorem Expr.raised_of_head : ∀ e : Expr, e.head.parser env ctx s = .raised f t →
    ∃ trace, e.parser env ctx s = .raised f { t with trace }
  | .seq (e :: es), h => by
    obtain ⟨trace, hr⟩ := raised_of_head e h
    exact ⟨trace, by rw [parser_seq, List.map_cons, Parser.seq_cons, hr]⟩
  | .choice (e :: es), h => by
    obtain ⟨trace, hr⟩ := raised_of_head e h
    exact ⟨trace, by rw [parser_choice, List.map_cons, Parser.choice, hr]⟩
  | .star e, h => by
    obtain ⟨trace, hr⟩ := raised_of_head e h
    exact ⟨trace, by rw [parser_star, (Parser.Rounds.raised hr).star_eq]⟩
  | .plus e, h => by
    obtain ⟨trace, hr⟩ := raised_of_head e h
    exact ⟨trace, by rw [parser_plus, Parser.plus, hr]⟩
  | .opt e, h => by
    obtain ⟨trace, hr⟩ := raised_of_head e h
    exact ⟨trace, by rw [parser_opt, Parser.opt, hr]⟩
  | .ahead e, h => by
    obtain ⟨trace, hr⟩ := raised_of_head e h
    exact ⟨trace, by rw [parser_ahead, Parser.ahead, hr]⟩
  | .notAhead e, h => by
    obtain ⟨trace, hr⟩ := raised_of_head e h
    exact ⟨trace, by rw [parser_notAhead, Parser.notAhead, hr]⟩
  | .expect tracker label e, h => by
    obtain ⟨trace, hr⟩ := raised_of_head e h
    exact ⟨trace, by rw [parser_expect, Parser.expect, hr]⟩
  | .traced tag e, h => by
    obtain ⟨trace, hr⟩ := raised_of_head e h
    exact ⟨_, by rw [parser_traced, Parser.traced, hr]; rfl⟩
  | .seq [], h => ⟨t.trace, h⟩
  | .choice [], h => ⟨t.trace, h⟩
  | .primitive _, h => ⟨t.trace, h⟩
  | .rule _, h => ⟨t.trace, h⟩
  | .block _, h => ⟨t.trace, h⟩
  | .routine _, h => ⟨t.trace, h⟩

namespace Environment.HeadChain

theorem tail (h : env.HeadChain chain) : env.HeadChain fun i => chain (i + 1) := fun i => h (i + 1)

theorem refused (h : env.HeadChain chain) (ctx : Setting) (s : State) : ∃ trace,
    (Expr.rule (chain 0)).parser env ctx s =
      .raised (.depthExceeded ctx.maxDepth (env (chain (ctx.maxDepth - s.depth))).name) { s with trace } := by
  induction hn : ctx.maxDepth - s.depth generalizing chain s with
  | zero =>
    obtain ⟨body, hbody, _⟩ := h 0
    have hfull : Expr.Refused env ctx (chain 0) s := ⟨by simp [hbody], by omega⟩
    exact ⟨s.trace, hfull.parser_eq⟩
  | succ n ih =>
    obtain ⟨body, hbody, hhead⟩ := h 0
    obtain ⟨_, hnext⟩ := ih h.tail { s with depth := s.depth + 1 } (by simp only; omega)
    rw [← hhead] at hnext
    obtain ⟨trace, hrun⟩ := body.raised_of_head hnext
    have hfree : ¬ ctx.maxDepth ≤ s.depth := by omega
    refine ⟨trace, ?_⟩
    simp only [Expr.parser_rule, Rule.parser, hbody, Parser.nested, hfree, if_false, hrun]
    rfl

theorem eq_of_eq (h : env.HeadChain chain) {i j : Nat} (hij : chain i = chain j) (k : Nat) :
    chain (i + k) = chain (j + k) := by
  induction k with
  | zero => exact hij
  | succ k ih =>
    obtain ⟨body, hbody, hhead⟩ := h (i + k)
    obtain ⟨body', hbody', hhead'⟩ := h (j + k)
    rw [ih, hbody'] at hbody
    cases hbody
    rw [hhead] at hhead'
    exact Expr.rule.inj hhead'

theorem cycles (h : env.HeadChain chain) (hfin : {id | (env id).body ≠ none}.Finite) :
    ∃ start period, 0 < period ∧ ∀ i, start ≤ i → chain (i + period) = chain i := by
  have hdefined (i : Nat) : chain i ∈ {id | (env id).body ≠ none} := by
    obtain ⟨body, hbody, _⟩ := h i
    simp [hbody]
  obtain ⟨start, again, hlt, hsame⟩ := Set.Finite.exists_lt_map_eq_of_forall_mem hdefined hfin
  refine ⟨start, again - start, by omega, fun i hi => ?_⟩
  have hnext := h.eq_of_eq hsame.symm (i - start)
  rwa [show again + (i - start) = i + (again - start) by omega, show start + (i - start) = i by omega]
    at hnext

end Environment.HeadChain

/-- Where a chain of heads begins, a rule is refused for its depth: the fault names the rule as far along the
chain as levels are left, and a chain through finitely many rules goes round. -/
theorem left_recursion_refused (h : env.HeadChain chain) :
    (∀ ctx s, ∃ trace, (Expr.rule (chain 0)).parser env ctx s =
      .raised (.depthExceeded ctx.maxDepth (env (chain (ctx.maxDepth - s.depth))).name) { s with trace }) ∧
    (∀ (c : Cursor) j,
      (c.run env (.rule (chain 0)) j).1 =
        .error (.depthExceeded c.maxDepth (env (chain (c.maxDepth - c.depth))).name) ∧
      (c.run env (.rule (chain 0)) j).2.1 = c) ∧
    ({id | (env id).body ≠ none}.Finite →
      ∃ start period, 0 < period ∧ ∀ i, start ≤ i → chain (i + period) = chain i) := by
  refine ⟨h.refused, fun c j => ?_, h.cycles⟩
  obtain ⟨trace, hrun⟩ := h.refused c.setting ⟨c.pos, c.depth, j.trackers, j.trace⟩
  simp only [Cursor.run, hrun]
  exact ⟨rfl, rfl⟩

def roundaboutRules : Environment
  | .loose 0 => ⟨some "a", some (.seq [.opt (.expect "t" "b" (.rule (.loose 1))), .primitive .any])⟩
  | .loose 1 => ⟨some "b", some (.choice [.notAhead (.plus (.rule (.loose 2))), .primitive .any])⟩
  | .loose 2 => ⟨some "c", some (.star (.seq [.ahead (.rule (.loose 1)), .rule (.loose 0)]))⟩
  | _ => {}

def roundabout : Nat → RuleId
  | 0 => .loose 0
  | i + 1 => if i % 2 = 0 then .loose 1 else .loose 2

theorem headChain_roundabout : roundaboutRules.HeadChain roundabout := by
  intro i
  cases i with
  | zero => exact ⟨_, rfl, rfl⟩
  | succ i =>
    rcases Nat.mod_two_eq_zero_or_one i with h | h
    · have h' : ¬ (i + 1) % 2 = 0 := by omega
      simp only [roundabout, h, h', if_true, if_false]
      exact ⟨_, rfl, rfl⟩
    · have h' : (i + 1) % 2 = 0 := by omega
      have h1 : ¬ i % 2 = 0 := by omega
      simp only [roundabout, h1, h', if_true, if_false]
      exact ⟨_, rfl, rfl⟩

theorem left_recursion_refused_roundabout :
    let c : Cursor := ⟨.text #['x', 'y'], 1, 4, 1⟩
    let first : Expr := .rule (.loose 0)
    roundaboutRules.HeadChain roundabout ∧ {id | (roundaboutRules id).body ≠ none}.Finite ∧
    (c.run roundaboutRules first {}).1 = .error (.depthExceeded 4 (some "b")) ∧
    (c.run roundaboutRules first {}).2.1 = c ∧
    ∃ start period, 0 < period ∧ ∀ i, start ≤ i → roundabout (i + period) = roundabout i := by
  intro c first
  have hfin : {id | (roundaboutRules id).body ≠ none}.Finite := by
    refine Set.Finite.subset (Set.toFinite {.loose 0, .loose 1, .loose 2}) fun id hid => ?_
    change (roundaboutRules id).body ≠ none at hid
    unfold roundaboutRules at hid
    split at hid
    · simp
    · simp
    · simp
    · exact absurd rfl hid
  obtain ⟨_, hcursor, hcycle⟩ := left_recursion_refused headChain_roundabout
  exact ⟨headChain_roundabout, hfin, (hcursor c {}).1, (hcursor c {}).2, hcycle hfin⟩

end PegMatcher
