import PegMatcher.Proofs.Depth
import PegMatcher.Proofs.Outcomes

/-!
# Where faults come from

A fault of whatever runs within a run is the fault of that run: nothing goes on behind it. Conversely a
fault of a sequence, a choice or a repetition is that of one of its parts, but for the one of repeating
without end.
-/

namespace PegMatcher

set_option autoImplicit false

variable {env : Environment} {ctx : Setting}

theorem Block.Reaches.raised {outer : List Frame} {frame : Frame} {as : List (Action Expr)}
    {s t t' : State} {e : Expr} {f : Fault} (h : Block.Reaches env ctx outer frame as s e t)
    (hr : e.parser env ctx t = .raised f t') :
    ∃ s', Block.perform outer frame (Expr.runActions (invoke env (ctx.maxDepth - s.depth)) as) ctx s =
      .raised f s' := by
  induction h with
  | need =>
    rw [Expr.parser] at hr
    simp only [Expr.runActions, Expr.runAction, Block.perform, Block.act, hr]
    exact ⟨t', rfl⟩
  | attempt =>
    rw [Expr.parser] at hr
    simp only [Expr.runActions, Expr.runAction, Block.perform, Block.act, hr]
    exact ⟨t', rfl⟩
  | sub _ ih =>
    obtain ⟨s', hbody⟩ := ih hr
    simp only [Expr.runActions, Expr.runAction, Block.perform, Block.act, hbody, Flow.leave]
    exact ⟨_, rfl⟩
  | next hact _ ih =>
    obtain ⟨s', hrest⟩ := ih hr
    rw [Block.act_depth hact] at hrest
    simp only [Expr.runActions, Block.perform, hact, hrest]
    exact ⟨s', rfl⟩

namespace Expr

variable {e e' : Expr} {s s' t t' : State} {f : Fault}

theorem Starts.raised (h : Starts env ctx e s e' t) (hr : e'.parser env ctx t = .raised f t') :
    ∃ s', e.parser env ctx s = .raised f s' := by
  induction h with
  | seqHead =>
    rw [parser_seq, List.map_cons, Parser.seq_cons, hr]
    exact ⟨t', rfl⟩
  | seqNext hp hv _ ih =>
    obtain ⟨s', hrest⟩ := ih hr
    rw [parser_seq] at hrest
    rw [parser_seq, List.map_cons, Parser.seq_cons, hp]
    simp only [hv, if_true, hrest]
    exact ⟨s', rfl⟩
  | choiceHead =>
    rw [parser_choice, List.map_cons, Parser.choice, hr]
    exact ⟨t', rfl⟩
  | choiceNext hp hv _ ih =>
    obtain ⟨s', hrest⟩ := ih hr
    rw [parser_choice] at hrest
    rw [parser_choice, List.map_cons, Parser.choice, hp]
    simp only [hv, Bool.false_eq_true, if_false, hrest]
    exact ⟨s', rfl⟩
  | starHead =>
    rw [parser_star]
    exact ⟨t', (Parser.Rounds.raised hr).star_eq⟩
  | starNext hp hv hne _ ih =>
    obtain ⟨s', hrest⟩ := ih hr
    rw [parser_star] at hrest ⊢
    exact Parser.star_raised_of_moved hp hv hne hrest
  | plusHead =>
    simp only [parser_plus, Parser.plus, hr]
    exact ⟨t', rfl⟩
  | plusNext hp hv hne =>
    rw [parser_star] at hr
    simp only [parser_plus, Parser.plus, hp, hv, hne, if_true, if_false, hr]
    exact ⟨t', rfl⟩
  | opt =>
    simp only [parser_opt, Parser.opt, hr]
    exact ⟨t', rfl⟩
  | ahead =>
    simp only [parser_ahead, Parser.ahead, hr]
    exact ⟨t', rfl⟩
  | notAhead =>
    simp only [parser_notAhead, Parser.notAhead, hr]
    exact ⟨t', rfl⟩
  | expect =>
    simp only [parser_expect, Parser.expect, hr]
    exact ⟨t', rfl⟩
  | traced =>
    simp only [parser_traced, Parser.traced, hr]
    exact ⟨_, rfl⟩
  | block h =>
    obtain ⟨s', hbody⟩ := h.raised hr
    simp only [parser, run, Parser.block, hbody, Flow.leave]
    exact ⟨_, rfl⟩
  | look _ ih =>
    rw [parser_look]
    exact ih hr
  | moveTo _ ih =>
    rw [parser_moveTo]
    exact ih hr
  | runHead =>
    rw [parser_run, hr]
    exact ⟨t', rfl⟩
  | runNext hp _ ih =>
    rw [parser_run, hp]
    exact ih hr

theorem parser_body {id : RuleId} {body : Expr} (hb : (env id).body = some body)
    (hlt : s.depth < ctx.maxDepth)
    (hr : body.parser env ctx { s with depth := s.depth + 1 } = .raised f t') :
    ∃ s', (rule id).parser env ctx s = .raised f s' := by
  simp only [parser_rule, Rule.parser, hb, Parser.nested, Nat.not_le.mpr hlt, if_false, hr]
  exact ⟨_, rfl⟩

theorem Within.raised {k : Nat} (h : Within env ctx k e s e' t)
    (hr : e'.parser env ctx t = .raised f t') : ∃ s', e.parser env ctx s = .raised f s' := by
  induction h with
  | self => exact ⟨t', hr⟩
  | part hstart _ ih =>
    obtain ⟨u, hu⟩ := ih hr
    exact hstart.raised hu
  | body hb hlt _ ih =>
    obtain ⟨u, hu⟩ := ih hr
    exact parser_body hb hlt hu

/-- The state behind a fault of a sequence is the one that its part left. -/
theorem exists_part_seq {es : List Expr} : ∀ s s', (seq es).parser env ctx s = .raised f s' →
    ∃ e ∈ es, ∃ t, Starts env ctx (.seq es) s e t ∧ e.parser env ctx t = .raised f s' := by
  induction es with
  | nil =>
    intro s s' hr
    rw [parser_seq] at hr
    cases hr
  | cons e es ih =>
    intro s s' hr
    rw [parser_seq, List.map_cons, Parser.seq_cons, ← parser_seq] at hr
    cases hhead : e.parser env ctx s with
    | raised g u =>
      rw [hhead] at hr
      exact ⟨e, by simp, s, .seqHead, hhead.trans hr⟩
    | returned v u =>
      rw [hhead] at hr
      cases hv : v.truthy with
      | false =>
        simp only [hv, Bool.false_eq_true, if_false] at hr
        cases hr
      | true =>
        simp only [hv, if_true] at hr
        split at hr
        · cases hr
        · rename_i hrest
          obtain ⟨e', he', t, hstart, hpart⟩ := ih u s' (hrest.trans hr)
          exact ⟨e', List.mem_cons_of_mem _ he', t, .seqNext hhead hv hstart, hpart⟩

theorem exists_part_choice {es : List Expr} : ∀ s s',
    (choice es).parser env ctx s = .raised f s' →
    ∃ e ∈ es, ∃ t t', Starts env ctx (.choice es) s e t ∧ e.parser env ctx t = .raised f t' := by
  induction es with
  | nil =>
    intro s s' hr
    rw [parser_choice] at hr
    cases hr
  | cons e es ih =>
    intro s s' hr
    rw [parser_choice, List.map_cons, Parser.choice, ← parser_choice] at hr
    cases hhead : e.parser env ctx s with
    | raised g u =>
      rw [hhead] at hr
      cases hr
      exact ⟨e, by simp, s, _, .choiceHead, hhead⟩
    | returned v u =>
      rw [hhead] at hr
      cases hv : v.truthy with
      | true =>
        simp only [hv, if_true] at hr
        cases hr
      | false =>
        simp only [hv, Bool.false_eq_true, if_false] at hr
        obtain ⟨e', he', t, t', hstart, hpart⟩ := ih u s' hr
        exact ⟨e', List.mem_cons_of_mem _ he', t, t', .choiceNext hhead hv hstart, hpart⟩

/-- Beside the faults of its rounds a repetition has the one of being without end. -/
theorem exists_round (hr : (star e).parser env ctx s = .raised f s') (hf : f ≠ .diverged) :
    ∃ t t', Starts env ctx (.star e) s e t ∧ e.parser env ctx t = .raised f t' := by
  rw [parser_star] at hr
  cases hrep : Parser.repeated (e.parser env) ctx s with
  | none =>
    rw [Parser.star_of_endless hrep] at hr
    cases hr
    exact absurd rfl hf
  | some r =>
    obtain rfl := (Parser.star_of_repeated hrep).symm.trans hr
    obtain ⟨n, hn⟩ := Parser.exists_rounds hrep
    clear hr hrep
    generalize hend : Reply.raised f s' = r at hn
    induction hn with
    | failed _ _ => cases hend
    | stayed _ _ _ => cases hend
    | raised hround =>
      cases hend
      exact ⟨_, _, .starHead, hround⟩
    | again hround hv hne _ ih =>
      obtain ⟨t, t', hstart, hpart⟩ := ih hend
      exact ⟨t, t', .starNext hround hv hne hstart, hpart⟩

end Expr

end PegMatcher
