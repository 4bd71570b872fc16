import PegMatcher.Proofs.FaultOrigin
import PegMatcher.Proofs.Misses

/-!
# The furthest misses

What is recorded in a part of a run is not lost in the rest of it, so behind a run that answers a tracker
knows of every parser that failed under its watch: of its label, or of a place further on. Begun with
nothing on the tracker, the run leaves there the labels of those that failed furthest, and no others.
-/

namespace PegMatcher

set_option autoImplicit false

variable {env : Environment} {ctx : Setting} {tracker : String} {d : Nat}

theorem Block.covers_of_perform (as : List (Action Expr)) (outer : List Frame) (frame : Frame)
    {s : State} {label : String} {pos : Int} (hs : s.depth = d)
    (h : (s.trackers.get tracker).Covers label pos) :
    ((Block.perform outer frame (Expr.runActions (invoke env (ctx.maxDepth - d)) as) ctx
      s).state.trackers.get tracker).Covers label pos :=
  (Expr.accounted_actions (Expr.accounted_rule d) as outer frame s hs).covers h

theorem Block.Reaches.covers {outer : List Frame} {frame : Frame} {as : List (Action Expr)}
    {s t : State} {e : Expr} {label : String} {pos : Int}
    (h : Block.Reaches env ctx outer frame as s e t)
    (hc : ((e.parser env ctx t).state.trackers.get tracker).Covers label pos) :
    ((Block.perform outer frame (Expr.runActions (invoke env (ctx.maxDepth - s.depth)) as) ctx
      s).state.trackers.get tracker).Covers label pos := by
  induction h with
  | @need outer frame e as s =>
    have hcall : e.run (invoke env (ctx.maxDepth - s.depth)) ctx s = e.parser env ctx s := rfl
    simp only [Expr.runActions, Expr.runAction, Block.perform, Block.act, hcall]
    cases hr : e.parser env ctx s with
    | raised f u =>
      rw [hr] at hc
      exact hc
    | returned v u =>
      rw [hr] at hc
      by_cases hv : v.truthy = true
      · simp only [hv, if_true]
        exact Block.covers_of_perform as _ _ (Expr.returned_depth hr) hc
      · simp only [hv, Bool.false_eq_true, if_false]
        exact hc
  | @attempt outer frame e as s =>
    have hcall : e.run (invoke env (ctx.maxDepth - s.depth)) ctx s = e.parser env ctx s := rfl
    simp only [Expr.runActions, Expr.runAction, Block.perform, Block.act, hcall]
    cases hr : e.parser env ctx s with
    | raised f u =>
      rw [hr] at hc
      exact hc
    | returned v u =>
      rw [hr] at hc
      exact Block.covers_of_perform as _ _ (Expr.returned_depth hr) hc
  | @sub outer frame body as s t e _ ih =>
    have hbody := ih hc
    rw [← Block.trackers_sub] at hbody
    simp only [Expr.runActions, Expr.runAction, Block.perform]
    cases hact : Block.act outer frame (.sub (Expr.runActions (invoke env (ctx.maxDepth - s.depth)) body))
        ctx s with
    | done frame' u =>
      rw [hact] at hbody
      have hdepth : u.depth = s.depth := Block.act_depth (a := .sub body) hact
      exact Block.covers_of_perform as _ _ hdepth hbody
    | left v frame' u => rwa [hact] at hbody
    | raised f u => rwa [hact] at hbody
  | @next outer frame frame' a as s s' t e hact _ ih =>
    have hrest := ih hc
    rw [Block.act_depth hact] at hrest
    simp only [Expr.runActions, Block.perform, hact]
    exact hrest

namespace Expr

variable {e e' : Expr} {es : List Expr} {s s' t t' : State} {v w : Value} {label : String} {pos : Int}

/-- If the run of `e` from `s` answers, the tracker covers the miss behind it. -/
def CoversBehind (env : Environment) (ctx : Setting) (tracker label : String) (pos : Int) (e : Expr)
    (s : State) : Prop :=
  ∀ v s', e.parser env ctx s = .returned v s' → (s'.trackers.get tracker).Covers label pos

theorem coversBehind_run (e : Expr) (h : (s.trackers.get tracker).Covers label pos) :
    CoversBehind env ctx tracker label pos e s := by
  intro v s' hr
  have haccount := accounts env ctx tracker e s
  rw [Accounts, hr] at haccount
  exact haccount.covers h

section Parts

variable (hpart : e.parser env ctx s = .returned w t) (hc : (t.trackers.get tracker).Covers label pos)

include hpart

theorem coversBehind_seqNext (hw : w.truthy = true)
    (hrest : CoversBehind env ctx tracker label pos (seq es) t) :
    CoversBehind env ctx tracker label pos (seq (e :: es)) s := by
  intro v s' hr
  rw [parser_seq, List.map_cons, Parser.seq_cons, hpart, ← parser_seq] at hr
  simp only [hw, if_true] at hr
  cases hseq : (seq es).parser env ctx t with
  | raised f u =>
    rw [hseq] at hr
    cases hr
  | returned w' u =>
    have hcovers := hrest w' u hseq
    rw [hseq] at hr
    cases hr
    split <;> exact hcovers

theorem coversBehind_choiceNext (hw : w.truthy = false)
    (hrest : CoversBehind env ctx tracker label pos (choice es) t) :
    CoversBehind env ctx tracker label pos (choice (e :: es)) s := by
  intro v s' hr
  rw [parser_choice, List.map_cons, Parser.choice, hpart, ← parser_choice] at hr
  simp only [hw, Bool.false_eq_true, if_false] at hr
  exact hrest v s' hr

theorem coversBehind_starNext (hw : w.truthy = true) (hne : t.pos ≠ s.pos)
    (hrest : CoversBehind env ctx tracker label pos (star e) t) :
    CoversBehind env ctx tracker label pos (star e) s := by
  intro v s' hr
  rw [parser_star] at hr
  have hstar := Parser.star_behind_moved hpart hw hne hr
  rw [← parser_star] at hstar
  exact hrest _ _ hstar

theorem coversBehind_plusNext (hw : w.truthy = true) (hne : t.pos ≠ s.pos)
    (hrest : CoversBehind env ctx tracker label pos (star e) t) :
    CoversBehind env ctx tracker label pos (plus e) s := by
  intro v s' hr
  simp only [parser_plus, Parser.plus, hpart, hw, hne, if_true, if_false] at hr
  cases hstar : (star e).parser env ctx t with
  | raised f u =>
    rw [parser_star] at hstar
    rw [hstar] at hr
    cases hr
  | returned w' u =>
    have hcovers := hrest w' u hstar
    rw [parser_star] at hstar
    rw [hstar] at hr
    cases hr
    exact hcovers

include hc

theorem coversBehind_seqHead : CoversBehind env ctx tracker label pos (seq (e :: es)) s := by
  by_cases hw : w.truthy = true
  · exact coversBehind_seqNext hpart hw (coversBehind_run _ hc)
  · intro v s' hr
    rw [parser_seq, List.map_cons, Parser.seq_cons, hpart, ← parser_seq] at hr
    simp only [hw, Bool.false_eq_true, if_false] at hr
    cases hr
    exact hc

theorem coversBehind_choiceHead : CoversBehind env ctx tracker label pos (choice (e :: es)) s := by
  by_cases hw : w.truthy = true
  · intro v s' hr
    rw [parser_choice, List.map_cons, Parser.choice, hpart, ← parser_choice] at hr
    simp only [hw, if_true] at hr
    cases hr
    exact hc
  · have hw' : w.truthy = false := by simpa using hw
    exact coversBehind_choiceNext hpart hw' (coversBehind_run _ hc)

theorem coversBehind_starHead : CoversBehind env ctx tracker label pos (star e) s := by
  by_cases hw : w.truthy = true
  · by_cases hstay : t.pos = s.pos
    · intro v s' hr
      rw [parser_star, (Parser.Rounds.stayed hpart hw hstay).star_eq] at hr
      cases hr
      exact hc
    · exact coversBehind_starNext hpart hw hstay (coversBehind_run _ hc)
  · intro v s' hr
    have hw' : w.truthy = false := by simpa using hw
    rw [parser_star, (Parser.Rounds.failed hpart hw').star_eq] at hr
    cases hr
    exact hc

theorem coversBehind_plusHead : CoversBehind env ctx tracker label pos (plus e) s := by
  by_cases hnext : w.truthy = true ∧ t.pos ≠ s.pos
  · exact coversBehind_plusNext hpart hnext.1 hnext.2 (coversBehind_run _ hc)
  · intro v s' hr
    simp only [parser_plus, Parser.plus, hpart] at hr
    split at hr
    · rename_i hw
      split at hr
      · cases hr
        exact hc
      · rename_i hne
        exact absurd ⟨hw, hne⟩ hnext
    · cases hr
      exact hc

theorem coversBehind_expect {watch label' : String} :
    CoversBehind env ctx tracker label pos (.expect watch label' e) s := by
  intro v s' hr
  simp only [parser_expect, Parser.expect, hpart] at hr
  split at hr
  · cases hr
    exact hc
  · cases hr
    by_cases hwatch : tracker = watch
    · subst hwatch
      simp only [State.record, Trackers.get_modify_self]
      exact hc.record _ _
    · simpa only [State.record, Trackers.get_modify_of_ne _ _ hwatch] using hc

end Parts

/-- What a tracker covers behind a part of a run that ends with an answer, it covers behind the run. -/
theorem Starts.covers (h : Starts env ctx e s e' t) (hpart : e'.parser env ctx t = .returned w t')
    (hc : (t'.trackers.get tracker).Covers label pos) :
    CoversBehind env ctx tracker label pos e s := by
  induction h with
  | seqHead => exact coversBehind_seqHead hpart hc
  | seqNext hp hv _ ih => exact coversBehind_seqNext hp hv (ih hpart)
  | choiceHead => exact coversBehind_choiceHead hpart hc
  | choiceNext hp hv _ ih => exact coversBehind_choiceNext hp hv (ih hpart)
  | starHead => exact coversBehind_starHead hpart hc
  | starNext hp hv hne _ ih => exact coversBehind_starNext hp hv hne (ih hpart)
  | plusHead => exact coversBehind_plusHead hpart hc
  | plusNext hp hv hne =>
    refine coversBehind_plusNext hp hv hne fun v s' hr => ?_
    cases hpart.symm.trans hr
    exact hc
  | opt =>
    intro v s' hr
    simp only [parser_opt, Parser.opt, hpart] at hr
    cases hr
    exact hc
  | ahead =>
    intro v s' hr
    simp only [parser_ahead, Parser.ahead, hpart] at hr
    cases hr
    exact hc
  | notAhead =>
    intro v s' hr
    simp only [parser_notAhead, Parser.notAhead, hpart] at hr
    cases hr
    exact hc
  | expect => exact coversBehind_expect hpart hc
  | traced =>
    intro v s' hr
    simp only [parser_traced, Parser.traced, hpart] at hr
    cases hr
    exact hc
  | @block actions s t e h =>
    intro v s' hr
    have hbody := h.covers (by rwa [hpart] : ((e.parser env ctx t).state.trackers.get tracker).Covers label pos)
    have hrun := congrArg Reply.state hr
    rw [parser, run] at hrun
    rw [← Block.trackers_block, hrun] at hbody
    exact hbody
  | look _ ih =>
    intro v s' hr
    rw [parser_look] at hr
    exact ih hpart v s' hr
  | moveTo _ ih =>
    intro v s' hr
    rw [parser_moveTo] at hr
    exact ih hpart v s' hr
  | runHead =>
    intro v s' hr
    rw [parser_run, hpart] at hr
    exact coversBehind_run _ hc v s' hr
  | runNext hp _ ih =>
    intro v s' hr
    rw [parser_run, hp] at hr
    exact ih hpart v s' hr

theorem Within.covers {k : Nat} (h : Within env ctx k e s e' t)
    (hpart : e'.parser env ctx t = .returned w t') (hc : (t'.trackers.get tracker).Covers label pos) :
    CoversBehind env ctx tracker label pos e s := by
  induction h with
  | self =>
    intro v s' hr
    cases hpart.symm.trans hr
    exact hc
  | @part k e e₁ e' s s₁ t hstart _ ih =>
    intro v s' hr
    cases hmid : e₁.parser env ctx s₁ with
    | raised f u =>
      obtain ⟨u', hraised⟩ := hstart.raised hmid
      cases hr.symm.trans hraised
    | returned v₁ u => exact hstart.covers hmid (ih hpart v₁ u hmid) v s' hr
  | @body k id body e s t hbody hfree _ ih =>
    intro v s' hr
    simp only [parser_rule, Rule.parser, hbody, Parser.nested, Nat.not_le.mpr hfree, if_false] at hr
    cases hmid : body.parser env ctx { s with depth := s.depth + 1 } with
    | raised f u =>
      rw [hmid] at hr
      cases hr
    | returned v₁ u =>
      have hcovers := ih hpart v₁ u hmid
      rw [hmid] at hr
      cases hr
      exact hcovers

theorem Misses.covers (h : e.Misses env ctx s tracker label pos)
    (hr : e.parser env ctx s = .returned v s') : (s'.trackers.get tracker).Covers label pos := by
  obtain ⟨k, body, t, w, t', hwithin, hbody, hw, rfl⟩ := h
  have hexpect : (expect tracker label body).parser env ctx t =
      .returned (.bool false) (t'.record tracker label) := by
    simp only [parser_expect, Parser.expect, hbody, hw, Bool.false_eq_true, if_false]
  refine hwithin.covers hexpect ?_ v s' hr
  simp only [State.record, Trackers.get_modify_self]
  exact Tracker.covers_record _ _ _

/-- A new tracker stands, when a run has answered, where a parser watched on it failed furthest, and holds the
labels of those that failed there. -/
theorem furthest_misses (hs : s.trackers.get tracker = .fresh)
    (hr : e.parser env ctx s = .returned v s') :
    (∀ label, label ∈ (s'.trackers.get tracker).expected ↔
      e.Misses env ctx s tracker label (s'.trackers.get tracker).pos) ∧
    (∀ label pos, e.Misses env ctx s tracker label pos → pos ≤ (s'.trackers.get tracker).pos) := by
  have haccount := accounts env ctx tracker e s
  rw [Accounts, hr, hs] at haccount
  constructor
  · intro label
    constructor
    · intro hmem
      rcases haccount.labels hmem with ⟨_, hold⟩ | hmiss
      · cases hold
      · exact hmiss
    · intro hmiss
      rcases hmiss.covers hr with hlt | ⟨_, hmem⟩
      · exact absurd hlt (Int.lt_irrefl _)
      · exact hmem
  · intro label pos hmiss
    rcases hmiss.covers hr with hlt | ⟨heq, _⟩
    · exact Int.le_of_lt hlt
    · exact Int.le_of_eq heq

end Expr

end PegMatcher
