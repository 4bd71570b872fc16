import PegMatcher.Proofs.Outcomes
import PegMatcher.Proofs.Replay
import PegMatcher.Proofs.Termination

/-!
# Laws of the operators

Some operators say what others say as well: one match and then any number of them, a match or nothing, a
lookahead that is denied twice, a repetition that is repeated, alternatives that begin alike. The two sides do
not run their operands equally often. They agree since an operand that fails stays where it is, since a
repetition ends when nothing is taken, and since a run that is made again records nothing new.
-/

namespace PegMatcher

set_option autoImplicit false

variable {env : Environment} {ctx : Setting} {s t : State} {v : Value}

namespace Parser

variable {p : Parser}

theorem opt_eq_choice (p : Parser) : p.opt = choice [p, seq []] := by
  funext ctx s
  rw [choice_pair, opt]
  cases p ctx s with
  | raised f s' => rfl
  | returned v s' => cases hv : v.truthy <;> simp [hv, seq, guarded, all]

theorem ahead_eq_notAhead (p : Parser) : p.ahead = p.notAhead.notAhead := by
  funext ctx s
  simp only [ahead, notAhead]
  cases p ctx s with
  | raised f s' => rfl
  | returned v s' => simp [State.moveTo]

theorem star_returned_or_raised (p : Parser) (ctx : Setting) (s : State) :
    (∃ t, star p ctx s = .returned (.bool true) t) ∨ ∃ f t, star p ctx s = .raised f t := by
  cases hr : star p ctx s with
  | returned v t =>
    obtain rfl := star_value_eq hr
    exact .inl ⟨t, rfl⟩
  | raised f t => exact .inr ⟨f, t, rfl⟩

theorem Rounds.opt {may : Fault → Prop} {d n : Nat} {r : Reply} (h : Rounds p ctx s n r)
    (hp : p.Behaves ctx d .tidy may) (hs : s.At ctx.source d) : Rounds p.opt ctx s n r := by
  induction h with
  | @failed s s' v run hv =>
    have hm := hp s hs
    rw [run] at hm
    cases hm with
    | returned _ _ hstay => exact .stayed (by rw [Parser.opt, run]) rfl (hstay rfl hv)
  | stayed run _ he => exact .stayed (by rw [Parser.opt, run]) rfl he
  | raised run => exact .raised (by rw [Parser.opt, run])
  | @again s s' v n r run _ hne _ ih =>
    have hm := hp s hs
    rw [run] at hm
    cases hm with
    | returned hs' _ _ => exact .again (by rw [Parser.opt, run]) rfl hne (ih (hs.depth_eq ▸ hs'))

end Parser

namespace Expr

variable {e a b c : Expr} {d : Nat}

/-- A run that stays where it is does the same when it is made again, and records nothing. -/
theorem replay_stayed (hr : e.parser env ctx s = .returned v t) (hstay : t.pos = s.pos) :
    ∃ u, e.parser env ctx t = .returned v u ∧ u.Same t := by
  have hdepth := e.parser_depth env ctx s
  rw [hr] at hdepth
  exact replay hr hstay hdepth fun _ _ _ => id

/-- A run is made again where a run behind it has failed and stayed: it ends there, with nothing new. -/
theorem replay_behind {w : Value} {u : State} (hr : a.parser env ctx s = .returned v t)
    (hrb : b.parser env ctx t = .returned w u) (hstay : u.pos = t.pos) :
    ∃ s', a.parser env ctx (u.moveTo s.pos) = .returned v s' ∧ s'.Same u := by
  have ht := a.parser_depth env ctx s
  have hu := b.parser_depth env ctx t
  have hknows := b.knows env ctx t
  rw [hr] at ht
  rw [hrb] at hu hknows
  obtain ⟨s', hagain, hsame⟩ := replay hr (t := u.moveTo s.pos) rfl (hu.trans ht) hknows
  have hback : (u.moveTo s.pos).moveTo t.pos = u := by rw [← hstay]; rfl
  exact ⟨s', hagain, hback ▸ hsame⟩

namespace Built

variable {ok : Primitive → Prop} {refs : RuleId → Prop}

theorem pos_of_falsy (h : Built ok refs e) (hb : env.Built ok refs) (hs : s.At ctx.source d)
    (hr : e.parser env ctx s = .returned v t) (hv : v.truthy = false) : t.pos = s.pos := by
  have hm := h.behaves hb ctx d s hs
  rw [hr] at hm
  cases hm with
  | returned _ _ hstay => exact hstay rfl hv

theorem star_settled (h : Built ok refs e) (hb : env.Built ok refs) (hs : s.At ctx.source d)
    (hr : (e.parser env).star ctx s = .returned v t) :
    ∃ u, (e.parser env).star ctx t = .returned (.bool true) u ∧ u.Same t := by
  obtain ⟨n, r, hrounds⟩ := (h.rounds_bound hb hs).1
  rw [hrounds.star_eq] at hr
  induction hrounds with
  | @failed s s' w run hw =>
    obtain ⟨rfl, rfl⟩ := Reply.returned.inj hr
    obtain ⟨u, hagain, hsame⟩ := replay_stayed run (h.pos_of_falsy hb hs run hw)
    exact ⟨u, (Parser.Rounds.failed hagain hw).star_eq, hsame⟩
  | @stayed s s' w run hw hstay =>
    obtain ⟨rfl, rfl⟩ := Reply.returned.inj hr
    obtain ⟨u, hagain, hsame⟩ := replay_stayed run hstay
    exact ⟨u, (Parser.Rounds.stayed hagain hw hsame.pos_eq).star_eq, hsame⟩
  | raised => cases hr
  | again run _ _ _ ih => exact ih (h.returned_at hb hs run).1 hr

theorem same_plus (he : Built ok refs e) (hb : env.Built ok refs) (hs : s.At ctx.source d) :
    ((Expr.plus e).parser env ctx s).Same ((Expr.seq [e, .star e]).parser env ctx s) := by
  rw [parser_plus, parser_seq, List.map_cons, List.map_cons, List.map_nil, parser_star,
    Parser.seq_pair, Parser.plus]
  cases hr : e.parser env ctx s with
  | raised f t => exact .refl _
  | returned v t =>
    cases hv : v.truthy with
    | false =>
      have hstay := he.pos_of_falsy hb hs hr hv
      simp only [hv, Bool.false_eq_true, if_false]
      exact .returned ⟨hstay, rfl, fun _ => rfl⟩
    | true =>
      simp only [hv, if_true]
      by_cases hstay : t.pos = s.pos
      · obtain ⟨u, hagain, hsame⟩ := replay_stayed hr hstay
        have hstar := (Parser.Rounds.stayed hagain hv hsame.pos_eq).star_eq
        simp only [if_pos hstay, hstar]
        exact .returned hsame.symm
      · simp only [if_neg hstay]
        rcases Parser.star_returned_or_raised (e.parser env) ctx t with ⟨u, hstar⟩ | ⟨f, u, hstar⟩
        · simp only [hstar]
          exact .refl _
        · simp only [hstar]
          exact .refl _

theorem same_star_star (he : Built ok refs e) (hb : env.Built ok refs) (hs : s.At ctx.source d) :
    ((Expr.star (.star e)).parser env ctx s).Same ((Expr.star e).parser env ctx s) := by
  rw [parser_star, parser_star]
  rcases Parser.star_returned_or_raised (e.parser env) ctx s with ⟨t, hstar⟩ | ⟨f, t, hstar⟩
  · by_cases hstay : t.pos = s.pos
    · rw [(Parser.Rounds.stayed hstar rfl hstay).star_eq, hstar]
      exact .refl _
    · obtain ⟨u, hsettled, hsame⟩ := he.star_settled hb hs hstar
      rw [(Parser.Rounds.again hstar rfl hstay (.stayed hsettled rfl hsame.pos_eq)).star_eq, hstar]
      exact .returned hsame
  · rw [(Parser.Rounds.raised hstar).star_eq, hstar]
    exact .refl _

theorem same_star_opt (he : Built ok refs e) (hb : env.Built ok refs) (hs : s.At ctx.source d) :
    ((Expr.star (.opt e)).parser env ctx s).Same ((Expr.star e).parser env ctx s) := by
  obtain ⟨n, r, hrounds⟩ := (he.rounds_bound hb hs).1
  rw [parser_star, parser_opt, parser_star, hrounds.star_eq,
    (hrounds.opt (he.behaves hb ctx d) hs).star_eq]
  exact .refl r

/-- Alternatives that begin alike share their beginning. -/
theorem same_choice_seq (ha : Built ok refs a) (hab : Built ok refs b) (hb : env.Built ok refs) (c : Expr)
    (hs : s.At ctx.source d) :
    ((Expr.choice [.seq [a, b], .seq [a, c]]).parser env ctx s).Same
      ((Expr.seq [a, .choice [b, c]]).parser env ctx s) := by
  simp only [parser_choice, parser_seq, List.map_cons, List.map_nil, Parser.seq_pair, Parser.choice_pair]
  cases hr : a.parser env ctx s with
  | raised f t => exact .refl _
  | returned v t =>
    cases hv : v.truthy with
    | false =>
      have hstay := ha.pos_of_falsy hb hs hr hv
      obtain ⟨u, hagain, hsame⟩ := replay_stayed hr hstay
      have hback : t.moveTo s.pos = t := by rw [← hstay]; rfl
      simp only [hv, Bool.false_eq_true, if_false, Value.truthy_bool, hback, hagain]
      exact .returned (hsame.moveTo t.pos)
    | true =>
      simp only [hv, if_true]
      cases hrb : b.parser env ctx t with
      | raised f u => exact .refl _
      | returned w u =>
        cases hw : w.truthy with
        | true =>
          simp only [hw, if_true, Value.truthy_bool]
          exact .refl _
        | false =>
          have hstay := hab.pos_of_falsy hb (ha.returned_at hb hs hr).1 hrb hw
          obtain ⟨s', hagain, hsame⟩ := replay_behind hr hrb hstay
          have hlast := c.same env ctx hsame
          simp only [hw, Bool.false_eq_true, if_false, Value.truthy_bool, hagain, hv, if_true]
          generalize c.parser env ctx s' = r at hlast ⊢
          generalize c.parser env ctx u = r' at hlast ⊢
          cases hlast with
          | raised hsame' => exact .raised hsame'
          | @returned w' x y hsame' =>
            cases hw' : w'.truthy with
            | true =>
              simp only [hw', if_true]
              exact .returned hsame'
            | false =>
              simp only [hw', Bool.false_eq_true, if_false]
              exact .returned (hsame'.moveTo s.pos)

end Built

end Expr

/-- Operators say what others say: they match alike or have the same fault, end at the same place, and leave
the same on every tracker. -/
theorem operators_agree (env : Environment) (hb : env.Plain) (ctx : Setting) (s : State) (h0 : 0 ≤ s.pos)
    (h1 : s.pos ≤ ctx.source.size) {p a b : Expr} (hp : p.Plain) (ha : a.Plain) (hab : b.Plain)
    (c : Expr) :
    let agree (e e' : Expr) := (e.parser env ctx s).Same (e'.parser env ctx s)
    agree (.plus p) (.seq [p, .star p]) ∧
      agree (.opt p) (.choice [p, .seq []]) ∧
      agree (.ahead p) (.notAhead (.notAhead p)) ∧
      agree (.star (.star p)) (.star p) ∧
      agree (.star (.opt p)) (.star p) ∧
      agree (.choice [.seq [a, b], .seq [a, c]]) (.seq [a, .choice [b, c]]) := by
  have hs : s.At ctx.source s.depth := ⟨h0, h1, rfl⟩
  refine ⟨hp.same_plus hb hs, ?_, ?_, hp.same_star_star hb hs, hp.same_star_opt hb hs,
    ha.same_choice_seq hab hb c hs⟩
  · simp only [Expr.parser_opt, Expr.parser_choice, Expr.parser_seq, List.map_cons, List.map_nil,
      Parser.opt_eq_choice]
    exact .refl _
  · simp only [Expr.parser_ahead, Expr.parser_notAhead, Parser.ahead_eq_notAhead]
    exact .refl _

def watchedRules : Environment := fun _ => ⟨some "letter", some (.expect "t" "letter" (.ofText ['a']))⟩

/-- The first alternative matches the letter and misses what follows it, and the second one begins with it again. -/
theorem operators_agree_watched :
    let p : Expr := .rule (.loose 0)
    let b : Expr := .expect "t" "comma" (.ofText [','])
    let c : Expr := .star p
    let ctx : Setting := ⟨.text #['a', 'a'], 2⟩
    let s : State := ⟨0, 0, [("t", ⟨0, ["digit"]⟩)], #[]⟩
    let agree (e e' : Expr) := (e.parser watchedRules ctx s).Same (e'.parser watchedRules ctx s)
    watchedRules.Plain ∧ p.Plain ∧ b.Plain ∧ (0 ≤ s.pos ∧ s.pos ≤ ctx.source.size) ∧
      agree (.plus p) (.seq [p, .star p]) ∧
      agree (.star (.opt p)) (.star p) ∧
      agree (.choice [.seq [p, b], .seq [p, c]]) (.seq [p, .choice [b, c]]) ∧
      (Expr.seq [p, b]).parser watchedRules ctx s =
        .returned (.bool false) ⟨0, 0, [("t", ⟨1, ["comma"]⟩)], #[]⟩ := by
  intro p b c ctx s agree
  have hplain : watchedRules.Plain := by
    intro id body hbody
    cases hbody
    exact .expect (Lexical.built_ofText (fun _ _ => trivial) _)
  have hp : p.Plain := .rule trivial
  have hb : b.Plain := .expect (Lexical.built_ofText (fun _ _ => trivial) _)
  obtain ⟨hplus, _, _, _, hopt, hshared⟩ :=
    operators_agree watchedRules hplain ctx s (by decide) (by decide) hp hp hb c
  exact ⟨hplain, hp, hb, ⟨by decide, by decide⟩, hplus, hopt, hshared, rfl⟩

end PegMatcher
