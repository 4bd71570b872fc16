import PegMatcher.Operand
import PegMatcher.Proofs.Refusal

/-!
# Looking ahead

A lookahead that answers leaves the cursor where it was, whatever the parsers in it did. A fault passes
through it as it is, position included: it does not move the cursor back, so it leaves it where the parser
that raised the fault did, behind all that was matched before. Only a parser that goes back by itself, such as
a block or a rule that is refused, makes up for that.
-/

namespace PegMatcher

set_option autoImplicit false

variable {env : Environment} {ctx : Setting}

namespace Parser

/-- A lookahead for a parser, be it that this matches or that it does not. -/
def LooksAhead (look p : Parser) : Prop := look = .ahead p ∨ look = .notAhead p

namespace LooksAhead

variable {look p : Parser} {s t : State} {v : Value} {f : Fault}

theorem pos_of_returned (h : LooksAhead look p) (hr : look ctx s = .returned v t) : t.pos = s.pos := by
  rcases h with rfl | rfl
  all_goals
    simp only [ahead, notAhead] at hr
    split at hr
    · cases hr
      rfl
    · cases hr

theorem raised_iff (h : LooksAhead look p) : look ctx s = .raised f t ↔ p ctx s = .raised f t := by
  rcases h with rfl | rfl
  all_goals
    simp only [ahead, notAhead]
    cases p ctx s with
    | returned _ _ => simp only [reduceCtorEq]
    | raised _ _ => exact Iff.rfl

end LooksAhead

end Parser

theorem Operand.convertAll_of_joined {ps : List Operand} {inner : Expr} (h : joined ps = .ok inner) :
    ∃ parts, convertAll ps = .ok parts ∧ (parts = [inner] ∨ inner = .seq parts) := by
  unfold joined at h
  split at h
  · cases h
  · refine ⟨[inner], ?_, .inl rfl⟩
    rw [convertAll, h]
    rfl
  · cases hparts : convertAll ps with
    | error f =>
      rw [hparts] at h
      cases h
    | ok parts =>
      rw [hparts] at h
      cases h
      exact ⟨parts, rfl, .inr rfl⟩

namespace Expr

variable {es : List Expr} {e part : Expr} {s t : State} {f : Fault}

theorem starts_singleton_iff : Starts env ctx (.seq [e]) s part t ↔ part = e ∧ t = s := by
  constructor
  · intro h
    cases h with
    | seqHead => exact ⟨rfl, rfl⟩
    | seqNext _ _ h => cases h
  · rintro ⟨rfl, rfl⟩
    exact .seqHead

/-- A sequence ends in the fault of a part that it comes to run, and in the state that this part left. -/
theorem raised_seq_iff : (seq es).parser env ctx s = .raised f t ↔
    ∃ part u, Starts env ctx (.seq es) s part u ∧ part.parser env ctx u = .raised f t := by
  constructor
  · intro hr
    obtain ⟨part, _, u, hstart, hpart⟩ := exists_part_seq s t hr
    exact ⟨part, u, hstart, hpart⟩
  · rintro ⟨part, u, hstart, hpart⟩
    generalize hes : seq es = e at hstart
    induction hstart generalizing es with
    | seqHead => rw [parser_seq, List.map_cons, Parser.seq_cons, hpart]
    | seqNext hhead hv _ ih =>
      have hrest := ih hpart rfl
      rw [parser_seq] at hrest
      rw [parser_seq, List.map_cons, Parser.seq_cons, hhead]
      simp only [hv, if_true, hrest]
    | _ => cases hes

theorem raised_joined_iff (h : es = [e] ∨ e = .seq es) : e.parser env ctx s = .raised f t ↔
    ∃ part u, Starts env ctx (.seq es) s part u ∧ part.parser env ctx u = .raised f t := by
  rcases h with rfl | rfl
  · simp only [starts_singleton_iff]
    constructor
    · intro hr
      exact ⟨e, s, ⟨rfl, rfl⟩, hr⟩
    · rintro ⟨_, _, ⟨rfl, rfl⟩, hr⟩
      exact hr
  · exact raised_seq_iff

theorem pos_of_block {actions : List (Action Expr)} (hr : (block actions).parser env ctx s = .raised f t) :
    t.pos = s.pos := by
  simp only [parser, run, Parser.block] at hr
  cases hbody : Block.perform [] (.openAt s) (runActions (invoke env (ctx.maxDepth - s.depth)) actions)
      ctx s with
  | raised g u =>
    simp only [hbody, Flow.leave] at hr
    cases hr
    rfl
  | _ =>
    simp only [hbody, Flow.leave] at hr
    cases hr

theorem pos_of_undefined {id : RuleId} (h : (env id).body = none)
    (hr : (rule id).parser env ctx s = .raised f t) : t.pos = s.pos := by
  simp only [parser_rule, Rule.parser, h, Parser.fault] at hr
  cases hr
  rfl

/-- What goes back by itself when it ends in the fault: a block, and a rule that is undefined or refused. -/
def GoesBack (env : Environment) (f : Fault) : Expr → Prop
  | .block _ => True
  | .rule id => (env id).body = none ∨ f.isDepthExceeded = true
  | _ => False

theorem GoesBack.pos_eq (h : e.GoesBack env f) (hr : e.parser env ctx s = .raised f t) : t.pos = s.pos := by
  cases e with
  | block actions => exact pos_of_block hr
  | rule id =>
    rcases h with hnone | hdepth
    · exact pos_of_undefined hnone hr
    · exact pos_of_rule hr hdepth
  | _ => exact h.elim

end Expr

theorem exists_looksAhead {ps : List Operand} {e : Expr}
    (he : Factory.ahead ps = .ok e ∨ Factory.notAhead ps = .ok e) (env : Environment) :
    ∃ parts inner, Operand.convertAll ps = .ok parts ∧ (parts = [inner] ∨ inner = .seq parts) ∧
      Parser.LooksAhead (e.parser env) (inner.parser env) := by
  unfold Factory.ahead Factory.notAhead at he
  cases hinner : Operand.joined ps with
  | error f =>
    rw [hinner] at he
    rcases he with he | he <;> cases he
  | ok inner =>
    rw [hinner] at he
    obtain ⟨parts, hparts, hjoined⟩ := Operand.convertAll_of_joined hinner
    refine ⟨parts, inner, hparts, hjoined, ?_⟩
    rcases he with he | he
    · cases he
      exact .inl (Expr.parser_ahead env inner)
    · cases he
      exact .inr (Expr.parser_notAhead env inner)

/-- A lookahead that answers leaves the cursor where it was. A fault that passes through it leaves the cursor
where the parser that raised the fault did. -/
theorem lookahead_position {ps : List Operand} {e : Expr}
    (he : Factory.ahead ps = .ok e ∨ Factory.notAhead ps = .ok e) (env : Environment) (ctx : Setting)
    (s : State) :
    (∀ v t, e.parser env ctx s = .returned v t → t.pos = s.pos) ∧
    (∃ parts, Operand.convertAll ps = .ok parts ∧
      (∀ f t, e.parser env ctx s = .raised f t ↔
        ∃ part u, Expr.Starts env ctx (.seq parts) s part u ∧ part.parser env ctx u = .raised f t) ∧
      ∀ inner f t, parts = [inner] → inner.GoesBack env f → e.parser env ctx s = .raised f t →
        t.pos = s.pos) ∧
    ∀ look p : Parser, look.LooksAhead p → (∀ v t, look ctx s = .returned v t → t.pos = s.pos) ∧
      ∀ f t, look ctx s = .raised f t ↔ p ctx s = .raised f t := by
  obtain ⟨parts, inner, hparts, hjoined, hlook⟩ := exists_looksAhead he env
  have hraised (f : Fault) (t : State) : e.parser env ctx s = .raised f t ↔
      ∃ part u, Expr.Starts env ctx (.seq parts) s part u ∧ part.parser env ctx u = .raised f t :=
    hlook.raised_iff.trans (Expr.raised_joined_iff hjoined)
  refine ⟨fun v t => hlook.pos_of_returned, ⟨parts, hparts, hraised, fun inner f t hsingle hback hr => ?_⟩,
    fun look p h => ⟨fun v t => h.pos_of_returned, fun f t => h.raised_iff⟩⟩
  obtain ⟨part, u, hstart, hpart⟩ := (hraised f t).mp hr
  rw [hsingle] at hstart
  obtain ⟨rfl, rfl⟩ := Expr.starts_singleton_iff.mp hstart
  exact hback.pos_eq hpart

/-- A rule without a body is met behind the first of two elements, and the cursor stays between them. -/
theorem lookahead_position_undefined :
    let any : Expr := .primitive .any
    let missing : Expr := .rule (.loose 0)
    let env : Environment := fun _ => ⟨some "r", none⟩
    let ctx : Setting := ⟨.text #['a', 'b'], 1⟩
    let s : State := ⟨0, 0, [], #[]⟩
    let t : State := ⟨1, 0, [], #[]⟩
    (Factory.ahead [.parser any, .parser missing] = .ok (.ahead (.seq [any, missing])) ∧
      (Expr.ahead (.seq [any, missing])).parser env ctx s = .raised (.undefinedRule (some "r")) t) ∧
    (Factory.notAhead [.parser missing] = .ok (.notAhead missing) ∧
      missing.GoesBack env (.undefinedRule (some "r")) ∧
      ∀ u, (Expr.notAhead missing).parser env ctx s = .raised (.undefinedRule (some "r")) u → u.pos = 0) := by
  intro any missing env ctx s t
  have hback : missing.GoesBack env (.undefinedRule (some "r")) := .inl rfl
  obtain ⟨_, ⟨parts, hparts, hraised, _⟩, _⟩ :=
    @lookahead_position [.parser any, .parser missing] _ (.inl rfl) env ctx s
  cases hparts
  obtain ⟨_, ⟨parts', hparts', _, hsingle⟩, _⟩ :=
    @lookahead_position [.parser missing] _ (.inr rfl) env ctx s
  cases hparts'
  refine ⟨⟨rfl, (hraised _ _).mpr ⟨missing, t, .seqNext rfl rfl .seqHead, rfl⟩⟩, rfl, hback, ?_⟩
  exact fun u => hsingle missing _ u rfl hback

end PegMatcher
