import PegMatcher.Proofs.Derivation
import PegMatcher.Proofs.Termination

/-!
# Runs recognise what expressions stand for

A derivation is carried out by a run if its rules nest no deeper than the levels that the cursor has
left. Conversely a run that answers follows a derivation, and tells the outcome that this one concludes.
-/

namespace PegMatcher

set_option autoImplicit false

variable {ctx : Setting} {env : Environment} {s : State} {o : Outcome}

namespace Expr

open PegMatcher.Parser

theorem Derives.tells {n p : Nat} {e : Expr} (h : Derives env ctx.source n e p o) : ∀ (s : State) d,
    s.At ctx.source d → s.pos = p → n ≤ ctx.maxDepth - d →
    (e.parser env ctx s).Tells ctx.source s o := by
  induction h with
  | matched hm =>
    intro s d hs hp _
    have hscan := hm.scan_eq
    rw [← hp] at hscan
    have hb := Primitive.scan_bounds hs.nonneg hs.le_size hscan
    simp only [parser, run, ofPrimitive, hscan]
    exact .ok rfl ⟨by simp only [State.moveTo]; omega, hb.2, rfl⟩ rfl
  | unmatched happ hno =>
    intro s d hs hp _
    have hscan := Primitive.scan_eq_none_iff.mpr ⟨happ, hno⟩
    rw [← hp] at hscan
    simp only [parser, run, ofPrimitive, hscan]
    exact .fail rfl hs.here rfl
  | seqNil =>
    intro s d hs hp _
    rw [parser_seq]
    exact .ok rfl hs.here hp
  | seqFail _ ih =>
    intro s d hs hp hn
    rw [parser_seq]
    exact tells_seq_fail hs.here (ih s d hs hp hn)
  | seqNext _ _ ih1 ih2 =>
    intro s d hs hp hn
    have hrest := fun s' hs' hp' => ih2 s' d (hs.depth_eq ▸ hs') hp' hn
    rw [parser_seq] at hrest ⊢
    exact tells_seq_next hs.here (ih1 s d hs hp hn) hrest
  | choiceNil =>
    intro s d hs _ _
    rw [parser_choice]
    exact .fail rfl hs.here rfl
  | choiceFirst _ ih =>
    intro s d hs hp hn
    rw [parser_choice]
    exact tells_choice_first (ih s d hs hp hn)
  | choiceNext _ _ ih1 ih2 =>
    intro s d hs hp hn
    have hrest := fun (s' : State) hs' (hp' : s'.pos = s.pos) =>
      ih2 s' d (hs.depth_eq ▸ hs') (hp'.trans hp) hn
    rw [parser_choice] at hrest ⊢
    exact tells_choice_next (ih1 s d hs hp hn) hrest
  | starFail _ ih =>
    intro s d hs hp hn
    rw [parser_star]
    exact tells_star_fail hp (ih s d hs hp hn)
  | starStay _ ih =>
    intro s d hs hp hn
    rw [parser_star]
    exact tells_star_stay hp (ih s d hs hp hn)
  | starNext _ hlt _ ih1 ih2 =>
    intro s d hs hp hn
    have hrest := fun s' hs' hp' => ih2 s' d (hs.depth_eq ▸ hs') hp' hn
    rw [parser_star] at hrest ⊢
    exact tells_star_next (by omega) (ih1 s d hs hp hn) hrest
  | plusFail _ ih =>
    intro s d hs hp hn
    rw [parser_plus]
    exact tells_plus_fail (ih s d hs hp hn)
  | plusNext _ _ ih1 ih2 =>
    intro s d hs hp hn
    have hrest := fun s' hs' hp' => ih2 s' d (hs.depth_eq ▸ hs') hp' hn
    rw [parser_star] at hrest
    rw [parser_plus]
    exact tells_plus_next hs.here (ih1 s d hs hp hn) hrest
  | optFail _ ih =>
    intro s d hs hp hn
    rw [parser_opt]
    exact tells_opt_fail hp (ih s d hs hp hn)
  | optOk _ ih =>
    intro s d hs hp hn
    rw [parser_opt]
    exact tells_opt_ok (ih s d hs hp hn)
  | aheadFail _ ih =>
    intro s d hs hp hn
    rw [parser_ahead]
    exact tells_ahead_fail hs.here (ih s d hs hp hn)
  | aheadOk _ ih =>
    intro s d hs hp hn
    rw [parser_ahead]
    exact tells_ahead_ok hs.here hp (ih s d hs hp hn)
  | notAheadFail _ ih =>
    intro s d hs hp hn
    rw [parser_notAhead]
    exact tells_notAhead_fail hs.here hp (ih s d hs hp hn)
  | notAheadOk _ ih =>
    intro s d hs hp hn
    rw [parser_notAhead]
    exact tells_notAhead_ok hs.here (ih s d hs hp hn)
  | expect _ ih =>
    intro s d hs hp hn
    rw [parser_expect]
    exact tells_expect _ _ (ih s d hs hp hn)
  | traced _ ih =>
    intro s d hs hp hn
    rw [parser_traced]
    exact tells_traced _ (ih s d hs hp hn)
  | rule hbody _ ih =>
    intro s d hs hp hn
    have hd := hs.depth_eq
    rw [parser_rule, Rule.parser, hbody]
    have hbody := ih { s with depth := s.depth + 1 } (d + 1)
      ⟨hs.nonneg, hs.le_size, by simp only [hd]⟩ hp (by omega)
    exact tells_nested (by omega) hbody

/-- Wherever `d` rules are running, an answer of a run has a derivation within `n` more. -/
def Follows (env : Environment) (ctx : Setting) (d n : Nat) (e : Expr) : Prop :=
  ∀ (s : State) (p : Nat) v s', s.At ctx.source d → s.pos = p →
    e.parser env ctx s = .returned v s' →
    ∃ o, Derives env ctx.source n e p o

variable {d n : Nat} {e : Expr} {es : List Expr}

/-- An operand that answers follows a derivation, and tells what that one concludes. -/
theorem Follows.tells (h : Follows env ctx d n e) (hn : n ≤ ctx.maxDepth - d) {p : Nat} {v : Value}
    {s' : State} (hs : s.At ctx.source d) (hp : s.pos = p) (hr : e.parser env ctx s = .returned v s') :
    ∃ o, Derives env ctx.source n e p o ∧ (Reply.returned v s').Tells ctx.source s o := by
  obtain ⟨o, ho⟩ := h s p v s' hs hp hr
  exact ⟨o, ho, hr ▸ ho.tells s d hs hp hn⟩

theorem follows_primitive {m : Primitive} : Follows env ctx d n (.primitive m) := by
  intro s p v s' _ hp hr
  simp only [parser, run, ofPrimitive, hp] at hr
  split at hr
  · rename_i hscan
    obtain ⟨q, _, hq⟩ := Primitive.exists_ends hscan
    exact ⟨_, .matched hq⟩
  · rename_i hscan
    obtain ⟨happ, hno⟩ := Primitive.scan_eq_none_iff.mp hscan
    exact ⟨_, .unmatched happ hno⟩
  · cases hr

theorem follows_seq (hn : n ≤ ctx.maxDepth - d) (h : ∀ e ∈ es, Follows env ctx d n e) :
    Follows env ctx d n (.seq es) := by
  induction es with
  | nil => exact fun _ _ _ _ _ _ _ => ⟨_, .seqNil⟩
  | cons e es ih =>
    intro s p v s' hs hp hr
    rw [parser_seq, List.map_cons, seq_cons] at hr
    cases hhead : e.parser env ctx s with
    | raised f t =>
      rw [hhead] at hr
      cases hr
    | returned w t =>
      obtain ⟨o, ho, ht⟩ := (h e (by simp)).tells hn hs hp hhead
      cases ht with
      | fail _ _ _ => exact ⟨_, .seqFail ho⟩
      | ok hw ht hq =>
        simp only [hhead, hw, if_true] at hr
        split at hr
        · rename_i w' t' hrest
          rw [← parser_seq] at hrest
          have hes := ih fun e he => h e (by simp [he])
          obtain ⟨o', ho'⟩ := hes t _ w' t' (hs.depth_eq ▸ ht) hq hrest
          exact ⟨_, .seqNext ho ho'⟩
        · cases hr

theorem follows_choice (hn : n ≤ ctx.maxDepth - d) (h : ∀ e ∈ es, Follows env ctx d n e) :
    Follows env ctx d n (.choice es) := by
  induction es with
  | nil => exact fun _ _ _ _ _ _ _ => ⟨_, .choiceNil⟩
  | cons e es ih =>
    intro s p v s' hs hp hr
    rw [parser_choice, List.map_cons, Parser.choice] at hr
    cases hhead : e.parser env ctx s with
    | raised f t =>
      rw [hhead] at hr
      cases hr
    | returned w t =>
      obtain ⟨o, ho, ht⟩ := (h e (by simp)).tells hn hs hp hhead
      cases ht with
      | ok _ _ _ => exact ⟨_, .choiceFirst ho⟩
      | fail hw ht hq =>
        simp only [hhead, hw, Bool.false_eq_true, if_false] at hr
        rw [← parser_choice] at hr
        obtain ⟨o', ho'⟩ := ih (fun e he => h e (by simp [he])) t p v s' (hs.depth_eq ▸ ht)
          (hq.trans hp) hr
        exact ⟨_, .choiceNext ho ho'⟩

theorem follows_star {may : Fault → Prop} (hn : n ≤ ctx.maxDepth - d) (h : Follows env ctx d n e)
    (hb : (e.parser env).Behaves ctx d .onward may) : Follows env ctx d n (.star e) := by
  intro s p v s' hs hp hr
  rw [parser_star] at hr
  cases hrep : repeated (e.parser env) ctx s with
  | none =>
    rw [star_of_endless hrep] at hr
    cases hr
  | some r =>
    obtain rfl := (star_of_repeated hrep).symm.trans hr
    obtain ⟨k, hk⟩ := exists_rounds hrep
    clear hr hrep
    generalize hanswer : Reply.returned v s' = r at hk
    induction hk generalizing p with
    | failed hr hv =>
      obtain ⟨o, ho, ht⟩ := h.tells hn hs hp hr
      obtain ⟨rfl, _⟩ := ht.of_falsy hv
      exact ⟨_, .starFail ho⟩
    | stayed hr hv hstay =>
      obtain ⟨o, ho, ht⟩ := h.tells hn hs hp hr
      obtain ⟨q, rfl, _, hq⟩ := ht.of_truthy hv
      rw [hstay, hp] at hq
      cases hq
      exact ⟨_, .starStay ho⟩
    | raised _ => cases hanswer
    | again hr hv hmoved _ ih =>
      obtain ⟨o, ho, ht⟩ := h.tells hn hs hp hr
      obtain ⟨q, rfl, ht, hq⟩ := ht.of_truthy hv
      have hm := hb _ hs
      rw [hr] at hm
      cases hm with
      | returned _ hle _ =>
        obtain ⟨o', ho'⟩ := ih _ (hs.depth_eq ▸ ht) hq hanswer
        exact ⟨_, .starNext ho (by omega) ho'⟩

theorem follows_plus (hn : n ≤ ctx.maxDepth - d) (h : Follows env ctx d n e)
    (hstar : Follows env ctx d n (.star e)) : Follows env ctx d n (.plus e) := by
  intro s p v s' hs hp hr
  rw [parser_plus] at hr
  simp only [Parser.plus] at hr
  cases hhead : e.parser env ctx s with
  | raised f t =>
    rw [hhead] at hr
    cases hr
  | returned w t =>
    obtain ⟨o, ho, ht⟩ := h.tells hn hs hp hhead
    cases ht with
    | fail _ _ _ => exact ⟨_, .plusFail ho⟩
    | ok hw ht hq =>
      simp only [hhead, hw, if_true] at hr
      split at hr
      · rename_i hstay
        rw [hstay, hp] at hq
        cases hq
        exact ⟨_, .plusNext ho (.starStay ho)⟩
      · split at hr
        · rename_i w' t' hrest
          rw [← parser_star] at hrest
          obtain ⟨o', ho'⟩ := hstar t _ w' t' (hs.depth_eq ▸ ht) hq hrest
          exact ⟨_, .plusNext ho ho'⟩
        · cases hr

theorem Follows.unary {e' : Expr} (h : Follows env ctx d n e)
    (hraised : ∀ s f t, e.parser env ctx s = .raised f t →
      ∃ g u, e'.parser env ctx s = .raised g u)
    (hrule : ∀ p o, Derives env ctx.source n e p o → ∃ o', Derives env ctx.source n e' p o') :
    Follows env ctx d n e' := by
  intro s p v s' hs hp hr
  cases hbody : e.parser env ctx s with
  | raised f t =>
    obtain ⟨g, u, hu⟩ := hraised s f t hbody
    rw [hu] at hr
    cases hr
  | returned w t =>
    obtain ⟨o, ho⟩ := h s p w t hs hp hbody
    exact hrule p o ho

theorem follows_opt (h : Follows env ctx d n e) : Follows env ctx d n (.opt e) := by
  refine h.unary (fun s f t hr => ⟨f, t, by simp only [parser_opt, Parser.opt, hr]⟩) fun p o ho => ?_
  cases o with
  | ok q => exact ⟨_, .optOk ho⟩
  | fail => exact ⟨_, .optFail ho⟩

theorem follows_ahead (h : Follows env ctx d n e) : Follows env ctx d n (.ahead e) := by
  refine h.unary (fun s f t hr => ⟨f, t, by simp only [parser_ahead, Parser.ahead, hr]⟩)
    fun p o ho => ?_
  cases o with
  | ok q => exact ⟨_, .aheadOk ho⟩
  | fail => exact ⟨_, .aheadFail ho⟩

theorem follows_notAhead (h : Follows env ctx d n e) : Follows env ctx d n (.notAhead e) := by
  refine h.unary (fun s f t hr => ⟨f, t, by simp only [parser_notAhead, Parser.notAhead, hr]⟩)
    fun p o ho => ?_
  cases o with
  | ok q => exact ⟨_, .notAheadOk ho⟩
  | fail => exact ⟨_, .notAheadFail ho⟩

theorem follows_expect {tracker label : String} (h : Follows env ctx d n e) :
    Follows env ctx d n (.expect tracker label e) :=
  h.unary (fun s f t hr => ⟨f, t, by simp only [parser_expect, Parser.expect, hr]⟩)
    fun _ o ho => ⟨o, .expect ho⟩

theorem follows_traced {tag : Value} (h : Follows env ctx d n e) :
    Follows env ctx d n (.traced tag e) := by
  refine h.unary (fun s f t hr => ?_) fun _ o ho => ⟨o, .traced ho⟩
  simp only [parser_traced, Parser.traced, hr]
  exact ⟨_, _, rfl⟩

theorem follows_rule {id : RuleId}
    (h : ∀ body, (env id).body = some body → d < ctx.maxDepth →
      Follows env ctx (d + 1) (ctx.maxDepth - (d + 1)) body) :
    Follows env ctx d (ctx.maxDepth - d) (.rule id) := by
  intro s p v s' hs hp hr
  have hd := hs.depth_eq
  rw [parser_rule, Rule.parser] at hr
  cases hbody : (env id).body with
  | none =>
    rw [hbody] at hr
    cases hr
  | some body =>
    simp only [hbody, nested] at hr
    split at hr
    · cases hr
    · rename_i hlt
      split at hr
      · rename_i w t hrun
        obtain ⟨o, ho⟩ := h body hbody (by omega) { s with depth := s.depth + 1 } p w t
          ⟨hs.nonneg, hs.le_size, by simp only [hd]⟩ hp hrun
        rw [show ctx.maxDepth - d = ctx.maxDepth - (d + 1) + 1 by omega]
        exact ⟨o, .rule hbody ho⟩
      · cases hr

theorem Built.follows {ok : Primitive → Prop} {refs : RuleId → Prop} (hb : env.Built ok refs) :
    ∀ d e, e.Built ok refs → Follows env ctx d (ctx.maxDepth - d) e := by
  intro d
  induction hn : ctx.maxDepth - d using Nat.strongRecOn generalizing d with
  | ind n ih =>
    subst hn
    intro e he
    induction he with
    | primitive _ => exact follows_primitive
    | seq _ hparts => exact follows_seq (Nat.le_refl _) hparts
    | choice _ hparts => exact follows_choice (Nat.le_refl _) hparts
    | star he hbody => exact follows_star (Nat.le_refl _) hbody (he.behaves hb ctx d).onward
    | plus he hbody =>
      have hstar := follows_star (Nat.le_refl _) hbody (he.behaves hb ctx d).onward
      exact follows_plus (Nat.le_refl _) hbody hstar
    | opt _ hbody => exact follows_opt hbody
    | ahead _ hbody => exact follows_ahead hbody
    | notAhead _ hbody => exact follows_notAhead hbody
    | expect _ hbody => exact follows_expect hbody
    | traced _ hbody => exact follows_traced hbody
    | rule _ =>
      refine follows_rule fun body hbody hlt => ?_
      exact ih _ (by omega) (d + 1) rfl body (hb _ _ hbody)

end Expr

/-- A run that answers has a derivation of its outcome, and a derivation whose rules nest within the levels left
is carried out, to exactly its outcome. -/
theorem recognition (env : Environment) (e : Expr) (ctx : Setting) (s : State) (p : Nat)
    (hb : env.Plain) (he : e.Plain) (hp : s.pos = p) (h1 : p ≤ ctx.source.size) :
    (∀ v s', e.parser env ctx s = .returned v s' →
      (v.truthy = true → ∃ q : Nat, s'.pos = q ∧
        Expr.Derives env ctx.source (ctx.maxDepth - s.depth) e p (.ok q)) ∧
      (v.truthy = false → Expr.Derives env ctx.source (ctx.maxDepth - s.depth) e p .fail)) ∧
    (∀ n o, Expr.Derives env ctx.source n e p o → n ≤ ctx.maxDepth - s.depth →
      ∃ v s', e.parser env ctx s = .returned v s' ∧
        match o with
        | .ok q => v.truthy = true ∧ s'.pos = q
        | .fail => v.truthy = false ∧ s'.pos = p) := by
  have hs : s.At ctx.source s.depth := ⟨by omega, by omega, rfl⟩
  constructor
  · intro v s' hr
    obtain ⟨o, ho, ht⟩ := (Expr.Built.follows hb s.depth e he).tells (Nat.le_refl _) hs hp hr
    cases ht with
    | ok hv _ hq => exact ⟨fun _ => ⟨_, hq, ho⟩, fun hf => by simp [hv] at hf⟩
    | fail hv _ _ => exact ⟨fun hf => by simp [hv] at hf, fun _ => ho⟩
  · intro n o ho hn
    have ht := ho.tells s s.depth hs hp hn
    generalize e.parser env ctx s = r at ht
    cases ht with
    | ok hv _ hq => exact ⟨_, _, rfl, hv, hq⟩
    | fail hv _ hq => exact ⟨_, _, rfl, hv, hq.trans hp⟩

/-- Any number of words, each of which is an 'a' and a 'b' around further words. -/
def balancedRules : Environment
  | .loose 0 => ⟨some "words", some (.star (.rule (.loose 1)))⟩
  | _ => ⟨some "word", some (.seq [.primitive (.element (.char 'a')), .opt (.rule (.loose 0)),
      .primitive (.element (.char 'b'))])⟩

theorem plain_balancedRules : balancedRules.Plain := by
  intro id body hb
  unfold balancedRules at hb
  split at hb <;> cases hb <;> simp

theorem recognition_balanced :
    let e : Expr := .rule (.loose 0)
    let ctx : Setting := ⟨.text #['a', 'b'], 4⟩
    let s : State := ⟨0, 0, [], #[]⟩
    balancedRules.Plain ∧ e.Plain ∧ s.pos = (0 : Nat) ∧ 0 ≤ ctx.source.size ∧
    Expr.Derives balancedRules ctx.source 4 e 0 (.ok 2) ∧
    ∃ v s', e.parser balancedRules ctx s = .returned v s' ∧
      v.truthy = true ∧ s'.pos = (2 : Nat) := by
  intro e ctx s
  have he : e.Plain := .rule trivial
  have hword : ∀ n p, (Primitive.element (.char 'a')).scan ctx.source (p : Nat) = .ok none →
      Expr.Derives balancedRules ctx.source (n + 1) (.rule (.loose 1)) p .fail := by
    intro n p h
    obtain ⟨happ, hno⟩ := Primitive.scan_eq_none_iff.mp h
    exact .rule rfl (.seqFail (.unmatched happ hno))
  have hd : Expr.Derives balancedRules ctx.source 4 e 0 (.ok 2) := by
    refine .rule rfl (.starNext (q := 2) (.rule rfl ?_) (by decide) (.starFail (hword 2 2 rfl)))
    refine .seqNext (.matched (.element rfl rfl)) (.seqNext (.optOk (q := 1) (.rule rfl ?_)) ?_)
    · exact .starFail (hword 0 1 rfl)
    · exact .seqNext (.matched (.element rfl rfl)) .seqNil
  have h := recognition balancedRules e ctx s 0 plain_balancedRules he rfl (by decide)
  exact ⟨plain_balancedRules, he, rfl, by decide, hd, h.2 4 (.ok 2) hd (by decide)⟩

end PegMatcher
