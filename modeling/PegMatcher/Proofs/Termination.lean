import PegMatcher.Proofs.Consumption
import PegMatcher.Proofs.Depth

/-!
# Every run ends

The rules that run inside one another are bounded by the depth, the operators inside one body by the
expression, and the rounds of a repetition by what remains of the source. So no run of an expression
without hand-written parts calls others without end, whatever the rules; left recursion included.
-/

namespace PegMatcher

set_option autoImplicit false

variable {env : Environment} {ctx : Setting} {ok : Primitive → Prop} {refs : RuleId → Prop}

namespace Expr

def operands : Expr → List Expr
  | .seq parts => parts
  | .choice options => options
  | .star e => [e]
  | .plus e => [e, .star e]
  | .opt e => [e]
  | .ahead e => [e]
  | .notAhead e => [e]
  | .expect _ _ e => [e]
  | .traced _ e => [e]
  | .primitive _ => []
  | .rule _ => []
  | .block _ => []
  | .routine _ => []

/-- While the second run lasts, the first is called. -/
inductive Calls (env : Environment) (ctx : Setting) : Expr × State → Expr × State → Prop where
  | part {e e' : Expr} {s t : State} : Starts env ctx e s e' t → Calls env ctx (e', t) (e, s)
  | body {id : RuleId} {body : Expr} {s : State} : (env id).body = some body →
      s.depth < ctx.maxDepth → Calls env ctx (body, { s with depth := s.depth + 1 }) (.rule id, s)

namespace Built

variable {e e' : Expr} {s s' t : State} {d : Nat}

theorem operand (h : Built ok refs e) (he : e' ∈ e.operands) : Built ok refs e' := by
  cases h with
  | seq h => exact h e' he
  | choice h => exact h e' he
  | plus h =>
    simp only [operands, List.mem_cons, List.not_mem_nil, or_false] at he
    rcases he with rfl | rfl
    · exact h
    · exact .star h
  | primitive _ => cases he
  | rule _ => cases he
  | star h => exact List.mem_singleton.mp he ▸ h
  | opt h => exact List.mem_singleton.mp he ▸ h
  | ahead h => exact List.mem_singleton.mp he ▸ h
  | notAhead h => exact List.mem_singleton.mp he ▸ h
  | expect h => exact List.mem_singleton.mp he ▸ h
  | traced h => exact List.mem_singleton.mp he ▸ h

theorem starts_operand (h : Starts env ctx e s e' t) (he : Built ok refs e) : e' ∈ e.operands := by
  induction h with
  | seqHead => simp [operands]
  | seqNext _ _ _ ih =>
    rw [seq_iff] at he
    exact List.mem_cons_of_mem _ (ih (.seq fun e h => he e (by simp [h])))
  | choiceHead => simp [operands]
  | choiceNext _ _ _ ih =>
    rw [choice_iff] at he
    exact List.mem_cons_of_mem _ (ih (.choice fun e h => he e (by simp [h])))
  | starHead => simp [operands]
  | starNext _ _ _ _ ih => exact ih he
  | plusHead => simp [operands]
  | plusNext _ _ _ => simp [operands]
  | opt => simp [operands]
  | ahead => simp [operands]
  | notAhead => simp [operands]
  | expect => simp [operands]
  | traced => simp [operands]
  | block _ => cases he
  | look _ _ => cases he
  | moveTo _ _ => cases he
  | runHead => cases he
  | runNext _ _ _ => cases he

/-- No run of the library is without end, and every one moves on inside the source. -/
theorem behaves (h : Built ok refs e) (hb : env.Built ok refs) (ctx : Setting) (d : Nat) :
    (e.parser env).Behaves ctx d .tidy (· ≠ .diverged) := by
  have reserved : ∀ matcher (pos : Int) f, ok matcher → 0 ≤ pos → pos ≤ ctx.source.size →
      matcher.scan ctx.source pos = .error f → f ≠ .diverged := by
    rintro matcher pos f - - - hscan rfl
    cases Primitive.scan_not_reserved hscan
  exact h.moves hb reserved (fun _ _ _ => nofun) (fun _ _ => nofun) d

theorem returned_at {v : Value} (h : Built ok refs e) (hb : env.Built ok refs)
    (hs : s.At ctx.source d) (hr : e.parser env ctx s = .returned v s') :
    s'.At ctx.source d ∧ s.pos ≤ s'.pos := by
  have hm := h.behaves hb ctx d s hs
  rw [hr] at hm
  cases hm with
  | returned hs' hle _ => exact ⟨hs.depth_eq ▸ hs', hle⟩

theorem starts_at (h : Starts env ctx e s e' t) (he : Built ok refs e) (hb : env.Built ok refs)
    (hs : s.At ctx.source d) : t.At ctx.source d := by
  induction h with
  | seqNext hr _ _ ih =>
    rw [seq_iff] at he
    exact ih (.seq fun e h => he e (by simp [h])) ((he _ (by simp)).returned_at hb hs hr).1
  | choiceNext hr _ _ ih =>
    rw [choice_iff] at he
    exact ih (.choice fun e h => he e (by simp [h])) ((he _ (by simp)).returned_at hb hs hr).1
  | starNext hr _ _ _ ih => exact ih he ((star_iff.mp he).returned_at hb hs hr).1
  | plusNext hr _ _ => exact ((plus_iff.mp he).returned_at hb hs hr).1
  | block _ => cases he
  | look _ _ => cases he
  | moveTo _ _ => cases he
  | runNext _ _ _ => cases he
  | _ => exact hs

theorem within_at {k : Nat} (h : Within env ctx k e s e' t) (he : Built ok refs e)
    (hb : env.Built ok refs) (hs : s.At ctx.source d) :
    Built ok refs e' ∧ t.At ctx.source (d + k) := by
  induction h generalizing d with
  | self => exact ⟨he, hs⟩
  | part hstart _ ih => exact ih (he.operand (starts_operand hstart he)) (starts_at hstart he hb hs)
  | body hbody _ _ ih =>
    have hrest := ih (hb _ _ hbody)
      (d := d + 1) ⟨hs.nonneg, hs.le_size, by simp only [hs.depth_eq]⟩
    rwa [Nat.add_assoc, Nat.add_comm 1] at hrest

/-- A call leads to shallower expressions, or to a rule one level deeper. -/
theorem acc_calls (hb : env.Built ok refs) : ∀ d e, Built ok refs e → ∀ s, s.depth = d →
    Acc (Calls env ctx) (e, s) := by
  intro d
  induction hn : ctx.maxDepth - d using Nat.strongRecOn generalizing d with
  | ind n ih =>
    have step : ∀ e, Built ok refs e → (∀ e' ∈ e.operands, ∀ s, s.depth = d →
        Acc (Calls env ctx) (e', s)) → ∀ s, s.depth = d → Acc (Calls env ctx) (e, s) := by
      intro e he hparts s hs
      refine .intro _ fun y hy => ?_
      cases hy with
      | part hstart => exact hparts _ (starts_operand hstart he) _ (hstart.depth_eq.trans hs)
      | body hbody hlt => exact ih _ (by omega) (d + 1) rfl _ (hb _ _ hbody) _ (by simp only [hs])
    intro e he
    induction he with
    | primitive h => exact step _ (.primitive h) nofun
    | seq h hparts => exact step _ (.seq h) hparts
    | choice h hparts => exact step _ (.choice h) hparts
    | star h hbody => exact step _ (.star h) (by simpa [operands] using hbody)
    | plus h hbody =>
      have hstar := step _ (.star h) (by simpa [operands] using hbody)
      exact step _ (.plus h) (by simpa [operands] using ⟨hbody, hstar⟩)
    | opt h hbody => exact step _ (.opt h) (by simpa [operands] using hbody)
    | ahead h hbody => exact step _ (.ahead h) (by simpa [operands] using hbody)
    | notAhead h hbody => exact step _ (.notAhead h) (by simpa [operands] using hbody)
    | expect h hbody => exact step _ (.expect h) (by simpa [operands] using hbody)
    | traced h hbody => exact step _ (.traced h) (by simpa [operands] using hbody)
    | rule h => exact step _ (.rule h) nofun

theorem rounds_bound (h : Built ok refs e) (hb : env.Built ok refs) (hs : s.At ctx.source d) :
    (∃ n r, (e.parser env).Rounds ctx s n r) ∧
      ∀ n r, (e.parser env).Rounds ctx s n r → (n : Int) ≤ ctx.source.size - s.pos + 1 := by
  obtain ⟨n, r, hn, hrounds, _⟩ := (h.behaves hb ctx d).onward.exists_rounds s hs
  refine ⟨⟨n, r, hrounds⟩, fun m q hm => ?_⟩
  rw [(hm.unique hrounds).1]
  have hle := hs.le_size
  simp only [Source.remaining] at hn
  omega

end Built

end Expr

/-- A run without hand-written parts ends, no chain of calls in it is infinite, and a repetition in it runs its
body at most once for each element left, and once more. -/
theorem every_run_ends (env : Environment) (e : Expr) (ctx : Setting) (s : State) (hb : env.Plain)
    (he : e.Plain) (h0 : 0 ≤ s.pos) (h1 : s.pos ≤ ctx.source.size) :
    ((∃ v s', e.parser env ctx s = .returned v s') ∨
      ∃ f s', e.parser env ctx s = .raised f s' ∧ f ≠ .diverged) ∧
    Acc (Expr.Calls env ctx) (e, s) ∧
    (∀ k body t, e.Within env ctx k s (.star body) t →
      (∃ n r, (body.parser env).Rounds ctx t n r) ∧
      ∀ n r, (body.parser env).Rounds ctx t n r → (n : Int) ≤ ctx.source.size - t.pos + 1) ∧
    (∀ (qt : Quoting) quote left pos, ctx.source.remaining pos ≤ left →
      qt.closeFrom ctx.source quote left pos =
        qt.closeFrom ctx.source quote (ctx.source.remaining pos) pos) := by
  have hs : s.At ctx.source s.depth := ⟨h0, h1, rfl⟩
  refine ⟨?_, Expr.Built.acc_calls hb _ e he s rfl, ?_, ?_⟩
  · have hm := he.behaves hb ctx s.depth s hs
    generalize e.parser env ctx s = r at hm
    cases hm with
    | returned _ _ _ => exact .inl ⟨_, _, rfl⟩
    | raised hf => exact .inr ⟨_, _, rfl, hf⟩
  · intro k body t h
    obtain ⟨hbody, ht⟩ := Expr.Built.within_at h he hb hs
    exact (Expr.Built.star_iff.mp hbody).rounds_bound hb ht
  · intro qt quote left pos hle
    exact Quoting.closeFrom_eq left _ pos hle (Nat.le_refl _)

def circularRules : Environment
  | .loose 0 => ⟨some "a", some (.seq [.star (.star (.opt (.primitive .any))), .rule (.loose 1)])⟩
  | _ => ⟨some "b", some (.choice [.rule (.loose 0), .star (.notAhead (.primitive .any))])⟩

theorem plain_circularRules : circularRules.Plain := by
  intro id body hb
  unfold circularRules at hb
  split at hb <;> cases hb <;> simp

theorem every_run_ends_circular :
    let e : Expr := .rule (.loose 0)
    let ctx : Setting := ⟨.text #['x', 'y'], 3⟩
    let s : State := ⟨0, 0, [], #[]⟩
    let body : Expr := .star (.opt (.primitive .any))
    circularRules.Plain ∧ e.Plain ∧ (0 ≤ s.pos ∧ s.pos ≤ ctx.source.size) ∧
    ((∃ v s', e.parser circularRules ctx s = .returned v s') ∨
      ∃ f s', e.parser circularRules ctx s = .raised f s' ∧ f ≠ .diverged) ∧
    ∀ n r, (body.parser circularRules).Rounds ctx { s with depth := 1 } n r → (n : Int) ≤ 3 := by
  intro e ctx s body
  have he : e.Plain := .rule trivial
  have h := every_run_ends circularRules e ctx s plain_circularRules he (by decide) (by decide)
  refine ⟨plain_circularRules, he, ⟨by decide, by decide⟩, h.1, fun n r hr => ?_⟩
  exact (h.2.2.1 1 _ _ (.body rfl (by decide) (.part .seqHead .self))).2 n r hr

end PegMatcher
