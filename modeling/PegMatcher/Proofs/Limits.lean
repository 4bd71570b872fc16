import PegMatcher.Proofs.Nesting

/-!
# Raising the bound on nested rules

A run meets its bound only where a rule is refused, and no operator goes on behind a refusal: none takes
it for a failure. So under a higher bound a run repeats, step by step, what it did under the lower one
up to the first refusal, and all of it if there was none.
-/

namespace PegMatcher

set_option autoImplicit false

def Reply.IsRefused (r : Reply) : Prop := ∃ f s, r = .raised f s ∧ f.isDepthExceeded = true

namespace Likeness

variable {env : Environment} {src : Source} {low high d : Nat}

/-- Equal runs inside `d` rules under two bounds, compared up to a refusal under the first. -/
def bounds (src : Source) (low high d : Nat) : Likeness where
  left := ⟨src, low⟩
  right := ⟨src, high⟩
  shift := 0
  place _ := True
  states s t := s = t ∧ s.depth = d
  values := Eq
  excused f := f.isDepthExceeded = true
  pos_eq h := by rw [h.1, Int.add_zero]
  place_pos _ := trivial
  moveTo _ h := ⟨by rw [h.1, Int.add_zero], h.2⟩
  record _ _ h := ⟨by rw [h.1], h.2⟩
  observe _ _ _ ho h := by
    rw [h.1, Int.add_zero, Int.add_zero]
    cases ho with
    | some hv => exact ⟨by rw [hv], h.1 ▸ h.2⟩
    | none => exact ⟨rfl, h.1 ▸ h.2⟩
  refl := Eq.refl
  truthy_eq := @Value.truthy_congr

theorem whole_bounds : (bounds src low high d).Whole := ⟨rfl, rfl, fun _ => trivial⟩

theorem inside_bounds (hle : low ≤ high) :
    (bounds src low high d).Inside (bounds src low high (d + 1)) where
  left_eq := rfl
  right_eq := rfl
  values h := h
  excused h := h
  enter := by
    rintro s t ⟨rfl, hd⟩
    exact ⟨rfl, by rw [← hd]⟩
  leave := by
    rintro s t ⟨rfl, hd⟩
    refine ⟨rfl, ?_⟩
    simp only [hd]
    omega
  refused _ _ _ := .inl rfl
  admitted := by
    rintro s t ⟨rfl, _⟩ hmax
    exact Nat.le_trans hle hmax

theorem bounds_refused (hmax : low ≤ d) (name : Option String) (p q : Parser) :
    (bounds src low high d).Alike (.nested name p) q := by
  rintro s t ⟨rfl, hd⟩
  have hrun : Parser.nested name p ⟨src, low⟩ s = .raised (.depthExceeded low name) s := by
    have hs : low ≤ s.depth := by omega
    simp only [Parser.nested, hs, if_true]
  exact hrun ▸ .excused rfl

theorem bounds_invoke (src : Source) (hle : low ≤ high) (env : Environment) : ∀ d id,
    (bounds src low high d).Alike (invoke env (low - d) id) (invoke env (high - d) id) := by
  intro d
  induction hn : low - d generalizing d with
  | zero =>
    intro id
    cases hb : (env id).body with
    | none =>
      have hundefined : ∀ n, invoke env n id = .fault (.undefinedRule (env id).name) := by
        intro n
        cases n <;> simp only [invoke, Rule.parser, hb]
      rw [hundefined, hundefined]
      exact alike_fault _
    | some body =>
      simp only [invoke.eq_1, Rule.parser, hb]
      exact bounds_refused (by omega) _ _ _
  | succ n ih =>
    intro id
    obtain ⟨n', hn'⟩ : ∃ n', high - d = n' + 1 := ⟨high - d - 1, by omega⟩
    have hbody := ih (d + 1) (by omega)
    rw [show high - (d + 1) = n' by omega] at hbody
    rw [hn']
    exact (inside_bounds hle).rule (env id) fun body _ => alike_expr whole_bounds hbody body

theorem Replies.eq_of_bounds {r r' : Reply} (h : (bounds src low high d).Replies r r')
    (hr : ¬ r.IsRefused) : r' = r := by
  cases h with
  | returned hv hs => rw [hv, hs.1]
  | raised hs => rw [hs.1]
  | excused hf => exact absurd ⟨_, _, rfl, hf⟩ hr

end Likeness

/-- A run that is not refused for its depth under a bound is the same under every higher one. -/
theorem bound_transparent (env : Environment) (e : Expr) (src : Source) (s : State)
    {low high : Nat} (hle : low ≤ high) :
    (¬ (e.parser env ⟨src, low⟩ s).IsRefused →
      e.parser env ⟨src, high⟩ s = e.parser env ⟨src, low⟩ s) ∧
    ((e.parser env ⟨src, high⟩ s).IsRefused → (e.parser env ⟨src, low⟩ s).IsRefused) := by
  have hrun : (Likeness.bounds src low high s.depth).Replies
      (e.parser env ⟨src, low⟩ s) (e.parser env ⟨src, high⟩ s) := by
    have hrules := Likeness.bounds_invoke src hle env s.depth
    exact Likeness.alike_expr Likeness.whole_bounds hrules e s s ⟨rfl, rfl⟩
  have hsame := hrun.eq_of_bounds
  refine ⟨hsame, fun hhigh => ?_⟩
  by_contra hlow
  rw [hsame hlow] at hhigh
  exact hlow hhigh

def tailRules : Environment := fun _ =>
  ⟨some "tail", some (.choice [.seq [.primitive (.element (.char 't')), .rule (.loose 0)],
    .expect "t" "end" (.primitive .endOfInput)])⟩

/-- Two letters take three levels: with three or more the end is reached, with fewer no answer is. -/
theorem bound_transparent_tail :
    let run (maxDepth : Nat) : Reply :=
      (Expr.rule (.loose 0)).parser tailRules ⟨.text #['t', 't'], maxDepth⟩ ⟨0, 0, [], #[]⟩
    (3 ≤ 7 ∧ ¬ (run 3).IsRefused ∧ run 7 = run 3 ∧
      run 3 = .returned (.bool true) ⟨2, 0, [], #[]⟩) ∧
    (1 ≤ 2 ∧ (run 2).IsRefused ∧ (run 1).IsRefused) := by
  intro run
  have hthree : run 3 = .returned (.bool true) ⟨2, 0, [], #[]⟩ := rfl
  have hanswered : ¬ (run 3).IsRefused := by
    rintro ⟨f, s, hr, _⟩
    rw [hthree] at hr
    cases hr
  have htwo : (run 2).IsRefused := ⟨.depthExceeded 2 (some "tail"), ⟨0, 0, [], #[]⟩, rfl, rfl⟩
  refine ⟨⟨by decide, hanswered, ?_, hthree⟩, by decide, htwo, ?_⟩
  · exact (bound_transparent tailRules _ _ _ (by decide)).1 hanswered
  · exact (bound_transparent tailRules _ _ _ (by decide)).2 htwo

end PegMatcher
