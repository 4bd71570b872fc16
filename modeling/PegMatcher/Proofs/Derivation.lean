import Mathlib.Logic.Relation
import PegMatcher.Proofs.Outcomes

/-!
# What expressions stand for

The meaning of expressions as a relation between places, without cursors, faults or depths that run out:
`Derives env src n e p o` says that `e` has the outcome `o` at the place `p`, by a derivation in which at
most `n` references to rules lie inside one another. Hand-written parts have no meaning here. Nor has a
primitive where it cannot be asked, such as a range where the element is incomparable with its bounds.
-/

namespace PegMatcher

set_option autoImplicit false

namespace Primitive

/-- At the first place a match begins that ends at the second. -/
inductive Ends (src : Source) : Primitive → Nat → Nat → Prop where
  | any {p : Nat} {x : Value} : src.elements[p]? = some x → Ends src .any p (p + 1)
  | endOfInput {p : Nat} : src.elements[p]? = none → Ends src .endOfInput p p
  | element {p : Nat} {v x : Value} : src.elements[p]? = some x → (x == v) = true →
      Ends src (.element v) p (p + 1)
  | literal {p : Nat} {vs : List Value} :
      (∀ i v, vs[i]? = some v → ∃ x, src.elements[p + i]? = some x ∧ (x == v) = true) →
      Ends src (.literal vs) p (p + vs.length)
  | range {p : Nat} {low high x : Value} : src.elements[p]? = some x →
      low.ordered .atMost x = .ok true → x.ordered .atMost high = .ok true →
      Ends src (.range low high) p (p + 1)
  | oneOf {p : Nat} {members : List Value} {v x : Value} : src.elements[p]? = some x →
      v ∈ members → (v == x) = true → Ends src (.oneOf members) p (p + 1)
  | regex {p q : Nat} {r : Regex} {chars : Array Char} : src = .text chars →
      r.matchFrom chars p = some q → Ends src (.regex r) p q
  | quoted {p q : Nat} {qt : Quoting} : qt.scan src p = .ok (some q) → Ends src (.quoted qt) p q

/-- A primitive can be asked at a place: what it compares is comparable, and only texts are read by patterns. -/
def Applies (src : Source) (p : Nat) : Primitive → Prop
  | .range low high => ∀ x, src.elements[p]? = some x →
      ∃ b, low.ordered .atMost x = .ok b ∧ (b = true → ∃ b', x.ordered .atMost high = .ok b')
  | .regex _ => ∃ chars, src = .text chars
  | .quoted qt => ∀ x, src.elements[p]? = some x → ∃ b, qt.opens x = .ok b
  | _ => True

end Primitive

namespace Expr

inductive Derives (env : Environment) (src : Source) : Nat → Expr → Nat → Outcome → Prop where
  | matched {n p q : Nat} {m : Primitive} : m.Ends src p q → Derives env src n (.primitive m) p (.ok q)
  | unmatched {n p : Nat} {m : Primitive} : m.Applies src p → (∀ q, ¬ m.Ends src p q) →
      Derives env src n (.primitive m) p .fail
  | seqNil {n p : Nat} : Derives env src n (.seq []) p (.ok p)
  | seqFail {n p : Nat} {e : Expr} {es : List Expr} : Derives env src n e p .fail →
      Derives env src n (.seq (e :: es)) p .fail
  | seqNext {n p q : Nat} {e : Expr} {es : List Expr} {o : Outcome} : Derives env src n e p (.ok q) →
      Derives env src n (.seq es) q o → Derives env src n (.seq (e :: es)) p o
  | choiceNil {n p : Nat} : Derives env src n (.choice []) p .fail
  | choiceFirst {n p q : Nat} {e : Expr} {es : List Expr} : Derives env src n e p (.ok q) →
      Derives env src n (.choice (e :: es)) p (.ok q)
  | choiceNext {n p : Nat} {e : Expr} {es : List Expr} {o : Outcome} : Derives env src n e p .fail →
      Derives env src n (.choice es) p o → Derives env src n (.choice (e :: es)) p o
  | starFail {n p : Nat} {e : Expr} : Derives env src n e p .fail →
      Derives env src n (.star e) p (.ok p)
  | starStay {n p : Nat} {e : Expr} : Derives env src n e p (.ok p) →
      Derives env src n (.star e) p (.ok p)
  | starNext {n p q : Nat} {e : Expr} {o : Outcome} : Derives env src n e p (.ok q) → p < q →
      Derives env src n (.star e) q o → Derives env src n (.star e) p o
  | plusFail {n p : Nat} {e : Expr} : Derives env src n e p .fail → Derives env src n (.plus e) p .fail
  | plusNext {n p q : Nat} {e : Expr} {o : Outcome} : Derives env src n e p (.ok q) →
      Derives env src n (.star e) q o → Derives env src n (.plus e) p o
  | optFail {n p : Nat} {e : Expr} : Derives env src n e p .fail → Derives env src n (.opt e) p (.ok p)
  | optOk {n p q : Nat} {e : Expr} : Derives env src n e p (.ok q) →
      Derives env src n (.opt e) p (.ok q)
  | aheadFail {n p : Nat} {e : Expr} : Derives env src n e p .fail →
      Derives env src n (.ahead e) p .fail
  | aheadOk {n p q : Nat} {e : Expr} : Derives env src n e p (.ok q) →
      Derives env src n (.ahead e) p (.ok p)
  | notAheadFail {n p : Nat} {e : Expr} : Derives env src n e p .fail →
      Derives env src n (.notAhead e) p (.ok p)
  | notAheadOk {n p q : Nat} {e : Expr} : Derives env src n e p (.ok q) →
      Derives env src n (.notAhead e) p .fail
  | expect {n p : Nat} {tracker label : String} {e : Expr} {o : Outcome} : Derives env src n e p o →
      Derives env src n (.expect tracker label e) p o
  | traced {n p : Nat} {tag : Value} {e : Expr} {o : Outcome} : Derives env src n e p o →
      Derives env src n (.traced tag e) p o
  | rule {n p : Nat} {id : RuleId} {body : Expr} {o : Outcome} : (env id).body = some body →
      Derives env src n body p o → Derives env src (n + 1) (.rule id) p o

end Expr

variable {src : Source} {p : Nat}

namespace Primitive

variable {m : Primitive} {q : Nat} {test : Value → Except Fault Bool} {next : Int}

theorem exists_of_step (h : step test src p = .ok (some next)) :
    ∃ x, src.elements[p]? = some x ∧ test x = .ok true ∧ next = (p + 1 : Nat) := by
  cases hx : src.elements[p]? with
  | none =>
    rw [step_of_none hx] at h
    cases h
  | some x =>
    rw [step_of_some hx] at h
    refine ⟨x, rfl, ?_⟩
    cases ht : test x with
    | error f =>
      rw [ht] at h
      cases h
    | ok b =>
      rw [ht] at h
      cases b with
      | false => cases h
      | true =>
        cases h
        exact ⟨rfl, rfl⟩

theorem literalFrom_of_spelt (vs : List Value) : ∀ p : Nat,
    (∀ i v, vs[i]? = some v → ∃ x, src.elements[p + i]? = some x ∧ (x == v) = true) →
    literalFrom src vs p = .ok (some ((p + vs.length : Nat) : Int)) := by
  induction vs with
  | nil =>
    intro p _
    rfl
  | cons v vs ih =>
    intro p h
    obtain ⟨x, hx, hv⟩ := h 0 v rfl
    rw [Nat.add_zero] at hx
    have hrest := ih (p + 1) fun i w hw => by
      have hi := h (i + 1) w hw
      rwa [show p + (i + 1) = p + 1 + i by omega] at hi
    simp only [literalFrom, step_of_some hx, hv, Except.map, if_true, hrest, List.length_cons]
    rw [show p + 1 + vs.length = p + (vs.length + 1) by omega]

theorem spelt_of_literalFrom (vs : List Value) : ∀ p : Nat,
    literalFrom src vs p = .ok (some next) → next = (p + vs.length : Nat) ∧
      ∀ i v, vs[i]? = some v → ∃ x, src.elements[p + i]? = some x ∧ (x == v) = true := by
  induction vs with
  | nil =>
    intro p h
    cases h
    exact ⟨rfl, nofun⟩
  | cons v vs ih =>
    intro p h
    simp only [literalFrom] at h
    split at h
    · rename_i mid hmid
      obtain ⟨x, hx, hv, rfl⟩ := exists_of_step hmid
      obtain ⟨hnext, hrest⟩ := ih (p + 1) h
      refine ⟨by rw [hnext, List.length_cons]; omega, ?_⟩
      intro i w hw
      cases i with
      | zero =>
        cases hw
        exact ⟨x, hx, Except.ok.inj hv⟩
      | succ i =>
        rw [show p + (i + 1) = p + 1 + i by omega]
        exact hrest i w hw
    · rename_i hno
      exact absurd h (hno next)

theorem exists_ends (h : m.scan src p = .ok (some next)) : ∃ q : Nat, next = q ∧ m.Ends src p q := by
  cases m with
  | any =>
    simp only [scan] at h
    split at h
    · cases h
    · cases h
      have hp : p < src.elements.length := by
        rw [Source.length_elements]
        omega
      exact ⟨p + 1, rfl, .any (List.getElem?_eq_getElem hp)⟩
  | endOfInput =>
    simp only [scan] at h
    split at h
    · cases h
      refine ⟨p, rfl, .endOfInput ?_⟩
      rw [List.getElem?_eq_none_iff, Source.length_elements]
      omega
    · cases h
  | element v =>
    obtain ⟨x, hx, ht, rfl⟩ := exists_of_step h
    exact ⟨p + 1, rfl, .element hx (Except.ok.inj ht)⟩
  | literal vs =>
    obtain ⟨rfl, hs⟩ := spelt_of_literalFrom vs p h
    exact ⟨_, rfl, .literal hs⟩
  | range low high =>
    obtain ⟨x, hx, ht, rfl⟩ := exists_of_step h
    simp only [within] at ht
    split at ht
    · rename_i hlow
      exact ⟨p + 1, rfl, .range hx hlow ht⟩
    · rename_i hno
      exact absurd ht hno
  | oneOf members =>
    obtain ⟨x, hx, ht, rfl⟩ := exists_of_step h
    obtain ⟨v, hv, hvx⟩ := List.any_eq_true.mp (Except.ok.inj ht)
    exact ⟨p + 1, rfl, .oneOf hx hv hvx⟩
  | regex r =>
    cases src with
    | text chars =>
      simp only [scan, Except.ok.injEq, Option.map_eq_some_iff] at h
      obtain ⟨q, hq, rfl⟩ := h
      exact ⟨q, rfl, .regex rfl hq⟩
    | bytes _ => cases h
    | list _ => cases h
    | tuple _ => cases h
  | quoted qt =>
    have hb := Quoting.scan_bounds h
    obtain ⟨q, rfl⟩ := Int.eq_ofNat_of_zero_le (show 0 ≤ next by omega)
    exact ⟨q, rfl, .quoted h⟩

theorem Ends.scan_eq (h : m.Ends src p q) : m.scan src p = .ok (some (q : Int)) := by
  cases h with
  | any hx =>
    have hlt := (List.getElem?_eq_some_iff.mp hx).1
    rw [Source.length_elements] at hlt
    rw [scan, if_neg (by omega)]
    rfl
  | endOfInput hx =>
    rw [List.getElem?_eq_none_iff, Source.length_elements] at hx
    rw [scan, if_pos (by omega)]
  | element hx hv => simp only [scan, step_of_some hx, hv, Except.map, if_true]
  | literal h => exact literalFrom_of_spelt _ p h
  | range hx hlow hhigh => simp only [scan, step_of_some hx, within, hlow, hhigh, Except.map, if_true]
  | @oneOf p members v x hx hv hvx =>
    have hany : members.any (· == x) = true := List.any_eq_true.mpr ⟨v, hv, hvx⟩
    simp only [scan, step_of_some hx, hany, Except.map, if_true]
  | regex hsrc hq =>
    subst hsrc
    simp only [scan, hq, Option.map_some]
    rfl
  | quoted h => exact h

theorem exists_step_iff : (∃ o, step test src p = .ok o) ↔
    ∀ x, src.elements[p]? = some x → ∃ b, test x = .ok b := by
  cases hx : src.elements[p]? with
  | none => exact ⟨fun _ => nofun, fun _ => ⟨none, step_of_none hx⟩⟩
  | some x =>
    rw [step_of_some hx]
    cases ht : test x with
    | error f =>
      refine ⟨fun ⟨_, h⟩ => (nomatch h), fun h => ?_⟩
      obtain ⟨b, hb⟩ := h x rfl
      rw [ht] at hb
      cases hb
    | ok b =>
      refine ⟨fun _ y hy => ?_, fun _ => ⟨_, rfl⟩⟩
      cases hy
      exact ⟨b, ht⟩

theorem exists_within_iff {low high x : Value} : (∃ b, within low high x = .ok b) ↔
    ∃ b, low.ordered .atMost x = .ok b ∧ (b = true → ∃ b', x.ordered .atMost high = .ok b') := by
  unfold within
  cases hlow : low.ordered .atMost x with
  | error f => simp
  | ok b => cases b <;> simp

theorem exists_quoted_iff {qt : Quoting} : (∃ o, qt.scan src p = .ok o) ↔
    ∀ x, src.elements[p]? = some x → ∃ b, qt.opens x = .ok b := by
  unfold Quoting.scan
  cases hx : src.elements[p]? with
  | none =>
    rw [List.getElem?_eq_none_iff, Source.length_elements] at hx
    rw [if_pos (by omega)]
    exact ⟨fun _ => nofun, fun _ => ⟨none, rfl⟩⟩
  | some x =>
    have hlt := (List.getElem?_eq_some_iff.mp hx).1
    rw [Source.length_elements] at hlt
    rw [if_neg (by omega), Source.elementAt_eq hx]
    cases ho : qt.opens x with
    | error f => simp [ho]
    | ok b => cases b <;> simp [ho]

/-- Where a primitive applies is where it has an answer. -/
theorem applies_iff : m.Applies src p ↔ ∃ o, m.scan src p = .ok o := by
  cases m with
  | any => exact ⟨fun _ => ⟨_, rfl⟩, fun _ => trivial⟩
  | endOfInput => exact ⟨fun _ => ⟨_, rfl⟩, fun _ => trivial⟩
  | element v => exact ⟨fun _ => exists_step_iff.mpr fun _ _ => ⟨_, rfl⟩, fun _ => trivial⟩
  | literal vs => exact ⟨fun _ => exists_literalFrom (by omega) vs, fun _ => trivial⟩
  | range low high =>
    refine Iff.trans ?_ exists_step_iff.symm
    simp only [Applies, exists_within_iff]
  | oneOf members => exact ⟨fun _ => exists_step_iff.mpr fun _ _ => ⟨_, rfl⟩, fun _ => trivial⟩
  | regex r =>
    cases src with
    | text chars => exact ⟨fun _ => ⟨_, rfl⟩, fun _ => ⟨chars, rfl⟩⟩
    | bytes _ => exact ⟨fun ⟨_, h⟩ => (nomatch h), fun ⟨_, h⟩ => (nomatch h)⟩
    | list _ => exact ⟨fun ⟨_, h⟩ => (nomatch h), fun ⟨_, h⟩ => (nomatch h)⟩
    | tuple _ => exact ⟨fun ⟨_, h⟩ => (nomatch h), fun ⟨_, h⟩ => (nomatch h)⟩
  | quoted qt => exact exists_quoted_iff.symm

theorem scan_eq_none_iff : m.scan src p = .ok none ↔ m.Applies src p ∧ ∀ q, ¬ m.Ends src p q := by
  rw [applies_iff]
  constructor
  · intro h
    refine ⟨⟨none, h⟩, fun q hq => ?_⟩
    rw [hq.scan_eq] at h
    cases h
  · rintro ⟨⟨o, ho⟩, hno⟩
    cases o with
    | none => exact ho
    | some next =>
      obtain ⟨q, rfl, hq⟩ := exists_ends ho
      exact absurd hq (hno q)

theorem Ends.bounds {p : Nat} (h : m.Ends src p q) (hp : p ≤ src.size) : p ≤ q ∧ q ≤ src.size := by
  have hb := scan_bounds (Int.natCast_nonneg p) (Int.ofNat_le.mpr hp) h.scan_eq
  omega

end Primitive

namespace Expr

variable {env : Environment} {n : Nat} {e : Expr} {es : List Expr} {o : Outcome}

theorem Derives.bounds {q : Nat} (h : Derives env src n e p (.ok q)) (hp : p ≤ src.size) :
    p ≤ q ∧ q ≤ src.size := by
  generalize ho : Outcome.ok q = o at h
  induction h generalizing q with
  | matched hm =>
    cases ho
    exact hm.bounds hp
  | seqNext _ _ ih ih' | plusNext _ _ ih ih' | starNext _ _ _ ih ih' =>
    obtain ⟨hle, hsize⟩ := ih hp rfl
    obtain ⟨hle', hsize'⟩ := ih' hsize ho
    exact ⟨Nat.le_trans hle hle', hsize'⟩
  | seqNil | starFail | starStay | optFail | aheadOk | notAheadFail =>
    cases ho
    exact ⟨Nat.le_refl _, hp⟩
  | choiceFirst _ ih | choiceNext _ _ _ ih | optOk _ ih | expect _ ih | traced _ ih | rule _ _ ih =>
    exact ih hp ho
  | unmatched | seqFail | choiceNil | plusFail | aheadFail | notAheadOk => cases ho

theorem derives_seq_one_iff : Derives env src n (.seq [e]) p o ↔ Derives env src n e p o := by
  constructor
  · intro h
    cases h with
    | seqFail h => exact h
    | seqNext h hnil =>
      cases hnil
      exact h
  · intro h
    cases o with
    | ok q => exact .seqNext h .seqNil
    | fail => exact .seqFail h

theorem derives_seq_cons_iff : Derives env src n (.seq (e :: es)) p o ↔
    Derives env src n e p .fail ∧ o = .fail ∨
      ∃ q, Derives env src n e p (.ok q) ∧ Derives env src n (.seq es) q o := by
  constructor
  · intro h
    cases h with
    | seqFail h => exact .inl ⟨h, rfl⟩
    | seqNext h hes => exact .inr ⟨_, h, hes⟩
  · rintro (⟨h, rfl⟩ | ⟨q, h, hes⟩)
    · exact .seqFail h
    · exact .seqNext h hes

theorem derives_seq_pair_iff {a b : Expr} : Derives env src n (.seq [a, b]) p o ↔
    Derives env src n a p .fail ∧ o = .fail ∨ ∃ q, Derives env src n a p (.ok q) ∧ Derives env src n b q o := by
  rw [derives_seq_cons_iff]
  simp only [derives_seq_one_iff]

/-- A repetition is a chain of matches that go on, up to where its operand fails or stays. -/
theorem derives_star_iff : Derives env src n (.star e) p o ↔
    ∃ q, o = .ok q ∧ Relation.ReflTransGen (fun a b => Derives env src n e a (.ok b) ∧ a < b) p q ∧
      (Derives env src n e q .fail ∨ Derives env src n e q (.ok q)) := by
  constructor
  · intro h
    generalize he : Expr.star e = e' at h
    induction h with
    | starFail h =>
      cases he
      exact ⟨_, rfl, .refl, .inl h⟩
    | starStay h =>
      cases he
      exact ⟨_, rfl, .refl, .inr h⟩
    | starNext h hlt _ _ ih =>
      cases he
      obtain ⟨q, rfl, hchain, hlast⟩ := ih rfl
      exact ⟨q, rfl, .head ⟨h, hlt⟩ hchain, hlast⟩
    | _ => cases he
  · rintro ⟨q, rfl, hchain, hlast⟩
    induction hchain using Relation.ReflTransGen.head_induction_on with
    | refl =>
      rcases hlast with h | h
      · exact .starFail h
      · exact .starStay h
    | head h _ ih => exact .starNext h.1 h.2 ih

end Expr

end PegMatcher
