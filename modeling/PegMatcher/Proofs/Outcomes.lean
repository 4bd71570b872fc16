import PegMatcher.Expr
import PegMatcher.Proofs.Motion

/-!
# Outcomes of operators

What an operator tells of a place follows from what its operands tell: whether it matches, and then where
its match ends. A failure gives the position back, so an outcome needs no more than the place that a run
starts from.
-/

namespace PegMatcher

set_option autoImplicit false

/-- Whether an expression matches, and then where its match ends. -/
inductive Outcome where
  | ok (stop : Nat)
  | fail
deriving DecidableEq

/-- A reply from `s` that tells an outcome: it matches up to the stop, or it fails and stays. -/
inductive Reply.Tells (src : Source) (s : State) : Outcome → Reply → Prop where
  | ok {v : Value} {s' : State} {q : Nat} : v.truthy = true → s'.At src s.depth → s'.pos = q →
      Tells src s (.ok q) (.returned v s')
  | fail {v : Value} {s' : State} : v.truthy = false → s'.At src s.depth → s'.pos = s.pos →
      Tells src s .fail (.returned v s')

variable {src : Source} {ctx : Setting} {s : State} {o : Outcome} {q : Nat}

namespace Reply

theorem Tells.of_truthy {v : Value} {s' : State} (h : (returned v s').Tells src s o)
    (hv : v.truthy = true) : ∃ q : Nat, o = .ok q ∧ s'.At src s.depth ∧ s'.pos = q := by
  cases h with
  | ok _ hs hq => exact ⟨_, rfl, hs, hq⟩
  | fail hf _ _ =>
    rw [hv] at hf
    cases hf

theorem Tells.of_falsy {v : Value} {s' : State} (h : (returned v s').Tells src s o)
    (hv : v.truthy = false) : o = .fail ∧ s'.At src s.depth ∧ s'.pos = s.pos := by
  cases h with
  | ok ht _ _ =>
    rw [hv] at ht
    cases ht
  | fail _ hs hp => exact ⟨rfl, hs, hp⟩

theorem Tells.unique {r : Reply} {o' : Outcome} (h : r.Tells src s o) (h' : r.Tells src s o') :
    o = o' := by
  cases h with
  | ok hv _ hq =>
    obtain ⟨q', rfl, _, hq'⟩ := h'.of_truthy hv
    rw [Int.ofNat.inj (hq.symm.trans hq')]
  | fail hv _ _ => exact (h'.of_falsy hv).1.symm

theorem Tells.of_stayed {r : Reply} {s' : State} (h : r.Tells src s' o) (hs : s'.At src s.depth)
    (hp : s'.pos = s.pos) : r.Tells src s o := by
  cases h with
  | ok hv hs' hq => exact .ok hv (hs.depth_eq ▸ hs') hq
  | fail hv hs' he => exact .fail hv (hs.depth_eq ▸ hs') (he.trans hp)

end Reply

/-- The reply of a test of the element at a position: it takes the element if that passes, and stays if not. -/
def State.taking (s : State) (passes : Bool) : Reply :=
  .returned (.bool passes) (if passes then s.moveTo (s.pos + 1) else s)

namespace Parser

open Reply

variable {p : Parser} {ps : List Parser}

/-- A primitive that tests one element finds it there, or finds nothing to test at the end. -/
theorem ofPrimitive_test {m : Primitive} {test : Value → Bool} {k : Nat}
    (hscan : ∀ src pos, m.scan src pos = Primitive.step (fun x => .ok (test x)) src pos) (hk : s.pos = k) :
    ofPrimitive m ctx s = s.taking (ctx.source.elements[k]?.any test) := by
  rw [ofPrimitive, hscan, hk]
  cases hx : ctx.source.elements[k]? with
  | none =>
    rw [Primitive.step_of_none hx]
    rfl
  | some x =>
    rw [Primitive.step_of_some hx]
    cases ht : test x with
    | false => simp [State.taking, Except.map, ht]
    | true => simp [State.taking, Except.map, ht, hk]

theorem seq_cons (p : Parser) (ps : List Parser) (ctx : Setting) (s : State) :
    seq (p :: ps) ctx s =
      match p ctx s with
      | .returned v s' =>
        if v.truthy then
          match seq ps ctx s' with
          | .returned v' t => .returned v' (if v'.truthy then t else t.moveTo s.pos)
          | .raised f t => .raised f t
        else .returned (.bool false) (s'.moveTo s.pos)
      | .raised f s' => .raised f s' := by
  simp only [seq, guarded, all]
  cases p ctx s with
  | raised f s' => rfl
  | returned v s' =>
    cases hv : v.truthy with
    | false => simp [hv]
    | true =>
      simp only [hv, if_true]
      cases all ps ctx s' with
      | raised f t => rfl
      | returned v' t => cases hv' : v'.truthy <;> simp [hv', State.moveTo]

theorem seq_pair (p q : Parser) (ctx : Setting) (s : State) :
    seq [p, q] ctx s =
      match p ctx s with
      | .returned v s' =>
        if v.truthy then
          match q ctx s' with
          | .returned w t => .returned (.bool w.truthy) (if w.truthy then t else t.moveTo s.pos)
          | .raised f t => .raised f t
        else .returned (.bool false) (s'.moveTo s.pos)
      | .raised f s' => .raised f s' := by
  simp only [seq, guarded, all]
  cases p ctx s with
  | raised f s' => rfl
  | returned v s' =>
    cases hv : v.truthy with
    | false => simp [hv]
    | true =>
      simp only [hv, if_true]
      cases q ctx s' with
      | raised f t => rfl
      | returned w t => cases hw : w.truthy <;> simp [hw]

theorem choice_pair (p q : Parser) (ctx : Setting) (s : State) :
    choice [p, q] ctx s =
      match p ctx s with
      | .returned v s' =>
        if v.truthy then .returned (.bool true) s'
        else
          match q ctx s' with
          | .returned w t => .returned (.bool w.truthy) t
          | .raised f t => .raised f t
      | .raised f s' => .raised f s' := by
  simp only [choice]
  cases p ctx s with
  | raised f s' => rfl
  | returned v s' =>
    cases hv : v.truthy with
    | true => simp [hv]
    | false =>
      simp only [hv, Bool.false_eq_true, if_false]
      cases q ctx s' with
      | raised f t => rfl
      | returned w t => cases hw : w.truthy <;> simp [hw]

theorem tells_seq_fail (hs : s.At src s.depth) (h : (p ctx s).Tells src s .fail) :
    (seq (p :: ps) ctx s).Tells src s .fail := by
  rw [seq_cons]
  generalize p ctx s = r at h ⊢
  cases h with
  | fail hv hs' _ =>
    simp only [hv, Bool.false_eq_true, if_false]
    exact .fail rfl (hs'.moveTo hs.nonneg hs.le_size) rfl

theorem tells_seq_next (hs : s.At src s.depth) (h : (p ctx s).Tells src s (.ok q))
    (hrest : ∀ s' : State, s'.At src s.depth → s'.pos = q → (seq ps ctx s').Tells src s' o) :
    (seq (p :: ps) ctx s).Tells src s o := by
  rw [seq_cons]
  generalize p ctx s = r at h ⊢
  cases h with
  | @ok v s' _ hv hs' hq =>
    have ht := hrest s' hs' hq
    simp only [hv, if_true]
    generalize seq ps ctx s' = r at ht ⊢
    cases ht with
    | ok hv' hs'' hq' =>
      simp only [hv', if_true]
      exact .ok hv' (hs'.depth_eq ▸ hs'') hq'
    | fail hv' hs'' _ =>
      simp only [hv', Bool.false_eq_true, if_false]
      rw [hs'.depth_eq] at hs''
      exact .fail hv' (hs''.moveTo hs.nonneg hs.le_size) rfl

theorem tells_choice_first (h : (p ctx s).Tells src s (.ok q)) :
    (choice (p :: ps) ctx s).Tells src s (.ok q) := by
  simp only [choice]
  generalize p ctx s = r at h ⊢
  cases h with
  | ok hv hs' hq =>
    simp only [hv, if_true]
    exact .ok rfl hs' hq

theorem tells_choice_next (h : (p ctx s).Tells src s .fail)
    (hrest : ∀ s' : State, s'.At src s.depth → s'.pos = s.pos →
      (choice ps ctx s').Tells src s' o) :
    (choice (p :: ps) ctx s).Tells src s o := by
  simp only [choice]
  generalize p ctx s = r at h ⊢
  cases h with
  | fail hv hs' hp =>
    simp only [hv, Bool.false_eq_true, if_false]
    exact (hrest _ hs' hp).of_stayed hs' hp

theorem tells_star_fail (hq : s.pos = q) (h : (p ctx s).Tells src s .fail) :
    (star p ctx s).Tells src s (.ok q) := by
  generalize hr : p ctx s = r at h
  cases h with
  | fail hv hs' hp =>
    rw [(Rounds.failed hr hv).star_eq]
    exact .ok rfl hs' (hp.trans hq)

theorem tells_star_stay (hq : s.pos = q) (h : (p ctx s).Tells src s (.ok q)) :
    (star p ctx s).Tells src s (.ok q) := by
  generalize hr : p ctx s = r at h
  cases h with
  | ok hv hs' hq' =>
    rw [(Rounds.stayed hr hv (hq'.trans hq.symm)).star_eq]
    exact .ok rfl hs' hq'

theorem tells_star_next (hq : s.pos ≠ q) (h : (p ctx s).Tells src s (.ok q))
    (hrest : ∀ s' : State, s'.At src s.depth → s'.pos = q → (star p ctx s').Tells src s' o) :
    (star p ctx s).Tells src s o := by
  generalize hr : p ctx s = r at h
  cases h with
  | @ok v s' _ hv hs' hq' =>
    have ht := hrest s' hs' hq'
    have hne : s'.pos ≠ s.pos := by rw [hq']; exact Ne.symm hq
    generalize hstar : star p ctx s' = r' at ht
    cases ht with
    | ok hv' hs'' hq'' =>
      rw [star_of_moved hr hv hne hstar]
      exact .ok hv' (hs'.depth_eq ▸ hs'') hq''
    | fail hv' _ _ =>
      rw [star_value_eq hstar] at hv'
      cases hv'

theorem tells_plus_fail (h : (p ctx s).Tells src s .fail) : (plus p ctx s).Tells src s .fail := by
  simp only [plus]
  generalize p ctx s = r at h ⊢
  cases h with
  | fail hv hs' hp =>
    simp only [hv, Bool.false_eq_true, if_false]
    exact .fail rfl hs' hp

theorem tells_plus_next (hs : s.At src s.depth) (h : (p ctx s).Tells src s (.ok q))
    (hrest : ∀ s' : State, s'.At src s.depth → s'.pos = q → (star p ctx s').Tells src s' o) :
    (plus p ctx s).Tells src s o := by
  by_cases hq : s.pos = q
  · obtain rfl := (hrest s hs hq).unique (tells_star_stay hq h)
    simp only [plus]
    generalize p ctx s = r at h ⊢
    cases h with
    | ok hv hs' hq' =>
      simp only [hv, hq', hq, if_true]
      exact .ok rfl hs' hq'
  · simp only [plus]
    generalize p ctx s = r at h ⊢
    cases h with
    | @ok v s' _ hv hs' hq' =>
      have ht := hrest s' hs' hq'
      simp only [hv, if_true, hq', Ne.symm hq, if_false]
      generalize hstar : star p ctx s' = r at ht ⊢
      cases ht with
      | ok _ hs'' hq'' => exact .ok rfl (hs'.depth_eq ▸ hs'') hq''
      | fail hv' _ _ =>
        rw [star_value_eq hstar] at hv'
        cases hv'

theorem tells_opt_fail (hq : s.pos = q) (h : (p ctx s).Tells src s .fail) :
    (opt p ctx s).Tells src s (.ok q) := by
  simp only [opt]
  generalize p ctx s = r at h ⊢
  cases h with
  | fail _ hs' hp => exact .ok rfl hs' (hp.trans hq)

theorem tells_opt_ok (h : (p ctx s).Tells src s (.ok q)) : (opt p ctx s).Tells src s (.ok q) := by
  simp only [opt]
  generalize p ctx s = r at h ⊢
  cases h with
  | ok _ hs' hq => exact .ok rfl hs' hq

theorem tells_ahead_fail (hs : s.At src s.depth) (h : (p ctx s).Tells src s .fail) :
    (ahead p ctx s).Tells src s .fail := by
  simp only [ahead]
  generalize p ctx s = r at h ⊢
  cases h with
  | fail hv hs' _ => exact .fail hv (hs'.moveTo hs.nonneg hs.le_size) rfl

theorem tells_ahead_ok {k : Nat} (hs : s.At src s.depth) (hk : s.pos = k)
    (h : (p ctx s).Tells src s (.ok q)) : (ahead p ctx s).Tells src s (.ok k) := by
  simp only [ahead]
  generalize p ctx s = r at h ⊢
  cases h with
  | ok hv hs' _ => exact .ok hv (hs'.moveTo hs.nonneg hs.le_size) hk

theorem tells_notAhead_fail {k : Nat} (hs : s.At src s.depth) (hk : s.pos = k)
    (h : (p ctx s).Tells src s .fail) : (notAhead p ctx s).Tells src s (.ok k) := by
  simp only [notAhead]
  generalize p ctx s = r at h ⊢
  cases h with
  | fail hv hs' _ => exact .ok (by simp [hv]) (hs'.moveTo hs.nonneg hs.le_size) hk

theorem tells_notAhead_ok (hs : s.At src s.depth) (h : (p ctx s).Tells src s (.ok q)) :
    (notAhead p ctx s).Tells src s .fail := by
  simp only [notAhead]
  generalize p ctx s = r at h ⊢
  cases h with
  | ok hv hs' _ => exact .fail (by simp [hv]) (hs'.moveTo hs.nonneg hs.le_size) rfl

theorem tells_expect (tracker label : String) (h : (p ctx s).Tells src s o) :
    (expect tracker label p ctx s).Tells src s o := by
  simp only [expect]
  generalize p ctx s = r at h ⊢
  cases h with
  | ok hv hs' hq =>
    simp only [hv, if_true]
    exact .ok rfl hs' hq
  | fail hv hs' hp =>
    simp only [hv, Bool.false_eq_true, if_false]
    exact .fail rfl ⟨hs'.nonneg, hs'.le_size, hs'.depth_eq⟩ hp

theorem tells_traced (tag : Value) (h : (p ctx s).Tells src s o) :
    (traced tag p ctx s).Tells src s o := by
  simp only [traced]
  generalize p ctx s = r at h ⊢
  cases h with
  | ok hv hs' hq => exact .ok hv ⟨hs'.nonneg, hs'.le_size, hs'.depth_eq⟩ hq
  | fail hv hs' hp => exact .fail hv ⟨hs'.nonneg, hs'.le_size, hs'.depth_eq⟩ hp

theorem tells_nested {name : Option String} (hlt : s.depth < ctx.maxDepth)
    (h : (p ctx { s with depth := s.depth + 1 }).Tells src { s with depth := s.depth + 1 } o) :
    (nested name p ctx s).Tells src s o := by
  simp only [nested, Nat.not_le.mpr hlt, if_false]
  generalize p ctx _ = r at h ⊢
  cases h with
  | ok hv hs' hq =>
    exact .ok hv ⟨hs'.nonneg, hs'.le_size, by simp only [hs'.depth_eq]; omega⟩ hq
  | fail hv hs' hp =>
    exact .fail hv ⟨hs'.nonneg, hs'.le_size, by simp only [hs'.depth_eq]; omega⟩ hp

end Parser

end PegMatcher
