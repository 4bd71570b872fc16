import PegMatcher.Parser

/-!
# Repetition, round by round

`Rounds p ctx s n r`: repeated from `s`, the parser `p` is run `n` times, and the repetition ends with
the reply `r`. There is no bound on the rounds, and a repetition without end has no derivation.
`Parser.star` replies what the rounds do, and its own fault where they do not end.
-/

namespace PegMatcher.Parser

set_option autoImplicit false

variable {p : Parser} {ctx : Setting} {s s' : State} {v : Value} {n m : Nat} {r q : Reply}

inductive Rounds (p : Parser) (ctx : Setting) : State → Nat → Reply → Prop where
  /-- The last round does not match. -/
  | failed {s s' : State} {v : Value} : p ctx s = .returned v s' → v.truthy = false →
      Rounds p ctx s 1 (.returned (.bool true) s')
  /-- The last round matches and stays where it is. -/
  | stayed {s s' : State} {v : Value} : p ctx s = .returned v s' → v.truthy = true →
      s'.pos = s.pos → Rounds p ctx s 1 (.returned (.bool true) s')
  | raised {s s' : State} {f : Fault} : p ctx s = .raised f s' →
      Rounds p ctx s 1 (.raised f s')
  | again {s s' : State} {v : Value} {n : Nat} {r : Reply} : p ctx s = .returned v s' →
      v.truthy = true → s'.pos ≠ s.pos → Rounds p ctx s' n r → Rounds p ctx s (n + 1) r

theorem repeated_of_moved (hp : p ctx s = .returned v s') (hv : v.truthy = true)
    (hne : s'.pos ≠ s.pos) : repeated p ctx s = repeated p ctx s' := by
  rw [repeated, hp]
  simp only [hv, hne, if_true, if_false]

theorem Rounds.repeated_eq (h : Rounds p ctx s n r) : repeated p ctx s = some r := by
  induction h with
  | failed hp hv =>
    rw [repeated, hp]
    simp [hv]
  | stayed hp hv he =>
    rw [repeated, hp]
    simp [hv, he]
  | raised hp => rw [repeated, hp]
  | again hp hv hne _ ih => rw [repeated_of_moved hp hv hne, ih]

/-- Only rounds that end have a reply. -/
theorem exists_rounds (h : repeated p ctx s = some r) : ∃ n, Rounds p ctx s n r := by
  refine repeated.partial_correctness p ctx (fun s r => ∃ n, Rounds p ctx s n r) ?_ s r h
  intro again ih s r h
  split at h
  · rename_i v s' hp
    split at h
    · rename_i hv
      split at h
      · rename_i he
        cases h
        exact ⟨1, .stayed hp hv he⟩
      · rename_i hne
        obtain ⟨n, hn⟩ := ih s' r h
        exact ⟨n + 1, .again hp hv hne hn⟩
    · rename_i hv
      cases h
      exact ⟨1, .failed hp (by simpa using hv)⟩
  · rename_i f s' hp
    cases h
    exact ⟨1, .raised hp⟩

theorem Rounds.star_eq (h : Rounds p ctx s n r) : star p ctx s = r := by
  simp [star, h.repeated_eq]

theorem star_of_repeated (h : repeated p ctx s = some r) : star p ctx s = r := by
  simp [star, h]

theorem star_of_endless (h : repeated p ctx s = none) :
    star p ctx s = .raised .diverged s := by
  simp [star, h]

theorem star_of_moved {t : State} {w : Value} (hp : p ctx s = .returned v s') (hv : v.truthy = true)
    (hne : s'.pos ≠ s.pos) (h : star p ctx s' = .returned w t) : star p ctx s = .returned w t := by
  cases hr : repeated p ctx s' with
  | none =>
    rw [star_of_endless hr] at h
    cases h
  | some r =>
    rw [star_of_repeated hr] at h
    rw [star_of_repeated ((repeated_of_moved hp hv hne).trans hr), h]

theorem star_behind_moved {t : State} {w : Value} (hp : p ctx s = .returned v s')
    (hv : v.truthy = true) (hne : s'.pos ≠ s.pos) (h : star p ctx s = .returned w t) :
    star p ctx s' = .returned w t := by
  have hsame := repeated_of_moved hp hv hne
  cases hr : repeated p ctx s' with
  | none =>
    rw [star_of_endless (hsame.trans hr)] at h
    cases h
  | some r =>
    rw [star_of_repeated (hsame.trans hr)] at h
    rw [star_of_repeated hr, h]

theorem star_raised_of_moved {t : State} {f : Fault} (hp : p ctx s = .returned v s')
    (hv : v.truthy = true) (hne : s'.pos ≠ s.pos) (h : star p ctx s' = .raised f t) :
    ∃ t', star p ctx s = .raised f t' := by
  have hsame := repeated_of_moved hp hv hne
  cases hr : repeated p ctx s' with
  | none =>
    rw [star_of_endless hr] at h
    cases h
    exact ⟨s, star_of_endless (hsame.trans hr)⟩
  | some r =>
    rw [star_of_repeated hr] at h
    exact ⟨t, by rw [star_of_repeated (hsame.trans hr), h]⟩

theorem Rounds.value_eq (h : Rounds p ctx s n (.returned v s')) : v = .bool true := by
  generalize hr : Reply.returned v s' = r at h
  induction h with
  | failed => exact (Reply.returned.inj hr).1
  | stayed => exact (Reply.returned.inj hr).1
  | raised => cases hr
  | again _ _ _ _ ih => exact ih hr

theorem star_value_eq (h : star p ctx s = .returned v s') : v = .bool true := by
  cases hr : repeated p ctx s with
  | none =>
    rw [star_of_endless hr] at h
    cases h
  | some r =>
    rw [star_of_repeated hr] at h
    obtain ⟨n, hn⟩ := exists_rounds hr
    exact (h ▸ hn).value_eq

/-- The parser and the state decide how many rounds there are. -/
theorem Rounds.unique (h : Rounds p ctx s n r) (h' : Rounds p ctx s m q) : n = m ∧ r = q := by
  refine ⟨?_, Option.some.inj (h.repeated_eq.symm.trans h'.repeated_eq)⟩
  induction h generalizing m with
  | failed hp hv =>
    cases h' <;> simp_all
  | stayed hp hv he =>
    cases h' <;> simp_all
  | raised hp =>
    cases h' <;> simp_all
  | again hp hv hne _ ih =>
    cases h' with
    | again hp' _ _ hr =>
      obtain ⟨rfl, rfl⟩ := Reply.returned.inj (hp.symm.trans hp')
      rw [ih hr]
    | _ => simp_all

end PegMatcher.Parser
