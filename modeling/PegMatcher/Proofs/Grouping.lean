import PegMatcher.Proofs.Leaving
import PegMatcher.Proofs.Nesting
import PegMatcher.Proofs.Outcomes

/-!
# Grouping operands

Sequences and choices of arbitrary parsers, which may leave the cursor anywhere, answer any value, raise faults
or write to the trace. It makes no difference how their operands are grouped: what an inner sequence does to the
position when it fails, the outer one does over again. And both stop at the first operand that decides them, so
what stands behind it has no part in the run.
-/

namespace PegMatcher

set_option autoImplicit false

namespace Parser

variable {ctx : Setting} {p : Parser} {ps qs : List Parser} {s t u : State} {v : Value}

/-- Run one after another, all of the parsers answer, each with a match or each without. -/
inductive AllAnswer (ctx : Setting) (matched : Bool) : List Parser → State → State → Prop where
  | nil {s : State} : AllAnswer ctx matched [] s s
  | cons {p : Parser} {ps : List Parser} {v : Value} {s s' t : State} : p ctx s = .returned v s' →
      v.truthy = matched → AllAnswer ctx matched ps s' t → AllAnswer ctx matched (p :: ps) s t

theorem pos_of_seq (h : seq ps ctx s = .returned v t) (hv : v.truthy = false) : t.pos = s.pos := by
  simp only [seq, guarded] at h
  split at h
  · cases h
    simp only [hv, Bool.false_eq_true, if_false, State.moveTo]
  · cases h

theorem seq_seq_cons (bs cs : List Parser) : seq (seq bs :: cs) = seq (bs ++ cs) := by
  induction bs with
  | nil =>
    funext ctx s
    have hnil : seq [] ctx s = .returned (.bool true) s := rfl
    rw [seq_cons, hnil]
    cases hrest : seq cs ctx s with
    | raised f t => simp [hrest]
    | returned v t =>
      cases hv : v.truthy with
      | true => simp [hrest, hv]
      | false => simp [hrest, hv, ← pos_of_seq hrest hv]
  | cons b bs ih =>
    funext ctx s
    rw [seq_cons, seq_cons, List.cons_append, seq_cons, ← ih]
    cases b ctx s with
    | raised f t => rfl
    | returned v t =>
      cases hv : v.truthy with
      | false => simp [hv]
      | true =>
        simp only [hv, if_true, seq_cons]
        cases seq bs ctx t with
        | raised f u => rfl
        | returned w u =>
          cases hw : w.truthy with
          | false => simp [hw]
          | true =>
            simp only [hw, if_true]
            cases seq cs ctx u with
            | raised f u' => rfl
            | returned x u' => cases hx : x.truthy <;> simp [hx]

theorem seq_append_seq (as bs cs : List Parser) : seq (as ++ seq bs :: cs) = seq (as ++ bs ++ cs) := by
  induction as with
  | nil => exact seq_seq_cons bs cs
  | cons a as ih =>
    funext ctx s
    rw [List.cons_append, seq_cons, ih, List.cons_append, List.cons_append, seq_cons]

theorem AllAnswer.all_append (h : AllAnswer ctx true ps s t) (qs : List Parser) :
    all (ps ++ qs) ctx s = all qs ctx t := by
  induction h with
  | nil => rfl
  | cons hp hv _ ih => simp only [List.cons_append, all, hp, hv, if_true, ih]

theorem AllAnswer.seq_eq (h : AllAnswer ctx true ps s t) (hp : p ctx t = .returned v u)
    (hv : v.truthy = false) (qs : List Parser) :
    seq (ps ++ p :: qs) ctx s = .returned (.bool false) (u.moveTo s.pos) := by
  have hall : all (ps ++ p :: qs) ctx s = .returned (.bool false) u := by
    rw [h.all_append, all, hp]
    simp only [hv, Bool.false_eq_true, if_false]
  simp only [seq, guarded, hall, Value.truthy_bool, Bool.false_eq_true, if_false]

theorem choice_choice_cons (bs cs : List Parser) : choice (choice bs :: cs) = choice (bs ++ cs) := by
  induction bs with
  | nil => rfl
  | cons b bs ih =>
    funext ctx s
    have hrest := fun t => congrFun (congrFun ih ctx) t
    simp only [choice, List.cons_append] at hrest ⊢
    cases b ctx s with
    | raised f t => rfl
    | returned v t =>
      cases hv : v.truthy with
      | true => simp [hv]
      | false => simp only [hv, Bool.false_eq_true, if_false, hrest]

theorem choice_append_choice (as bs cs : List Parser) :
    choice (as ++ choice bs :: cs) = choice (as ++ bs ++ cs) := by
  induction as with
  | nil => exact choice_choice_cons bs cs
  | cons a as ih =>
    funext ctx s
    simp only [List.cons_append, choice, ih]

theorem AllAnswer.choice_append (h : AllAnswer ctx false ps s t) (qs : List Parser) :
    choice (ps ++ qs) ctx s = choice qs ctx t := by
  induction h with
  | nil => rfl
  | cons hp hv _ ih => simp only [List.cons_append, choice, hp, hv, Bool.false_eq_true, if_false, ih]

theorem AllAnswer.choice_eq (h : AllAnswer ctx false ps s t) (hp : p ctx t = .returned v u)
    (hv : v.truthy = true) (qs : List Parser) :
    choice (ps ++ p :: qs) ctx s = .returned (.bool true) u := by
  rw [h.choice_append, choice, hp]
  simp only [hv, if_true]

end Parser

/-- A sequence within a sequence, and a choice within a choice, may be replaced by its operands; and what stands
behind the first operand that decides has no part in the run. -/
theorem grouping_is_immaterial :
    (∀ as bs cs : List Parser, Parser.seq (as ++ .seq bs :: cs) = .seq (as ++ bs ++ cs) ∧
      Parser.choice (as ++ .choice bs :: cs) = .choice (as ++ bs ++ cs)) ∧
    (∀ (env : Environment) (as bs cs : List Expr),
      (Expr.seq (as ++ .seq bs :: cs)).parser env = (Expr.seq (as ++ bs ++ cs)).parser env ∧
      (Expr.choice (as ++ .choice bs :: cs)).parser env = (Expr.choice (as ++ bs ++ cs)).parser env) ∧
    (∀ ctx ps (p : Parser) s t v u, p ctx t = .returned v u →
      (Parser.AllAnswer ctx true ps s t → v.truthy = false → ∀ qs,
        Parser.seq (ps ++ p :: qs) ctx s = .returned (.bool false) (u.moveTo s.pos)) ∧
      (Parser.AllAnswer ctx false ps s t → v.truthy = true → ∀ qs,
        Parser.choice (ps ++ p :: qs) ctx s = .returned (.bool true) u)) ∧
    ∀ ctx ps s v t, Parser.seq ps ctx s = .returned v t → v.truthy = false → t.pos = s.pos := by
  refine ⟨fun as bs cs => ⟨?_, ?_⟩, fun env as bs cs => ⟨?_, ?_⟩,
    fun ctx ps p s t v u hp => ⟨fun h hv => ?_, fun h hv => ?_⟩, fun ctx ps s v t => ?_⟩
  · exact Parser.seq_append_seq as bs cs
  · exact Parser.choice_append_choice as bs cs
  · simp only [Expr.parser_seq, List.map_append, List.map_cons, Parser.seq_append_seq]
  · simp only [Expr.parser_choice, List.map_append, List.map_cons, Parser.choice_append_choice]
  · exact h.seq_eq hp hv
  · exact h.choice_eq hp hv
  · exact Parser.pos_of_seq

/-- Operands that answer numbers and move the cursor; the last one is never run, and would raise a fault. -/
theorem grouping_is_immaterial_unrun :
    let moving (n : Int) : Parser := fun _ s => .returned (.int n) (s.moveTo (s.pos + 1))
    let loud : Parser := .fault (.stated "unrun")
    let ctx : Setting := ⟨.text #['a', 'b'], 1⟩
    let s (pos : Int) : State := ⟨pos, 0, [], #[]⟩
    (moving 0 ctx (s 1) = .returned (.int 0) (s 2) ∧ Parser.AllAnswer ctx true [moving 7] (s 0) (s 1) ∧
      Parser.seq [moving 7, moving 0, loud] ctx (s 0) = .returned (.bool false) (s 0)) ∧
    (moving 7 ctx (s 1) = .returned (.int 7) (s 2) ∧ Parser.AllAnswer ctx false [moving 0] (s 0) (s 1) ∧
      Parser.choice [moving 0, moving 7, loud] ctx (s 0) = .returned (.bool true) (s 2)) ∧
    ∀ v t, Parser.seq [moving 7, moving 0] ctx (s 0) = .returned v t → v.truthy = false → t.pos = 0 := by
  intro moving loud ctx s
  obtain ⟨_, _, hdecided, hback⟩ := grouping_is_immaterial
  have hfirst : Parser.AllAnswer ctx true [moving 7] (s 0) (s 1) := .cons rfl rfl .nil
  have hfirst' : Parser.AllAnswer ctx false [moving 0] (s 0) (s 1) := .cons rfl rfl .nil
  refine ⟨⟨rfl, hfirst, ?_⟩, ⟨rfl, hfirst', ?_⟩, hback ctx _ (s 0)⟩
  · exact (hdecided ctx [moving 7] (moving 0) (s 0) (s 1) _ _ rfl).1 hfirst rfl [loud]
  · exact (hdecided ctx [moving 0] (moving 7) (s 0) (s 1) _ _ rfl).2 hfirst' rfl [loud]

end PegMatcher
