import PegMatcher.Operand
import PegMatcher.Proofs.Equality
import PegMatcher.Proofs.Grouping

/-!
# Literals and sets, element by element

A literal compares its values with one element after another and goes back by itself where one differs; a set
compares its values with one element, the other way round. So a literal is the sequence of its elements, and a
set the choice of its members where the position is not in front of the source. Since equality is symmetric and
transitive, the order of the members and their repetition make no difference.
-/

namespace PegMatcher

set_option autoImplicit false

variable {ctx : Setting} {s : State} {us vs : List Value}

theorem Primitive.scan_literal_one (v : Value) : (Primitive.literal [v]).scan = (Primitive.element v).scan := by
  funext src pos
  simp only [scan, literalFrom]
  split
  · rename_i hstep
    exact hstep.symm
  · rfl

namespace Parser

open Primitive

theorem ofPrimitive_literal_cons (v : Value) (vs : List Value) :
    ofPrimitive (.literal (v :: vs)) = seq [ofPrimitive (.element v), ofPrimitive (.literal vs)] := by
  funext ctx s
  rw [seq_pair]
  simp only [ofPrimitive, scan, literalFrom]
  cases hstep : step (fun x => .ok (x == v)) ctx.source s.pos with
  | error f => rfl
  | ok stop? =>
    cases stop? with
    | none => rfl
    | some next =>
      have hinside := step_inside hstep
      have hnext := step_bounds hstep
      obtain ⟨stop?, hrest⟩ : ∃ o, literalFrom ctx.source vs next = .ok o := exists_literalFrom (by omega) vs
      cases stop? with
      | none => simp [State.moveTo, hrest]
      | some stop => simp [State.moveTo, hrest]

theorem ofPrimitive_literal (vs : List Value) :
    ofPrimitive (.literal vs) = seq (vs.map fun v => ofPrimitive (.element v)) := by
  induction vs with
  | nil => rfl
  | cons v vs ih =>
    have hinner := seq_append_seq [ofPrimitive (.element v)] (vs.map fun v => ofPrimitive (.element v)) []
    rw [List.append_nil] at hinner
    rw [ofPrimitive_literal_cons, ih]
    exact hinner

theorem choice_ofPrimitive (m : Primitive) : choice [ofPrimitive m] = ofPrimitive m := by
  funext ctx s
  simp only [choice, ofPrimitive]
  cases m.scan ctx.source s.pos with
  | error f => rfl
  | ok stop? => cases stop? <;> rfl

theorem choice_taking {α : Type} {p : α → Parser} {test : α → Bool} (as : List α)
    (h : ∀ a ∈ as, p a ctx s = s.taking (test a)) : choice (as.map p) ctx s = s.taking (as.any test) := by
  induction as with
  | nil => rfl
  | cons a as ih =>
    have hrest := ih fun b hb => h b (List.mem_cons_of_mem a hb)
    rw [List.map_cons, choice, h a List.mem_cons_self, State.taking, List.any_cons]
    cases test a with
    | true => rfl
    | false => exact hrest

theorem ofPrimitive_oneOf (h0 : 0 ≤ s.pos) (vs : List Value) :
    ofPrimitive (.oneOf vs) ctx s = choice (vs.map fun v => ofPrimitive (.element v)) ctx s := by
  obtain ⟨k, hk⟩ := Int.eq_ofNat_of_zero_le h0
  have helement : ∀ v ∈ vs, ofPrimitive (.element v) ctx s =
      s.taking (ctx.source.elements[k]?.any (· == v)) := fun v _ => ofPrimitive_test (fun _ _ => rfl) hk
  rw [choice_taking vs helement, ofPrimitive_test (fun _ _ => rfl) hk]
  cases ctx.source.elements[k]? with
  | none =>
    have hnone : vs.any (fun _ => false) = false := List.any_eq_false.mpr fun _ _ => nofun
    simp only [Option.any_none, hnone]
  | some x => simp only [Option.any_some, BEq.comm (a := x)]

end Parser

/-- A value that adds nothing to some others in a set: it is one of them, or equals one. -/
def Value.RedundantIn (u : Value) (vs : List Value) : Prop := ∃ v ∈ vs, u = v ∨ (u == v) = true

theorem Value.RedundantIn.any_beq {u x : Value} (h : u.RedundantIn vs) (hx : (u == x) = true) :
    vs.any (· == x) = true := by
  obtain ⟨v, hv, rfl | huv⟩ := h
  · exact List.any_eq_true.mpr ⟨u, hv, hx⟩
  · exact List.any_eq_true.mpr ⟨v, hv, BEq.trans (BEq.symm huv) hx⟩

theorem Primitive.scan_oneOf_congr (hus : ∀ u ∈ us, u.RedundantIn vs) (hvs : ∀ v ∈ vs, v.RedundantIn us) :
    (oneOf us).scan = (oneOf vs).scan := by
  have htest : ∀ x, us.any (· == x) = vs.any (· == x) := by
    intro x
    rw [Bool.eq_iff_iff]
    constructor
    · intro h
      obtain ⟨u, hu, hx⟩ := List.any_eq_true.mp h
      exact (hus u hu).any_beq hx
    · intro h
      obtain ⟨v, hv, hx⟩ := List.any_eq_true.mp h
      exact (hvs v hv).any_beq hx
  funext src pos
  simp only [scan, htest]

/-- The expressions for single elements equal to some values. -/
def Expr.elements (vs : List Value) : List Expr := vs.map fun v => .primitive (.element v)

section Built

variable (env : Environment)

theorem Expr.map_parser_elements (vs : List Value) :
    (elements vs).map (parser env) = vs.map fun v => Parser.ofPrimitive (.element v) := by
  rw [elements, List.map_map]
  rfl

theorem Expr.parser_literal (vs : List Value) :
    (primitive (.literal vs)).parser env = (seq (elements vs)).parser env := by
  rw [parser_primitive, parser_seq, map_parser_elements, Parser.ofPrimitive_literal]

theorem Expr.parser_oneOf (vs : List Value) (h0 : 0 ≤ s.pos) :
    (primitive (.oneOf vs)).parser env ctx s = (choice (elements vs)).parser env ctx s := by
  rw [parser_primitive, parser_choice, map_parser_elements, Parser.ofPrimitive_oneOf h0]

theorem Expr.parser_ofText (chars : List Char) :
    (ofText chars).parser env = (primitive (.literal (chars.map Value.char))).parser env := by
  unfold ofText
  split
  · funext ctx s
    rw [parser_primitive, parser_primitive, List.map_cons, List.map_nil, Parser.ofPrimitive, Parser.ofPrimitive,
      Primitive.scan_literal_one]
  · rfl

namespace Factory

/-- What comes of building: a fault, or what the built expression does. -/
def built (e? : Except Fault Expr) : Except Fault Parser := e?.map (Expr.parser env)

theorem built_literalRun (w : Input) :
    built env (literalRun w) = built env (w.items.map fun vs => .seq (Expr.elements vs)) := by
  unfold literalRun
  cases w.items with
  | error f => rfl
  | ok vs => exact congrArg Except.ok (Expr.parser_literal env vs)

theorem built_literal_one (w : Input) : built env (literal [w]) = built env (literalRun w) := by
  unfold literal
  split
  · rename_i h
    cases h
  · rename_i chars h
    cases h
    exact congrArg Except.ok (Expr.parser_ofText env chars)
  · rename_i h
    cases h
    rfl
  · rename_i hone
    exact (hone w rfl).elim

theorem mapM_map {α β γ : Type} (f : α → Except Fault β) (g : β → γ) (as : List α) :
    (as.mapM f).map (List.map g) = as.mapM fun a => (f a).map g := by
  induction as with
  | nil => rfl
  | cons a as ih =>
    rw [List.mapM_cons, List.mapM_cons, ← ih]
    cases f a with
    | error e => rfl
    | ok b => cases as.mapM f <;> rfl

theorem built_choice (build : Input → Except Fault Expr) (ws : List Input) :
    built env ((ws.mapM build).map .choice) = (ws.mapM fun w => built env (build w)).map .choice := by
  simp only [built]
  rw [← mapM_map]
  cases ws.mapM build with
  | error f => rfl
  | ok es => exact congrArg Except.ok (Expr.parser_choice env es)

theorem built_choice_one (w : Input) :
    built env (([w].mapM literalRun).map .choice) = built env (literalRun w) := by
  rw [built_choice, List.mapM_cons, List.mapM_nil, literalRun]
  cases w.items with
  | error f => rfl
  | ok vs => exact congrArg Except.ok (Parser.choice_ofPrimitive (.literal vs))

theorem built_literal {ws : List Input} (hws : ws ≠ []) :
    built env (literal ws) = built env ((ws.mapM literalRun).map .choice) := by
  unfold literal
  split
  · exact absurd rfl hws
  · rename_i chars
    rw [built_choice_one, ← built_literal_one]
    rfl
  · rw [built_choice_one]
  · rfl

theorem built_literal_eq_choice {ws : List Input} (hws : ws ≠ []) :
    built env (literal ws) = built env ((ws.mapM fun w => literal [w]).map .choice) := by
  rw [built_literal env hws, built_choice, built_choice]
  simp only [built_literal_one]

theorem reply_of_built {e? e?' : Except Fault Expr} (h : built env e? = built env e?') (ctx : Setting) (s : State) :
    (e?.map fun e => e.parser env ctx s) = e?'.map fun e => e.parser env ctx s := by
  have hreply : ∀ e?, (e?.map fun e : Expr => e.parser env ctx s) = (built env e?).map fun p => p ctx s := by
    intro e?
    cases e? <;> rfl
  rw [hreply, hreply, h]

end Factory

end Built

/-- A literal runs as the sequence of its elements does, several literals as the choice of these, and a set as
the choice of its members, in whatever order and however often they stand. -/
theorem expansions_agree (env : Environment) (ctx : Setting) (s : State) (h0 : 0 ≤ s.pos) :
    let runs (e? : Except Fault Expr) : Except Fault Reply := e?.map fun e => e.parser env ctx s
    (∀ w : Input, runs (Factory.literal [w]) = runs (w.items.map fun vs => .seq (Expr.elements vs)) ∧
      runs (Factory.literalRun w) = runs (w.items.map fun vs => .seq (Expr.elements vs))) ∧
    (∀ ws : List Input, ws ≠ [] →
      runs (Factory.literal ws) = runs ((ws.mapM fun w => Factory.literal [w]).map .choice)) ∧
    (∀ w : Input, runs (Factory.oneOf w) = runs (w.items.map fun vs => .choice (Expr.elements vs))) ∧
    ∀ (w w' : Input) (us vs : List Value), w.items = .ok us → w'.items = .ok vs →
      (∀ u ∈ us, u.RedundantIn vs) → (∀ v ∈ vs, v.RedundantIn us) →
      runs (Factory.oneOf w) = runs (Factory.oneOf w') := by
  intro runs
  refine ⟨fun w => ⟨?_, ?_⟩, fun ws hws => ?_, fun w => ?_, fun w w' us vs hw hw' hus hvs => ?_⟩
  · have hbuilt := (Factory.built_literal_one env w).trans (Factory.built_literalRun env w)
    exact Factory.reply_of_built env hbuilt ctx s
  · exact Factory.reply_of_built env (Factory.built_literalRun env w) ctx s
  · exact Factory.reply_of_built env (Factory.built_literal_eq_choice env hws) ctx s
  · simp only [runs, Factory.oneOf]
    cases w.items with
    | error f => rfl
    | ok vs => exact congrArg Except.ok (Expr.parser_oneOf env vs h0)
  · simp only [runs, Factory.oneOf, hw, hw', Except.map, Expr.parser_primitive, Parser.ofPrimitive,
      Primitive.scan_oneOf_congr hus hvs]

/-- Truth equals the number one, on whichever side of the comparison it stands. -/
theorem expansions_agree_truth :
    let env : Environment := fun _ => {}
    let ctx : Setting := ⟨.list #[.int 1, .char 'a', .null], 1⟩
    let s : State := ⟨0, 0, [], #[]⟩
    let runs (e? : Except Fault Expr) : Except Fault Reply := e?.map fun e => e.parser env ctx s
    let letter : Input := .value (.text ['a'])
    let pair : Input := .value (.tuple [.bool true, .char 'a'])
    let us : List Value := [.bool true, .int 1, .bool true]
    let vs : List Value := [.int 1]
    (0 ≤ s.pos ∧ [letter, pair] ≠ [] ∧ (∀ u ∈ us, u.RedundantIn vs) ∧ (∀ v ∈ vs, v.RedundantIn us)) ∧
      runs (Factory.literal [letter]) = .ok (.returned (.bool false) s) ∧
      runs (Factory.literalRun pair) = .ok (.returned (.bool true) (s.moveTo 2)) ∧
      runs (Factory.literal [letter, pair]) = .ok (.returned (.bool true) (s.moveTo 2)) ∧
      runs (Factory.oneOf (.stream us)) = .ok (.returned (.bool true) (s.moveTo 1)) := by
  intro env ctx s runs letter pair us vs
  have hones : us.all (· == .int 1) = true := rfl
  have hus : ∀ u ∈ us, u.RedundantIn vs := fun u hu =>
    ⟨.int 1, List.mem_cons_self, .inr (List.all_eq_true.mp hones u hu)⟩
  have hvs : ∀ v ∈ vs, v.RedundantIn us := by
    intro v hv
    obtain rfl := List.mem_singleton.mp hv
    exact ⟨.int 1, List.mem_cons_of_mem _ List.mem_cons_self, .inl rfl⟩
  obtain ⟨hsequence, hchoice, _, hmembers⟩ := expansions_agree env ctx s (by decide)
  refine ⟨⟨by decide, nofun, hus, hvs⟩, (hsequence letter).1.trans rfl, (hsequence pair).2.trans rfl,
    (hchoice [letter, pair] nofun).trans rfl, ?_⟩
  exact (hmembers (.stream us) (.value (.list vs)) us vs rfl rfl hus hvs).trans rfl

end PegMatcher
