import PegMatcher.Proofs.SoundSessions

/-!
# Building in sound sessions

A blueprint stays in the source if its hand-written parsers move the cursor by its operations. Built in a
sound session, it makes a confined parser, and no cursor is touched.
-/

namespace PegMatcher

set_option autoImplicit false

namespace Blueprint

mutual

/-- The hand-written parsers in the description move the cursor by its operations. -/
def Stays : Blueprint → Prop
  | .value _ => True
  | .pattern _ => True
  | .ready e => e.Operated
  | .literal _ => True
  | .range _ _ => True
  | .oneOf _ => True
  | .regex _ _ => True
  | .quoted _ => True
  | .combine _ parts => AllStay parts
  | .delimited item none _ => Stays item
  | .delimited item (some separator) _ => Stays item ∧ Stays separator
  | .rule _ => True
  | .slot _ _ => True
  | .stored _ => True
  | .expect _ part _ => Stays part
  | .traced _ part => Stays part
  | .block actions => ActionsStay actions

def AllStay : List Blueprint → Prop
  | [] => True
  | b :: bs => Stays b ∧ AllStay bs

def ActionsStay : List (Action Blueprint) → Prop
  | [] => True
  | a :: as => ActionStays a ∧ ActionsStay as

def ActionStays : Action Blueprint → Prop
  | .need part => Stays part
  | .attempt part => Stays part
  | .sub body => ActionsStay body
  | .advance => True
  | .commit => True
  | .uncommit => True
  | .rollback => True
  | .rollbackUncommitted => True
  | .raise _ => True
  | .succeed => True
  | .fail => True
  | .give _ => True

end

end Blueprint

namespace Session

variable {touched : Nat → Prop} {s : Session}

theorem Sound.pushRule (hs : s.Sound) (name : Option String) (ruleNames : List (String × Nat)) :
    Sound { s with rules := s.rules.push ⟨name, none⟩, ruleNames } :=
  { hs with rules := Array.forall_mem_push.mpr ⟨nofun, hs.rules⟩ }

theorem Sound.pushGrammar {g : Grammar} (hs : s.Sound) (hg : g.Confined)
    (grammarNames : List (String × Nat)) :
    Sound { s with grammars := s.grammars.push g, grammarNames } :=
  { hs with grammars := Array.forall_mem_push.mpr ⟨hg, hs.grammars⟩ }

theorem Sound.grammarAt (hs : s.Sound) (index : Nat) : (s.grammarAt index).Confined := by
  unfold Session.grammarAt
  cases hg : s.grammars[index]? with
  | none => exact Grammar.confined_empty
  | some g => exact hs.grammars g (Array.mem_of_getElem? hg)

theorem goes_ruleIndex (name : String) (hs : s.Sound) :
    Goes touched (ruleIndex name) s fun _ _ => True := by
  apply goes_get_bind
  split
  · exact goes_pure hs trivial
  · apply Goes.returns
    exact goes_set (hs.pushRule _ _) (.of_same rfl rfl rfl)

theorem goes_addRule (key : String) (name : Option String) (hs : s.Sound) :
    Goes touched (addRule key name) s fun _ _ => True :=
  goes_modify (hs.pushRule _ _) (.of_same rfl rfl rfl)

theorem goes_note (notice : Notice) (hs : s.Sound) :
    Goes touched (Session.task (.note notice)) s fun _ _ => True :=
  (goes_task _ hs).mono fun _ _ _ => trivial

theorem goes_defineRule {body : Operand} (index : Nat) (hs : s.Sound) (hbody : body.Confined) :
    Goes touched (defineRule index body) s fun _ _ => True := by
  apply goes_get_bind
  dsimp only
  apply (goes_ofExcept _ hs).bind
  intro rule t ht _ hrule
  have hset : Sound { t with rules := t.rules.setIfInBounds index rule } := by
    refine { ht with rules := fun r hr => ?_ }
    rcases Array.mem_or_eq_of_mem_setIfInBounds hr with hr | rfl
    · exact ht.rules r hr
    · exact hbody.define hrule.1
  apply (goes_modify hset (.of_same rfl rfl rfl)).bind
  intro _ u hu _ _
  exact goes_note _ hu

theorem goes_grammarIndex (name : String) (hs : s.Sound) :
    Goes touched (grammarIndex name) s fun _ _ => True := by
  apply goes_get_bind
  split
  · exact goes_pure hs trivial
  · apply Goes.returns
    exact goes_set (hs.pushGrammar Grammar.confined_empty _) (.of_same rfl rfl rfl)

theorem goes_setGrammar {g : Grammar} (index : Nat) (hs : s.Sound) (hg : g.Confined) :
    Goes touched (setGrammar index g) s fun _ _ => True := by
  refine goes_modify { hs with grammars := fun g' hg' => ?_ } (.of_same rfl rfl rfl)
  rcases Array.mem_or_eq_of_mem_setIfInBounds hg' with hg' | rfl
  · exact hs.grammars g' hg'
  · exact hg

theorem goes_mentionSlot (index : Nat) (name : String) (hs : s.Sound) :
    Goes touched (mentionSlot index name) s fun _ _ => True :=
  goes_get_bind (goes_setGrammar index hs ((hs.grammarAt index).mention name))

theorem goes_defineSlot {body : Operand} (index : Nat) (name : String) (hs : s.Sound)
    (hbody : body.Confined) : Goes touched (defineSlot index name body) s fun _ _ => True := by
  apply goes_get_bind
  apply (goes_setGrammar index hs ((hs.grammarAt index).define name hbody)).bind
  intro _ t ht _ _
  apply (goes_ofExcept _ ht).bind
  intro _ u hu _ _
  exact goes_note _ hu

theorem goes_ready {e : Except Fault Expr} (hs : s.Sound) (h : ∀ x, e = .ok x → x.Confined) :
    Goes touched (Blueprint.ready? e) s fun p _ => p.Confined := by
  cases e with
  | error f => exact goes_raise f hs
  | ok x => exact goes_pure hs (h x rfl)

/-- What is made of a part that is built and then converted. -/
theorem Goes.converted {β : Type} {m : SessionM Operand} {f : Expr → β} {post : β → Prop}
    (h : Goes touched m s fun p _ => p.Confined) (hf : ∀ e, e.Confined → post (f e)) :
    Goes touched (do let p ← m; let e ← ofExcept p.convert; return f e) s fun b _ => post b := by
  apply h.bind
  intro p t ht _ hp
  apply (goes_ofExcept _ ht).bind
  intro e u hu _ he
  exact goes_pure hu (hf e (hp.convert he.1))

/-- A parser made of one part by an operator that keeps it confined. -/
theorem confined_map {p : Operand} {f : Expr → Expr} (hp : p.Confined)
    (hf : ∀ e, e.Confined → (f e).Confined) : ∀ x, p.convert.map f = .ok x → x.Confined := by
  intro x hx
  obtain ⟨e, he, rfl⟩ := exists_of_map_ok hx
  exact hf e (hp.convert he)

mutual

theorem goes_build : ∀ (b : Blueprint) {s : Session}, s.Sound → b.Stays →
    Goes touched b.build s fun p _ => p.Confined
  | .value v, s, hs, _ => goes_pure hs trivial
  | .pattern spec, s, hs, _ => by
    unfold Blueprint.build
    apply (goes_ofExcept _ hs).bind
    intro pattern t ht _ _
    cases pattern with
    | compiled r => exact goes_pure ht trivial
    | written text => exact goes_pure ht trivial
  | .ready e, s, hs, h => goes_pure hs h.staysIn
  | .literal inputs, s, hs, _ => goes_ready hs fun _ => Factory.confined_literal
  | .range low high, s, hs, _ => goes_ready hs fun _ => Factory.confined_range
  | .oneOf members, s, hs, _ => by
    refine goes_ready hs fun x hx => ?_
    obtain ⟨vs, _, rfl⟩ := exists_of_map_ok hx
    exact Expr.confined_primitive _
  | .regex spec flags, s, hs, _ => by
    unfold Blueprint.build
    apply (goes_ofExcept _ hs).bind
    intro pattern t ht _ _
    exact goes_ready ht fun _ => Factory.confined_regex
  | .quoted spec, s, hs, _ => by
    refine goes_ready hs fun x hx => ?_
    obtain ⟨quoting, _, rfl⟩ := exists_of_map_ok hx
    exact Expr.confined_primitive _
  | .combine op parts, s, hs, h => by
    unfold Blueprint.build
    apply (goes_buildAll parts hs h).bind
    intro ps t ht _ hps
    exact goes_ready ht fun _ => Combinator.confined_build hps
  | .delimited item none spaces, s, hs, h => by
    unfold Blueprint.build
    apply (goes_build item hs h).bind
    intro pi t ht _ hpi
    exact goes_ready ht fun _ => Lexical.confined_delimited hpi trivial
  | .delimited item (some separator) spaces, s, hs, h => by
    unfold Blueprint.build
    apply (goes_build item hs h.1).bind
    intro pi t ht _ hpi
    apply (goes_build separator ht h.2).bind
    intro ps u hu _ hps
    exact goes_ready hu fun _ => Lexical.confined_delimited hpi hps
  | .rule name, s, hs, _ => by
    unfold Blueprint.build
    apply (goes_ruleIndex name hs).bind
    intro index t ht _ _
    exact goes_pure ht (Expr.confined_rule _)
  | .slot grammar name, s, hs, _ => by
    unfold Blueprint.build
    apply (goes_grammarIndex grammar hs).bind
    intro index t ht _ _
    apply (goes_mentionSlot index name ht).bind
    intro _ u hu _ _
    exact goes_pure hu (Expr.confined_rule _)
  | .stored name, s, hs, _ => by
    unfold Blueprint.build
    apply goes_get_bind
    apply (goes_named s.parsers name hs).bind
    intro e t ht _ he
    exact goes_pure ht (hs.parsers _ (mem_of_lookup he.1))
  | .expect tracker part label, s, hs, h => by
    unfold Blueprint.build
    apply (goes_build part hs h).bind
    intro p t ht _ hp
    exact goes_ready ht (confined_map hp fun e he src => ⟨trivial, he src⟩)
  | .traced tag part, s, hs, h => by
    unfold Blueprint.build
    apply (goes_build part hs h).bind
    intro p t ht _ hp
    exact goes_ready ht (confined_map hp fun e he => he)
  | .block actions, s, hs, h => by
    unfold Blueprint.build
    apply (goes_buildActions actions hs h).bind
    intro as t ht _ has
    exact goes_pure ht has

theorem goes_buildAll : ∀ (bs : List Blueprint) {s : Session}, s.Sound → Blueprint.AllStay bs →
    Goes touched (Blueprint.buildAll bs) s fun ps _ => ∀ p ∈ ps, p.Confined
  | [], s, hs, _ => goes_pure hs nofun
  | b :: bs, s, hs, h => by
    unfold Blueprint.buildAll
    apply (goes_build b hs h.1).bind
    intro p t ht _ hp
    apply (goes_buildAll bs ht h.2).bind
    intro ps u hu _ hps
    exact goes_pure hu (List.forall_mem_cons.mpr ⟨hp, hps⟩)

theorem goes_buildActions : ∀ (as : List (Action Blueprint)) {s : Session}, s.Sound →
    Blueprint.ActionsStay as →
    Goes touched (Blueprint.buildActions as) s fun bs _ => ∀ src, Expr.ActionsHeed (.inside src) bs
  | [], s, hs, _ => goes_pure hs fun _ => trivial
  | a :: as, s, hs, h => by
    unfold Blueprint.buildActions
    apply (goes_buildAction a hs h.1).bind
    intro b t ht _ hb
    apply (goes_buildActions as ht h.2).bind
    intro bs u hu _ hbs
    exact goes_pure hu fun src => ⟨hb src, hbs src⟩

theorem goes_buildAction : ∀ (a : Action Blueprint) {s : Session}, s.Sound →
    Blueprint.ActionStays a →
    Goes touched (Blueprint.buildAction a) s fun b _ => ∀ src, Expr.ActionHeeds (.inside src) b
  | .need part, s, hs, h => by
    unfold Blueprint.buildAction
    exact (goes_build part hs h).converted fun e he => he
  | .attempt part, s, hs, h => by
    unfold Blueprint.buildAction
    exact (goes_build part hs h).converted fun e he => he
  | .sub body, s, hs, h => by
    unfold Blueprint.buildAction
    apply (goes_buildActions body hs h).bind
    intro bs t ht _ hbs
    exact goes_pure ht hbs
  | .advance, s, hs, _ => goes_pure hs fun _ => trivial
  | .commit, s, hs, _ => goes_pure hs fun _ => trivial
  | .uncommit, s, hs, _ => goes_pure hs fun _ => trivial
  | .rollback, s, hs, _ => goes_pure hs fun _ => trivial
  | .rollbackUncommitted, s, hs, _ => goes_pure hs fun _ => trivial
  | .raise _, s, hs, _ => goes_pure hs fun _ => trivial
  | .succeed, s, hs, _ => goes_pure hs fun _ => trivial
  | .fail, s, hs, _ => goes_pure hs fun _ => trivial
  | .give _, s, hs, _ => goes_pure hs fun _ => trivial

end

end Session

end PegMatcher
