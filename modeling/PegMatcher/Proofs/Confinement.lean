import PegMatcher.Grammar
import PegMatcher.Proofs.Library
import PegMatcher.Proofs.Operations
import PegMatcher.Session.Blueprint

/-!
# Confined parsers

A parser is confined if its hand-written parts move the cursor only in the source, whatever the source
is. What operators, factories and grammars make of confined parsers is confined.
-/

namespace PegMatcher

set_option autoImplicit false

def Expr.Confined (e : Expr) : Prop := ∀ src, e.StaysIn src

namespace Expr

variable {src : Source} {S : Scope src} {e : Expr} {es : List Expr}

theorem allHeed_iff : AllHeed S es ↔ ∀ e ∈ es, e.Heeds S := by
  induction es with
  | nil => simp [AllHeed]
  | cons e es ih => simp [AllHeed, ih]

/-- What has no hand-written parts heeds every scope that admits its trackers. -/
theorem Built.heeds {ok : Primitive → Prop} {refs : RuleId → Prop} (h : e.Built ok refs)
    (htracker : ∀ tracker, S.tracker tracker) : e.Heeds S := by
  induction h with
  | primitive _ => trivial
  | seq _ ih => exact allHeed_iff.mpr ih
  | choice _ ih => exact allHeed_iff.mpr ih
  | star _ ih => exact ih
  | plus _ ih => exact ih
  | opt _ ih => exact ih
  | ahead _ ih => exact ih
  | notAhead _ ih => exact ih
  | expect _ ih => exact ⟨htracker _, ih⟩
  | traced _ ih => exact ih
  | rule _ => trivial

theorem Built.confined {ok : Primitive → Prop} {refs : RuleId → Prop} (h : e.Built ok refs) :
    e.Confined := fun _ => h.heeds fun _ => trivial

theorem confined_primitive (m : Primitive) : (primitive m).Confined := fun _ => trivial

theorem confined_rule (id : RuleId) : (rule id).Confined := fun _ => trivial

theorem confined_seq (h : ∀ e ∈ es, e.Confined) : (seq es).Confined := fun src =>
  allHeed_iff.mpr fun e he => h e he src

theorem confined_choice (h : ∀ e ∈ es, e.Confined) : (choice es).Confined := fun src =>
  allHeed_iff.mpr fun e he => h e he src

theorem confined_star (h : e.Confined) : (star e).Confined := h

theorem confined_ofText (text : List Char) : (ofText text).Confined := by
  unfold ofText
  split
  · exact confined_primitive _
  · exact confined_primitive _

end Expr

def Operand.Confined : Operand → Prop
  | .parser e => e.Confined
  | .pattern _ => True
  | .value _ => True

namespace Operand

variable {p : Operand} {ps : List Operand} {e : Expr} {es : List Expr}

theorem Confined.convert (h : p.Confined) (hp : p.convert = .ok e) : e.Confined := by
  cases p with
  | parser e' =>
    cases hp
    exact h
  | pattern r =>
    cases hp
    exact Expr.confined_primitive _
  | value v =>
    cases v with
    | text chars =>
      cases hp
      exact Expr.confined_ofText chars
    | _ => cases hp

theorem confined_convertAll (h : ∀ p ∈ ps, p.Confined) :
    ∀ {es}, convertAll ps = .ok es → ∀ e ∈ es, e.Confined := by
  induction ps with
  | nil =>
    intro es hes
    cases hes
    exact nofun
  | cons p ps ih =>
    intro es hes
    rw [convertAll] at hes
    cases hp : p.convert with
    | error f =>
      rw [hp] at hes
      cases hes
    | ok e =>
      cases hps : convertAll ps with
      | error f =>
        rw [hp, hps] at hes
        cases hes
      | ok rest =>
        rw [hp, hps] at hes
        cases hes
        rw [List.forall_mem_cons] at h ⊢
        exact ⟨h.1.convert hp, ih h.2 hps⟩

theorem confined_joined (h : ∀ p ∈ ps, p.Confined) (hp : joined ps = .ok e) : e.Confined := by
  unfold joined at hp
  split at hp
  · cases hp
  · exact (h _ (by simp)).convert hp
  · cases hes : convertAll ps with
    | error f =>
      rw [hes] at hp
      cases hp
    | ok es =>
      rw [hes] at hp
      cases hp
      exact Expr.confined_seq (confined_convertAll h hes)

end Operand

theorem exists_of_map_ok {α β : Type} {x : Except Fault α} {f : α → β} {b : β} (h : x.map f = .ok b) :
    ∃ a, x = .ok a ∧ f a = b := by
  cases x with
  | error f => cases h
  | ok a => exact ⟨a, rfl, Except.ok.inj h⟩

theorem exists_of_bind_ok {α β : Type} {x : Except Fault α} {f : α → Except Fault β} {b : β}
    (h : x >>= f = .ok b) : ∃ a, x = .ok a ∧ f a = .ok b := by
  cases x with
  | error f => cases h
  | ok a => exact ⟨a, rfl, h⟩

theorem Combinator.confined_build {op : Combinator} {ps : List Operand} {e : Expr}
    (h : ∀ p ∈ ps, p.Confined) (he : op.build ps = .ok e) : e.Confined := by
  cases op with
  | seq =>
    obtain ⟨es, hes, rfl⟩ := exists_of_map_ok he
    exact Expr.confined_seq (Operand.confined_convertAll h hes)
  | choice =>
    obtain ⟨es, hes, rfl⟩ := exists_of_map_ok he
    exact Expr.confined_choice (Operand.confined_convertAll h hes)
  | star | plus | opt | ahead | notAhead =>
    obtain ⟨body, hbody, rfl⟩ := exists_of_map_ok he
    have hpart := Operand.confined_joined h hbody
    exact fun src => hpart src

theorem Factory.confined_literalRun {input : Input} {e : Expr} (h : literalRun input = .ok e) :
    e.Confined := by
  obtain ⟨vs, _, rfl⟩ := exists_of_map_ok h
  exact Expr.confined_primitive _

theorem Factory.confined_literalRuns {inputs : List Input} :
    ∀ {es}, inputs.mapM literalRun = .ok es → ∀ e ∈ es, e.Confined := by
  induction inputs with
  | nil =>
    intro es hes
    cases hes
    exact nofun
  | cons input inputs ih =>
    intro es hes
    rw [List.mapM_cons] at hes
    obtain ⟨e, he, hrest⟩ := exists_of_bind_ok hes
    obtain ⟨rest, hinputs, heq⟩ := exists_of_bind_ok hrest
    cases heq
    exact List.forall_mem_cons.mpr ⟨confined_literalRun he, ih hinputs⟩

theorem Factory.confined_literal {inputs : List Input} {e : Expr} (h : literal inputs = .ok e) :
    e.Confined := by
  unfold literal at h
  split at h
  · cases h
  · cases h
    exact Expr.confined_ofText _
  · exact confined_literalRun h
  · obtain ⟨es, hes, rfl⟩ := exists_of_map_ok h
    exact Expr.confined_choice (confined_literalRuns hes)

theorem Factory.confined_range {low high : Value} {e : Expr} (h : range low high = .ok e) :
    e.Confined := by
  obtain ⟨swapped, _, hrest⟩ := exists_of_bind_ok h
  split at hrest
  · cases hrest
  · cases hrest
    exact Expr.confined_primitive _

theorem Factory.confined_regex {pattern : Pattern} {flags : String} {e : Expr}
    (h : regex pattern flags = .ok e) : e.Confined := by
  unfold regex at h
  split at h
  · split at h
    · cases h
      exact Expr.confined_primitive _
    · cases h
  · split at h
    · cases h
      exact Expr.confined_primitive _
    · cases h

theorem Lexical.confined_delimited {item separator : Operand} {spaces : Bool} {e : Expr}
    (hi : item.Confined) (hs : separator.Confined) (h : delimited item separator spaces = .ok e) :
    e.Confined := by
  obtain ⟨es, hes, hrest⟩ := exists_of_bind_ok h
  obtain ⟨ei, hei, heq⟩ := exists_of_bind_ok hrest
  cases heq
  have hitem := hi.convert hei
  have hseparator := hs.convert hes
  have hspaced : (spaced es).Confined := by
    have hspaces : Lexical.spaces.Confined := (built_readyMade .spaces fun _ => True).confined
    apply Expr.confined_seq
    simp [hspaces, hseparator]
  have hbetween : (if spaces then spaced es else es).Confined := by
    split
    · exact hspaced
    · exact hseparator
  have hpair : (Expr.seq [if spaces then spaced es else es, ei]).Confined := by
    apply Expr.confined_seq
    simp [hbetween, hitem]
  apply Expr.confined_seq
  simp [hitem, Expr.confined_star hpair]

/-- What a rule is defined as is confined if the operand is. -/
theorem Operand.Confined.define {rule rule' : Rule} {p : Operand} (hp : p.Confined)
    (h : rule.define p = .ok rule') : ∀ e, rule'.body = some e → e.Confined := by
  unfold Rule.define at h
  split at h
  · cases h
  · obtain ⟨e, he, rfl⟩ := exists_of_map_ok h
    intro e' he'
    cases he'
    exact hp.convert he

theorem mem_of_lookup {α : Type} {table : List (String × α)} {name : String} {a : α}
    (h : table.lookup name = some a) : (name, a) ∈ table := by
  obtain ⟨before, behind, heq, _⟩ := List.lookup_eq_some_iff.mp h
  rw [heq]
  simp

def Grammar.Confined (g : Grammar) : Prop :=
  ∀ slot ∈ g.slots, ∀ body, slot.2 = some body → body.Confined

namespace Grammar

variable {g : Grammar} {name : String}

theorem confined_empty : empty.Confined := nofun

theorem Confined.body {e : Expr} (h : g.Confined) (hb : g.body? name = some e) : e.Confined := by
  have hslot : g.slots.lookup name = some (some e) := Option.join_eq_some_iff.mp hb
  exact h _ (mem_of_lookup hslot) e rfl

theorem Confined.mention (h : g.Confined) (name : String) : (g.mention name).Confined := by
  unfold Grammar.mention
  split
  · exact h
  · intro slot hslot body hb
    rcases List.mem_append.mp hslot with hold | hnew
    · exact h slot hold body hb
    · rw [List.mem_singleton] at hnew
      subst hnew
      cases hb

theorem Confined.assign (h : g.Confined) (name : String) {body : Expr} (hbody : body.Confined) :
    (g.assign name body).Confined := by
  intro slot hslot e he
  obtain ⟨old, hold, rfl⟩ := List.mem_map.mp hslot
  split at he
  · cases he
    exact hbody
  · exact h old hold e he

theorem Confined.define (h : g.Confined) (name : String) {p : Operand} (hp : p.Confined) :
    (g.define name p).2.Confined := by
  have hmention := h.mention name
  unfold Grammar.define
  dsimp only
  split
  · exact hmention
  · rename_i rule hrule
    split
    · rename_i e hb
      exact hmention.assign name (hp.define hrule e hb)
    · exact hmention

end Grammar

end PegMatcher
