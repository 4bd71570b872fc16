import Mathlib.Logic.Function.Basic
import PegMatcher.Proofs.Tables
import PegMatcher.Session.Command

/-!
# Definitions in sessions

What defining a rule makes of a session, be it a rule of its own or one of a grammar: the rules that a run
meets are those from before but for the one that is defined. Whether the definition is accepted or refused,
nothing but rules, grammars and notices has changed behind it.
-/

namespace PegMatcher

set_option autoImplicit false

namespace Session

variable {s : Session} {p : Operand}

section Computations

variable {α β : Type} {m : SessionM α} {next : α → SessionM β} {a : α} {e : Failure} {t : Session}

/-- The session behind a computation, whether it answers or fails. -/
def behind {α : Type} (s : Session) (m : SessionM α) : Session :=
  match m.run s with
  | .ok _ t => t
  | .error _ t => t

theorem behind_of_ok (h : m.run s = .ok a t) : s.behind m = t := by
  rw [behind, h]

theorem behind_of_error (h : m.run s = .error e t) : s.behind m = t := by
  rw [behind, h]

theorem run_get (s : Session) : (get : SessionM Session).run s = .ok s s := rfl

theorem run_bind_ok (h : m.run s = .ok a t) : (m >>= next).run s = (next a).run t := by
  simp only [EStateM.run] at h
  simp only [EStateM.run, bind, EStateM.bind, h]

theorem run_bind_error (h : m.run s = .error e t) : (m >>= next).run s = .error e t := by
  simp only [EStateM.run] at h
  simp only [EStateM.run, bind, EStateM.bind, h]

theorem behind_bind_ok (h : m.run s = .ok a t) : s.behind (m >>= next) = t.behind (next a) := by
  rw [behind, run_bind_ok h]
  rfl

theorem behind_discard (s : Session) (m : SessionM α) : s.behind (do let _ ← m; return) = s.behind m := by
  simp only [behind, EStateM.run, bind, EStateM.bind]
  cases m s with
  | ok a t => rfl
  | error e t => rfl

theorem run_task (s : Session) (t : Task α) :
    (task t).run s = match t.run s.journal with
      | .ok a j => .ok a { s with journal := j }
      | .error e j => .error e { s with journal := j } := by
  have hrun : (task t).run s = (match t.run s.journal with
      | .ok a j => (do set { s with journal := j }; return a : SessionM α)
      | .error e j => do set { s with journal := j }; throw e).run s := rfl
  rw [hrun]
  cases t.run s.journal <;> rfl

theorem behind_task (s : Session) (t : Task α) : ∃ journal, s.behind (task t) = { s with journal } := by
  rw [behind, run_task]
  cases t.run s.journal with
  | ok a j => exact ⟨j, rfl⟩
  | error e j => exact ⟨j, rfl⟩

end Computations

def noteDefined (s : Session) (name : Option String) : Session :=
  { s with journal := { s.journal with
    notices := s.journal.notices.push (.ruleDefined (Fault.ruleLabel name)) } }

def setRule (s : Session) (index : Nat) (rule : Rule) : Session :=
  { s with rules := s.rules.setIfInBounds index rule }

def setTable (s : Session) (index : Nat) (g : Grammar) : Session :=
  { s with grammars := s.grammars.setIfInBounds index g }

section Runs

variable {f : Fault} {rule : Rule} {index : Nat} {name : String}

theorem run_defineRule_error (h : (s.environment (.loose index)).define p = .error f) :
    (defineRule index p).run s = .error (.fault f) s := by
  have hrun : (defineRule index p).run s =
      (ofExcept ((s.environment (.loose index)).define p) >>= fun rule => do
        modify fun s => s.setRule index rule
        task (.note (.ruleDefined (Fault.ruleLabel rule.name)))).run s := rfl
  rw [hrun, h]
  rfl

theorem run_defineRule_ok (h : (s.environment (.loose index)).define p = .ok rule) :
    (defineRule index p).run s = .ok () ((s.setRule index rule).noteDefined rule.name) := by
  have hrun : (defineRule index p).run s =
      (ofExcept ((s.environment (.loose index)).define p) >>= fun rule => do
        modify fun s => s.setRule index rule
        task (.note (.ruleDefined (Fault.ruleLabel rule.name)))).run s := rfl
  rw [hrun, h]
  rfl

/-- The table is changed before the definition is accepted or refused. -/
theorem run_defineSlot (s : Session) (index : Nat) (name : String) (p : Operand) :
    (defineSlot index name p).run s = (ofExcept ((s.grammarAt index).define name p).1 >>= fun _ =>
      task (.note (.ruleDefined (Fault.ruleLabel (some name))))).run
        (s.setTable index ((s.grammarAt index).define name p).2) := rfl

theorem run_defineSlot_error (h : ((s.grammarAt index).rule name).define p = .error f) :
    (defineSlot index name p).run s =
      .error (.fault f) (s.setTable index ((s.grammarAt index).define name p).2) := by
  rw [run_defineSlot, Grammar.define_answer, h]
  rfl

theorem run_defineSlot_ok (h : ((s.grammarAt index).rule name).define p = .ok rule) :
    (defineSlot index name p).run s =
      .ok () ((s.setTable index ((s.grammarAt index).define name p).2).noteDefined (some name)) := by
  rw [run_defineSlot, Grammar.define_answer, h]
  rfl

theorem environment_setRule (h : index < s.rules.size) (rule : Rule) :
    (s.setRule index rule).environment = Function.update s.environment (.loose index) rule := by
  funext id
  cases id with
  | slot i name => rfl
  | loose i =>
    by_cases hi : i = index
    · subst hi
      simp [environment, setRule, h]
    · have hne : RuleId.loose i ≠ .loose index := by simpa using hi
      rw [Function.update_of_ne hne]
      simp [environment, setRule, Array.getElem?_setIfInBounds_ne (Ne.symm hi)]

theorem grammarAt_setTable (h : index < s.grammars.size) (g : Grammar) :
    (s.setTable index g).grammarAt index = g := by
  simp [grammarAt, setTable, h]

theorem grammarAt_setTable_of_ne {i : Nat} (hi : i ≠ index) (g : Grammar) :
    (s.setTable index g).grammarAt i = s.grammarAt i := by
  simp [grammarAt, setTable, Array.getElem?_setIfInBounds_ne (Ne.symm hi)]

theorem environment_slot (s : Session) (index : Nat) (name : String) :
    s.environment (.slot index name) = (s.grammarAt index).rule name := rfl

theorem environment_setTable_define (h : index < s.grammars.size) (name : String) (p : Operand) :
    (s.setTable index ((s.grammarAt index).define name p).2).environment =
      Function.update s.environment (.slot index name)
        ((s.environment (.slot index name)).defined p) := by
  funext id
  cases id with
  | loose i => rfl
  | slot i other =>
    by_cases hi : i = index
    · subst hi
      rw [environment_slot, grammarAt_setTable h, Grammar.rule_define]
      by_cases hname : other = name
      · subst hname
        simp [environment_slot]
      · have hne : RuleId.slot i other ≠ .slot i name := by simpa using hname
        rw [Function.update_of_ne hne, if_neg hname, environment_slot]
    · have hne : RuleId.slot i other ≠ .slot index name := by simp [hi]
      rw [Function.update_of_ne hne, environment_slot, grammarAt_setTable_of_ne hi, environment_slot]

end Runs

end Session

/-- The rules behind an attempt to define one of them. -/
def Environment.define (env : Environment) (id : RuleId) (p : Operand) : Environment :=
  Function.update env id ((env id).defined p)

namespace Session

def define : RuleId → Operand → SessionM Unit
  | .loose index, p => defineRule index p
  | .slot index name, p => defineSlot index name p

/-- The session has that rule, or the grammar for it. -/
def Has (s : Session) : RuleId → Prop
  | .loose index => index < s.rules.size
  | .slot index _ => index < s.grammars.size

instance (s : Session) (id : RuleId) : Decidable (s.Has id) := by
  cases id <;> unfold Has <;> infer_instance

def withDefinition (s : Session) : RuleId → Operand → Session
  | .loose index, p => s.setRule index ((s.environment (.loose index)).defined p)
  | .slot index name, p => s.setTable index ((s.grammarAt index).define name p).2

variable {s : Session} {id : RuleId}

theorem setIfInBounds_getD {α : Type} (xs : Array α) (i : Nat) (default : α) :
    xs.setIfInBounds i ((xs[i]?).getD default) = xs := by
  by_cases h : i < xs.size
  · simp [h, Array.setIfInBounds]
  · exact Array.setIfInBounds_eq_of_size_le (Nat.le_of_not_lt h)

theorem setRule_self (s : Session) (index : Nat) : s.setRule index (s.environment (.loose index)) = s := by
  simp only [setRule, environment, setIfInBounds_getD]

theorem setTable_self (s : Session) (index : Nat) : s.setTable index (s.grammarAt index) = s := by
  simp only [setTable, grammarAt, setIfInBounds_getD]

theorem setTable_setTable (s : Session) (index : Nat) (g g' : Grammar) :
    (s.setTable index g).setTable index g' = s.setTable index g' := by
  simp only [setTable, Array.setIfInBounds_setIfInBounds]

/-- A definition leaves what it does to the rule, and a notice if it is not refused. -/
theorem behind_define (s : Session) (id : RuleId) (p : Operand) :
    ∃ journal, s.behind (define id p) = { s.withDefinition id p with journal } := by
  cases id with
  | loose index =>
    simp only [define, withDefinition]
    cases hd : (s.environment (.loose index)).define p with
    | error f =>
      rw [behind_of_error (run_defineRule_error hd), Rule.defined_of_error hd, setRule_self]
      exact ⟨s.journal, rfl⟩
    | ok rule =>
      rw [behind_of_ok (run_defineRule_ok hd), Rule.defined_of_ok hd]
      exact ⟨_, rfl⟩
  | slot index name =>
    simp only [define, withDefinition]
    cases hd : ((s.grammarAt index).rule name).define p with
    | error f =>
      rw [behind_of_error (run_defineSlot_error hd)]
      exact ⟨s.journal, rfl⟩
    | ok rule =>
      rw [behind_of_ok (run_defineSlot_ok hd)]
      exact ⟨_, rfl⟩

theorem has_behind_define (s : Session) (id : RuleId) (p : Operand) :
    (s.behind (define id p)).Has = s.Has := by
  obtain ⟨journal, hbehind⟩ := behind_define s id p
  rw [hbehind]
  funext other
  cases id with
  | loose index => cases other <;> simp [Has, withDefinition, setRule]
  | slot index name => cases other <;> simp [Has, withDefinition, setTable]

/-- A definition changes the rule that it defines, if there is such a rule, and no other. -/
theorem environment_behind_define (s : Session) (id : RuleId) (p : Operand) :
    (s.behind (define id p)).environment =
      if s.Has id then s.environment.define id p else s.environment := by
  obtain ⟨journal, hbehind⟩ := behind_define s id p
  have henv : (s.behind (define id p)).environment = (s.withDefinition id p).environment := by
    rw [hbehind]
    rfl
  rw [henv]
  cases id with
  | loose index =>
    split
    · rename_i h
      exact environment_setRule h _
    · rename_i h
      rw [withDefinition, setRule, Array.setIfInBounds_eq_of_size_le (Nat.le_of_not_lt h)]
  | slot index name =>
    split
    · rename_i h
      exact environment_setTable_define h name p
    · rename_i h
      rw [withDefinition, setTable, Array.setIfInBounds_eq_of_size_le (Nat.le_of_not_lt h)]

end Session

end PegMatcher
