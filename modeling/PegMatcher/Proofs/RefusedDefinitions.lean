import PegMatcher.Proofs.GrammarHistories

/-!
# Refused definitions

A definition is refused if its name is defined already, or if it is given no parser. The name has its place
in the table all the same. Where it had that place before, nothing has changed; otherwise it is listed from
then on as a name that is mentioned and not defined. Nothing else that can be asked of the grammar, or that
its rules run, is different.
-/

namespace PegMatcher

set_option autoImplicit false

namespace Rule

variable {rule : Rule} {p : Operand} {f : Fault}

theorem define_eq_error_iff : rule.define p = .error f ↔
    (∃ body, rule.body = some body) ∧ f = .ruleDefinedTwice rule.name ∨
      rule.body = none ∧ p.convert = .error f := by
  cases hb : rule.body with
  | some body => simp [define_of_body hb, eq_comm]
  | none =>
    cases hp : p.convert with
    | error g => simp [define, hb, hp, Except.map]
    | ok e => simp [define, hb, hp, Except.map]

end Rule

namespace Grammar

variable {g : Grammar} {name : String} {p : Operand} {f : Fault}

theorem mention_of_mem (h : name ∈ g.keys) : g.mention name = g := by
  rw [mention, if_pos (isSome_lookup_iff.mpr h)]

theorem mention_of_not_mem (h : name ∉ g.keys) : g.mention name = ⟨g.slots ++ [(name, none)]⟩ := by
  rw [mention, if_neg (mt isSome_lookup_iff.mp h)]

/-- A refused definition mentions its name and does nothing else. -/
theorem snd_define_of_error (h : (g.rule name).define p = .error f) :
    (g.define name p).2 = g.mention name := by
  simp only [define, rule_mention, h]

@[simp] theorem names_mention (g : Grammar) (name : String) : (g.mention name).names = g.names := by
  by_cases h : name ∈ g.keys
  · rw [mention_of_mem h]
  · simp [mention_of_not_mem h, names]

theorem undefined_mention_of_not_mem (h : name ∉ g.keys) :
    (g.mention name).undefined = g.undefined ++ [name] := by
  simp [mention_of_not_mem h, undefined]

theorem mem_keys_after_iff {history : List Request} :
    name ∈ (empty.after history).keys ↔ name ∈ history.filterMap Request.mentioned? := by
  rw [keys_after, List.mem_eraseDups]

end Grammar

namespace Session

variable {s t u : Session} {index : Nat} {name : String} {p : Operand} {failure : Failure}

/-- How a definition is refused, and what it leaves behind. -/
theorem run_defineSlot_error_iff : (defineSlot index name p).run t = .error failure u ↔
    ∃ f, ((t.grammarAt index).rule name).define p = .error f ∧ failure = .fault f ∧
      u = t.setTable index ((t.grammarAt index).mention name) := by
  cases hd : ((t.grammarAt index).rule name).define p with
  | error f =>
    rw [run_defineSlot_error hd, Grammar.snd_define_of_error hd]
    constructor
    · intro h
      cases h
      exact ⟨f, rfl, rfl, rfl⟩
    · rintro ⟨_, hf, rfl, rfl⟩
      cases hf
      rfl
  | ok rule =>
    rw [run_defineSlot_ok hd]
    constructor
    · intro h
      cases h
    · rintro ⟨_, hf, _⟩
      cases hf

theorem environment_of_refused (h : (defineSlot index name p).run t = .error failure u) :
    u.environment = t.environment := by
  obtain ⟨f, hd, _⟩ := run_defineSlot_error_iff.mp h
  have hsame : t.environment.define (.slot index name) p = t.environment := by
    have hrule : (t.environment (.slot index name)).defined p = t.environment (.slot index name) :=
      Rule.defined_of_error hd
    rw [Environment.define, hrule, Function.update_eq_self]
  have hbehind := environment_behind_define t (.slot index name) p
  rw [define, behind_of_error h, hsame, ite_self] at hbehind
  exact hbehind

theorem run_performOnGrammar_refused {key : String} {b : Blueprint} {command : GrammarCommand}
    (hkey : s.grammarNames.lookup key = some index) (hbuilt : b.build.run s = .ok p t)
    (hcommand : command = .define name b ∨ command = .assign name b)
    (h : (defineSlot index name p).run t = .error failure u) :
    (performOnGrammar key command).run s = .error failure u := by
  have hindex := run_grammarIndex hkey
  rcases hcommand with rfl | rfl
  all_goals
    rw [performOnGrammar, run_bind_ok hindex, run_bind_ok hbuilt]
    exact run_bind_error h

/-- A refused definition leaves all that is listed, contained and run as it was, but its name, if it was not
mentioned before, joins those that are undefined. -/
theorem refused_definition_leaves {history : List Request}
    (hreached : t.grammars[index]? = some (Grammar.empty.after history))
    (hrun : (defineSlot index name p).run t = .error failure u) :
    let g := t.grammarAt index
    let g' := u.grammarAt index
    (g'.names = g.names ∧ g'.size = g.size ∧ (∀ other, g'.contains other = g.contains other) ∧
      u.environment = t.environment) ∧
    (name ∈ history.filterMap Request.mentioned? → u = t) ∧
    (name ∉ history.filterMap Request.mentioned? → g'.undefined = g.undefined ++ [name]) ∧
    (∃ f, failure = .fault f ∧ ((∃ body, g.body? name = some body) ∧ f = .ruleDefinedTwice (some name) ∨
      g.body? name = none ∧ p.convert = .error f)) ∧
    ∀ s key b command, s.grammarNames.lookup key = some index → b.build.run s = .ok p t →
      command = .define name b ∨ command = .assign name b →
      (performOnGrammar key command).run s = .error failure u := by
  intro g g'
  obtain ⟨hindex, _⟩ := Array.getElem?_eq_some_iff.mp hreached
  have htable : g = Grammar.empty.after history := by
    simp only [g, grammarAt, hreached, Option.getD_some]
  obtain ⟨f, hdefine, rfl, rfl⟩ := run_defineSlot_error_iff.mp hrun
  have hafter : g' = g.mention name := grammarAt_setTable hindex _
  have hkeys : name ∈ g.keys ↔ name ∈ history.filterMap Request.mentioned? :=
    htable ▸ Grammar.mem_keys_after_iff
  refine ⟨⟨?_, ?_, fun other => ?_, environment_of_refused hrun⟩, fun hmem => ?_, fun hnew => ?_,
    ⟨f, rfl, Rule.define_eq_error_iff.mp hdefine⟩,
    fun s key b command hkey hbuilt hcommand => run_performOnGrammar_refused hkey hbuilt hcommand hrun⟩
  · rw [hafter, Grammar.names_mention]
  · rw [Grammar.size_eq, Grammar.size_eq, hafter, Grammar.names_mention]
  · rw [hafter, Grammar.contains, Grammar.body?_mention]
    rfl
  · change t.setTable index (g.mention name) = t
    rw [Grammar.mention_of_mem (hkeys.mpr hmem)]
    exact setTable_self t index
  · rw [hafter, Grammar.undefined_mention_of_not_mem (mt hkeys.mp hnew)]

/-- A number is no parser: as `a`, mentioned for the first time, it leaves an undefined name. -/
theorem refused_definition_leaves_mention :
    let t : Session := { grammars := #[Grammar.empty.after [.refer "b"]], grammarNames := [("g", 0)] }
    let five : Operand := .value (.int 5)
    let u : Session := t.setTable 0 (Grammar.empty.after [.refer "b", .refer "a"])
    (t.grammars[0]? = some (Grammar.empty.after [.refer "b"]) ∧
      (defineSlot 0 "a" five).run t = .error (.fault (.notParser .int)) u ∧
      (t.grammarAt 0).undefined = ["b"] ∧ (u.grammarAt 0).undefined = ["b", "a"] ∧
      (performOnGrammar "g" (.assign "a" (.value (.int 5)))).run t = .error (.fault (.notParser .int)) u) ∧
    ∀ v, (defineSlot 0 "b" five).run t = .error (.fault (.notParser .int)) v → v = t := by
  intro t five u
  have hreached : t.grammars[0]? = some (Grammar.empty.after [.refer "b"]) := rfl
  have hrun : (defineSlot 0 "a" five).run t = .error (.fault (.notParser .int)) u := rfl
  obtain ⟨_, _, hundefined, _, hcommands⟩ := refused_definition_leaves hreached hrun
  exact ⟨⟨hreached, hrun, rfl, hundefined (by decide), hcommands t "g" _ _ rfl rfl (.inr rfl)⟩,
    fun v h => (refused_definition_leaves hreached h).2.1 (by decide)⟩

end Session

end PegMatcher
