import PegMatcher.Grammar

/-!
# Tables of rules

What mentioning a name and defining it make of a grammar: which names the table holds, in which order, and
what body each name has. A rule that has a body refuses another one and stays as it is.
-/

namespace PegMatcher

set_option autoImplicit false

theorem eraseDups_concat (names : List String) (name : String) :
    (names ++ [name]).eraseDups = if name ∈ names then names.eraseDups else names.eraseDups ++ [name] := by
  have hremove : [name].removeAll names = if name ∈ names then [] else [name] := by
    by_cases h : name ∈ names <;> simp [List.removeAll, h]
  rw [List.eraseDups_append, hremove]
  split
  · rw [List.eraseDups_nil, List.append_nil]
  · rfl

namespace Rule

variable {rule : Rule} {p : Operand} {body : Expr}

/-- The rule behind an attempt to define it. -/
def defined (rule : Rule) (p : Operand) : Rule :=
  match rule.define p with
  | .ok rule => rule
  | .error _ => rule

theorem define_of_body (h : rule.body = some body) (p : Operand) :
    rule.define p = .error (.ruleDefinedTwice rule.name) := by
  rw [define, h]

theorem defined_of_body (h : rule.body = some body) (p : Operand) : rule.defined p = rule := by
  rw [defined, define_of_body h]

theorem defined_of_ok {rule' : Rule} (h : rule.define p = .ok rule') : rule.defined p = rule' := by
  rw [defined, h]

theorem defined_of_error {f : Fault} (h : rule.define p = .error f) : rule.defined p = rule := by
  rw [defined, h]

theorem define_eq_ok_iff {rule' : Rule} : rule.define p = .ok rule' ↔
    rule.body = none ∧ ∃ e, p.convert = .ok e ∧ rule' = { rule with body := some e } := by
  cases hb : rule.body with
  | some body => simp [define_of_body hb]
  | none =>
    cases hp : p.convert with
    | error f => simp [define, hb, hp, Except.map]
    | ok e => simp [define, hb, hp, Except.map, eq_comm]

/-- The body of a rule is what it was, or else that of the parser it is defined with. -/
theorem body_defined_iff : (rule.defined p).body = some body ↔
    rule.body = some body ∨ rule.body = none ∧ p.convert = .ok body := by
  cases hd : rule.define p with
  | error f =>
    have hrefused : ¬ (rule.body = none ∧ p.convert = .ok body) := fun h => by
      have hok := define_eq_ok_iff.mpr ⟨h.1, body, h.2, rfl⟩
      cases hd.symm.trans hok
    rw [defined_of_error hd, or_iff_left hrefused]
  | ok rule' =>
    obtain ⟨hnone, e, hp, rfl⟩ := define_eq_ok_iff.mp hd
    rw [defined_of_ok hd]
    simp [hnone, hp]

end Rule

namespace Grammar

variable {g : Grammar} {name other : String} {p : Operand}

/-- The names that have a place in the table, in the order of their places. -/
def keys (g : Grammar) : List String := g.slots.map Prod.fst

theorem isSome_lookup_iff : (g.slots.lookup name).isSome = true ↔ name ∈ g.keys := by
  rw [List.lookup_isSome_iff, keys, List.mem_map]
  constructor
  · rintro ⟨slot, hs, heq⟩
    exact ⟨slot, hs, (beq_iff_eq.mp heq).symm⟩
  · rintro ⟨slot, hs, heq⟩
    exact ⟨slot, hs, beq_iff_eq.mpr heq.symm⟩

theorem isSome_lookup_of_body? {body : Expr} (h : g.body? name = some body) :
    (g.slots.lookup name).isSome = true := by
  rw [body?] at h
  cases hslot : g.slots.lookup name with
  | none => simp [hslot] at h
  | some slot => rfl

theorem keys_mention (g : Grammar) (name : String) :
    (g.mention name).keys = if name ∈ g.keys then g.keys else g.keys ++ [name] := by
  simp only [mention, isSome_lookup_iff]
  split
  · rfl
  · simp [keys]

theorem nodup_keys_mention (h : g.keys.Nodup) (name : String) : (g.mention name).keys.Nodup := by
  rw [keys_mention]
  split
  · exact h
  · rename_i hnew
    rw [List.nodup_append]
    refine ⟨h, by simp, fun old hold new hmem => ?_⟩
    rw [List.mem_singleton.mp hmem]
    exact fun heq => hnew (heq ▸ hold)

theorem mem_keys_mention : name ∈ (g.mention name).keys := by
  rw [keys_mention]
  split
  · assumption
  · simp

@[simp] theorem body?_mention (g : Grammar) (name other : String) :
    (g.mention name).body? other = g.body? other := by
  unfold mention
  split
  · rfl
  · rw [body?, body?, List.lookup_append, List.lookup_cons]
    cases g.slots.lookup other with
    | some slot => rfl
    | none => cases other == name <;> rfl

@[simp] theorem rule_mention (g : Grammar) (name other : String) :
    (g.mention name).rule other = g.rule other := by
  simp [rule]

@[simp] theorem keys_assign (g : Grammar) (name : String) (body : Expr) :
    (g.assign name body).keys = g.keys := by
  simp only [keys, assign, List.map_map]
  apply List.map_congr_left
  intro slot _
  simp only [Function.comp_apply]
  split <;> rfl

theorem lookup_assign (slots : List (String × Option Expr)) (name other : String) (body : Expr) :
    ((slots.map fun slot => if slot.1 = name then (slot.1, some body) else slot).lookup other) =
      (slots.lookup other).map fun old => if other = name then some body else old := by
  induction slots with
  | nil => rfl
  | cons slot slots ih =>
    obtain ⟨key, old⟩ := slot
    rw [List.map_cons, List.lookup_cons]
    by_cases hkey : other = key
    · subst hkey
      by_cases hname : other = name <;> simp [hname]
    · have hkey' : (other == key) = false := by simpa using hkey
      by_cases hname : key = name
      · subst hname
        simp [hkey', ih, List.lookup_cons]
      · simp [hname, hkey', ih, List.lookup_cons]

theorem body?_assign (h : name ∈ g.keys) (body : Expr) (other : String) :
    (g.assign name body).body? other = if other = name then some body else g.body? other := by
  simp only [body?, assign, lookup_assign]
  by_cases hname : other = name
  · subst hname
    obtain ⟨old, hold⟩ := Option.isSome_iff_exists.mp (isSome_lookup_iff.mpr h)
    simp [hold]
  · simp [hname]

theorem define_answer (g : Grammar) (name : String) (p : Operand) :
    (g.define name p).1 = ((g.rule name).define p).map fun _ => () := by
  simp only [define, rule_mention]
  cases hd : (g.rule name).define p with
  | error f => rfl
  | ok rule =>
    obtain ⟨_, e, _, rfl⟩ := Rule.define_eq_ok_iff.mp hd
    rfl

@[simp] theorem keys_define (g : Grammar) (name : String) (p : Operand) :
    (g.define name p).2.keys = (g.mention name).keys := by
  simp only [define, rule_mention]
  cases hd : (g.rule name).define p with
  | error f => rfl
  | ok rule =>
    obtain ⟨_, e, _, rfl⟩ := Rule.define_eq_ok_iff.mp hd
    exact keys_assign _ _ _

/-- Defining a name does to its rule what defining does to a rule, and nothing to the other rules. -/
theorem rule_define (g : Grammar) (name : String) (p : Operand) (other : String) :
    (g.define name p).2.rule other = if other = name then (g.rule name).defined p else g.rule other := by
  simp only [define, rule_mention]
  cases hd : (g.rule name).define p with
  | error f =>
    rw [Rule.defined_of_error hd]
    by_cases hname : other = name
    · simp [hname]
    · simp [hname]
  | ok rule =>
    rw [Rule.defined_of_ok hd]
    obtain ⟨_, e, _, rfl⟩ := Rule.define_eq_ok_iff.mp hd
    by_cases hname : other = name
    · simp [Grammar.rule, body?_assign mem_keys_mention, hname]
    · simp [Grammar.rule, body?_assign mem_keys_mention, hname]

theorem define_of_body? {body : Expr} (h : g.body? name = some body) (p : Operand) :
    g.define name p = (.error (.ruleDefinedTwice (some name)), g) := by
  have hrule : (g.rule name).define p = .error (.ruleDefinedTwice (some name)) := Rule.define_of_body h p
  simp only [define, mention, isSome_lookup_of_body? h, if_true, hrule]

/-- Where each name has one place, a slot holds the body of its name. -/
theorem body?_of_mem (h : g.keys.Nodup) {slot : String × Option Expr} (hs : slot ∈ g.slots) :
    g.body? slot.1 = slot.2 := by
  obtain ⟨before, behind, hslots⟩ := List.append_of_mem hs
  rw [keys, hslots, List.map_append, List.map_cons, List.nodup_append] at h
  have hfirst : ∀ old ∈ before, (slot.1 != old.1) = true := by
    intro old hold
    have hne := h.2.2 old.1 (List.mem_map_of_mem hold) slot.1 List.mem_cons_self
    simpa using hne.symm
  have hlookup : g.slots.lookup slot.1 = some slot.2 :=
    List.lookup_eq_some_iff.mpr ⟨before, behind, hslots, hfirst⟩
  rw [body?, hlookup]
  rfl

theorem map_fst_filter_slots (h : g.keys.Nodup) (choose : Option Expr → Bool) :
    (g.slots.filter fun slot => choose slot.2).map Prod.fst =
      g.keys.filter fun name => choose (g.body? name) := by
  rw [keys, List.filter_map]
  congr 1
  apply List.filter_congr
  intro slot hs
  rw [Function.comp_apply, body?_of_mem h hs]

theorem names_eq (h : g.keys.Nodup) : g.names = g.keys.filter g.contains :=
  map_fst_filter_slots h Option.isSome

theorem undefined_eq (h : g.keys.Nodup) : g.undefined = g.keys.filter fun name => !g.contains name := by
  simp only [undefined, map_fst_filter_slots h Option.isNone, contains, Option.not_isSome]

theorem size_eq (g : Grammar) : g.size = g.names.length := by
  rw [size, names, List.length_map, List.countP_eq_length_filter]

/-- A name is listed if it is defined. -/
theorem mem_names_iff (h : g.keys.Nodup) : name ∈ g.names ↔ g.contains name = true := by
  rw [names_eq h, List.mem_filter, and_iff_right_iff_imp]
  intro hdefined
  obtain ⟨body, hbody⟩ := Option.isSome_iff_exists.mp hdefined
  exact isSome_lookup_iff.mp (isSome_lookup_of_body? hbody)

theorem mem_undefined_iff (h : g.keys.Nodup) : name ∈ g.undefined ↔ name ∈ g.keys ∧ name ∉ g.names := by
  rw [undefined_eq h, List.mem_filter, mem_names_iff h, Bool.not_eq_true', Bool.not_eq_true]

end Grammar

end PegMatcher
