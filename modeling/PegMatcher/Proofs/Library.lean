import PegMatcher.Lexical

/-!
# Expressions without hand-written parts

`Built ok refs` holds of what is put together by the operators alone, from primitives that `ok` admits
and references to rules that `refs` admits. The ready-made parsers for text are, and refer to no rules.
-/

namespace PegMatcher

set_option autoImplicit false

inductive Expr.Built (ok : Primitive → Prop) (refs : RuleId → Prop) : Expr → Prop where
  | primitive {matcher : Primitive} : ok matcher → Built ok refs (.primitive matcher)
  | seq {parts : List Expr} : (∀ e ∈ parts, Built ok refs e) → Built ok refs (.seq parts)
  | choice {options : List Expr} : (∀ e ∈ options, Built ok refs e) →
      Built ok refs (.choice options)
  | star {e : Expr} : Built ok refs e → Built ok refs (.star e)
  | plus {e : Expr} : Built ok refs e → Built ok refs (.plus e)
  | opt {e : Expr} : Built ok refs e → Built ok refs (.opt e)
  | ahead {e : Expr} : Built ok refs e → Built ok refs (.ahead e)
  | notAhead {e : Expr} : Built ok refs e → Built ok refs (.notAhead e)
  | expect {tracker label : String} {e : Expr} : Built ok refs e →
      Built ok refs (.expect tracker label e)
  | traced {tag : Value} {e : Expr} : Built ok refs e → Built ok refs (.traced tag e)
  | rule {id : RuleId} : refs id → Built ok refs (.rule id)

/-- The bodies of all rules are built from these primitives and rules. -/
def Environment.Built (ok : Primitive → Prop) (refs : RuleId → Prop) (env : Environment) : Prop :=
  ∀ id body, (env id).body = some body → body.Built ok refs

/-- Without hand-written parts, and otherwise arbitrary. -/
abbrev Expr.Plain : Expr → Prop := Expr.Built (fun _ => True) fun _ => True

abbrev Environment.Plain : Environment → Prop := Environment.Built (fun _ => True) fun _ => True

namespace Expr.Built

variable {ok : Primitive → Prop} {refs : RuleId → Prop} {e : Expr} {es : List Expr}
  {matcher : Primitive}

@[simp] theorem primitive_iff : Built ok refs (.primitive matcher) ↔ ok matcher :=
  ⟨fun | .primitive h => h, .primitive⟩

@[simp] theorem seq_iff : Built ok refs (.seq es) ↔ ∀ e ∈ es, Built ok refs e :=
  ⟨fun | .seq h => h, .seq⟩

@[simp] theorem choice_iff : Built ok refs (.choice es) ↔ ∀ e ∈ es, Built ok refs e :=
  ⟨fun | .choice h => h, .choice⟩

@[simp] theorem star_iff : Built ok refs (.star e) ↔ Built ok refs e := ⟨fun | .star h => h, .star⟩

@[simp] theorem plus_iff : Built ok refs (.plus e) ↔ Built ok refs e := ⟨fun | .plus h => h, .plus⟩

@[simp] theorem opt_iff : Built ok refs (.opt e) ↔ Built ok refs e := ⟨fun | .opt h => h, .opt⟩

@[simp] theorem rule_iff {id : RuleId} : Built ok refs (.rule id) ↔ refs id :=
  ⟨fun | .rule h => h, .rule⟩

@[simp] theorem notAhead_iff : Built ok refs (.notAhead e) ↔ Built ok refs e :=
  ⟨fun | .notAhead h => h, .notAhead⟩

end Expr.Built

inductive Primitive.Elementary : Primitive → Prop where
  | any : Elementary .any
  | element (value : Value) : Elementary (.element value)
  | literal (values : List Value) : Elementary (.literal values)
  | oneOf (members : List Value) : Elementary (.oneOf members)
  | range (low high : Char) : Elementary (.range (.char low) (.char high))

namespace Lexical

/-- The ready-made parsers for text that take no parsers themselves. -/
inductive ReadyMade : Expr → Prop where
  | spaces : ReadyMade spaces
  | someSpaces : ReadyMade someSpaces
  | digit : ReadyMade digit
  | hexDigit : ReadyMade hexDigit
  | letter : ReadyMade letter
  | identifier : ReadyMade identifier
  | integer : ReadyMade integer
  | decimal : ReadyMade decimal
  | quoted (quoting : Quoting) : ReadyMade (quoted quoting)
  | keyword (word : List Char) : ReadyMade (keyword word)
  | lineComment : ReadyMade lineComment

variable {ok : Primitive → Prop} {refs : RuleId → Prop} {e : Expr}

theorem built_ofText (hok : ∀ m : Primitive, m.Elementary → ok m) (text : List Char) :
    (Expr.ofText text).Built ok refs := by
  unfold Expr.ofText
  split
  · exact .primitive (hok _ (.element _))
  · exact .primitive (hok _ (.literal _))

theorem built_of_elementary (h : ReadyMade e) (hok : ∀ m : Primitive, m.Elementary → ok m)
    (hquoted : ∀ qt, e = quoted qt → ok (.quoted qt)) : e.Built ok refs := by
  have hany : ok .any := hok _ .any
  have helement : ∀ v, ok (.element v) := fun v => hok _ (.element v)
  have honeOf : ∀ vs, ok (.oneOf vs) := fun vs => hok _ (.oneOf vs)
  have hrange : ∀ low high, ok (.range (.char low) (.char high)) := fun low high =>
    hok _ (.range low high)
  cases h with
  | quoted qt => exact .primitive (hquoted qt rfl)
  | keyword word => simp [keyword, built_ofText hok, identifierRest, letter, digit, between, character,
      hrange, helement]
  | _ => simp [spaces, someSpaces, digit, hexDigit, letter, identifier, identifierRest, integer,
      decimal, lineComment, anyOf, between, character, sign, based, exponent, hany, helement, honeOf,
      hrange]

theorem built_readyMade {e : Expr} (h : ReadyMade e) (refs : RuleId → Prop) :
    e.Built (fun _ => True) refs :=
  built_of_elementary h (fun _ _ => trivial) fun _ _ => trivial

theorem built_delimitedBy {item separator : Expr} (hok : ∀ m : Primitive, m.Elementary → ok m)
    (hi : item.Built ok refs) (hs : separator.Built ok refs) :
    (delimitedBy item separator).Built ok refs ∧
      (delimitedBy item (spaced separator)).Built ok refs := by
  have hspaces : spaces.Built ok refs := by
    simp [spaces, anyOf, hok _ (.oneOf _)]
  constructor
  · simp [delimitedBy, hi, hs]
  · simp [delimitedBy, spaced, hi, hs, hspaces]

end Lexical

end PegMatcher
