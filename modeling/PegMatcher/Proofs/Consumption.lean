import PegMatcher.Proofs.Library
import PegMatcher.Proofs.Motion
import PegMatcher.Proofs.Nesting

/-!
# No partial consumption

`Keeps` derives from an expression how it moves. Expressions that are merely known to move onward may
stand under the operators that do not mind; a rule counts as tidy if its body does, be it through the
rule itself. A safe expression is derived to be tidy: it takes nothing where it fails, and moves onward
inside the source where it matches.
-/

namespace PegMatcher

set_option autoImplicit false

variable {env : Environment} {ctx : Setting} {may : Fault → Prop} {rules : RuleId → Prop}
  {m : Manner}

namespace Expr

/-- From any place in the source, a run that answers leaves the cursor between there and the end. -/
def Forward (env : Environment) (ctx : Setting) (may : Fault → Prop) (e : Expr) : Prop :=
  ∀ s : State, 0 ≤ s.pos → s.pos ≤ ctx.source.size →
    match e.parser env ctx s with
    | .returned _ s' => s.pos ≤ s'.pos ∧ s'.pos ≤ ctx.source.size
    | .raised f _ => may f

/-- What follows for an expression if `rules` are tidy. -/
inductive Keeps (env : Environment) (ctx : Setting) (may : Fault → Prop) (rules : RuleId → Prop) :
    Manner → Expr → Prop where
  | forward {e : Expr} : e.Forward env ctx may → Keeps env ctx may rules .onward e
  | weaken {e : Expr} : Keeps env ctx may rules .tidy e → Keeps env ctx may rules .onward e
  | primitive {matcher : Primitive} :
      (∀ (pos : Int) f, 0 ≤ pos → pos ≤ ctx.source.size →
        matcher.scan ctx.source pos = .error f → may f) →
      Keeps env ctx may rules .tidy (.primitive matcher)
  | seq {parts : List Expr} : (∀ e ∈ parts, Keeps env ctx may rules .onward e) →
      Keeps env ctx may rules .tidy (.seq parts)
  | choice {options : List Expr} {m : Manner} : (∀ e ∈ options, Keeps env ctx may rules m e) →
      Keeps env ctx may rules m (.choice options)
  | star {e : Expr} : Keeps env ctx may rules .onward e → Keeps env ctx may rules .tidy (.star e)
  | plus {e : Expr} {m : Manner} : Keeps env ctx may rules m e → Keeps env ctx may rules m (.plus e)
  | opt {e : Expr} : Keeps env ctx may rules .onward e → Keeps env ctx may rules .tidy (.opt e)
  | ahead {e : Expr} : Keeps env ctx may rules .onward e → Keeps env ctx may rules .tidy (.ahead e)
  | notAhead {e : Expr} : Keeps env ctx may rules .onward e →
      Keeps env ctx may rules .tidy (.notAhead e)
  | expect {tracker label : String} {e : Expr} {m : Manner} : Keeps env ctx may rules m e →
      Keeps env ctx may rules m (.expect tracker label e)
  | traced {tag : Value} {e : Expr} {m : Manner} : Keeps env ctx may rules m e →
      Keeps env ctx may rules m (.traced tag e)
  | rule {id : RuleId} : rules id → Keeps env ctx may rules .tidy (.rule id)

/-- Rules whose bodies are tidy if they are, and that may be refused or undefined. -/
structure TidyRules (env : Environment) (ctx : Setting) (may : Fault → Prop)
    (rules : RuleId → Prop) : Prop where
  body {id : RuleId} {body : Expr} : rules id → (env id).body = some body →
    Keeps env ctx may rules .tidy body
  undefined {id : RuleId} : rules id → (env id).body = none → may (.undefinedRule (env id).name)
  refused {id : RuleId} : rules id → may (.depthExceeded ctx.maxDepth (env id).name)

/-- An expression that is tidy by what it is made of, given some rules that are. -/
def Safe (env : Environment) (ctx : Setting) (e : Expr) : Prop :=
  ∃ rules, TidyRules env ctx (fun _ => True) rules ∧ Keeps env ctx (fun _ => True) rules .tidy e

theorem Forward.behaves {e : Expr} (h : e.Forward env ctx may) (d : Nat) :
    (e.parser env).Behaves ctx d .onward may := by
  intro s hs
  have he := h s hs.nonneg hs.le_size
  have hd := e.parser_depth env ctx s
  have hs0 := hs.nonneg
  generalize e.parser env ctx s = r at he hd ⊢
  cases r with
  | returned v s' => exact .returned ⟨by omega, he.2, hd⟩ he.1 nofun
  | raised f s' => exact .raised he

theorem Keeps.behaves_of_rules {d : Nat} {e : Expr} (h : Keeps env ctx may rules m e)
    (hr : ∀ id, rules id → ((Expr.rule id).parser env).Behaves ctx d .tidy may) :
    (e.parser env).Behaves ctx d m may := by
  induction h with
  | forward he => exact he.behaves d
  | weaken _ ih => exact ih.onward
  | primitive hf => exact .primitive hf
  | seq _ ih =>
    rw [parser_seq]
    exact .seq (by simpa using ih)
  | choice _ ih =>
    rw [parser_choice]
    exact .choice (by simpa using ih)
  | star _ ih =>
    rw [parser_star]
    exact ih.star
  | plus _ ih =>
    rw [parser_plus]
    exact ih.plus
  | opt _ ih =>
    rw [parser_opt]
    exact ih.opt
  | ahead _ ih =>
    rw [parser_ahead]
    exact ih.ahead
  | notAhead _ ih =>
    rw [parser_notAhead]
    exact ih.notAhead
  | expect _ ih =>
    rw [parser_expect]
    exact ih.expect _ _
  | traced _ ih =>
    rw [parser_traced]
    exact ih.traced _
  | rule hid => exact hr _ hid

theorem TidyRules.behaves (h : TidyRules env ctx may rules) : ∀ d id, rules id →
    ((Expr.rule id).parser env).Behaves ctx d .tidy may := by
  intro d
  induction hn : ctx.maxDepth - d using Nat.strongRecOn generalizing d with
  | ind n ih =>
    intro id hid
    rw [parser_rule, Rule.parser]
    cases hb : (env id).body with
    | none => exact .fault (h.undefined hid hb)
    | some body =>
      refine .nested (h.refused hid) fun hlt => ?_
      exact (h.body hid hb).behaves_of_rules (ih _ (by omega) (d + 1) rfl)

theorem Keeps.behaves {e : Expr} (h : Keeps env ctx may rules m e) (hr : TidyRules env ctx may rules)
    (d : Nat) : (e.parser env).Behaves ctx d m may :=
  h.behaves_of_rules (hr.behaves d)

theorem Built.keeps {ok : Primitive → Prop} {e : Expr} (h : Built ok rules e)
    (hf : ∀ matcher (pos : Int) f, ok matcher → 0 ≤ pos → pos ≤ ctx.source.size →
      matcher.scan ctx.source pos = .error f → may f) : Keeps env ctx may rules .tidy e := by
  induction h with
  | primitive hok => exact .primitive fun pos f h0 h1 hs => hf _ pos f hok h0 h1 hs
  | seq _ ih => exact .seq fun e he => .weaken (ih e he)
  | choice _ ih => exact .choice ih
  | star _ ih => exact .star ih.weaken
  | plus _ ih => exact .plus ih
  | opt _ ih => exact .opt ih.weaken
  | ahead _ ih => exact .ahead ih.weaken
  | notAhead _ ih => exact .notAhead ih.weaken
  | expect _ ih => exact .expect ih
  | traced _ ih => exact .traced ih
  | rule hid => exact .rule hid

theorem Built.moves {ok : Primitive → Prop} {e : Expr} (h : Built ok rules e) (hb : env.Built ok rules)
    (hf : ∀ matcher (pos : Int) f, ok matcher → 0 ≤ pos → pos ≤ ctx.source.size →
      matcher.scan ctx.source pos = .error f → may f)
    (hundefined : ∀ id, rules id → (env id).body = none → may (.undefinedRule (env id).name))
    (hrefused : ∀ id, rules id → may (.depthExceeded ctx.maxDepth (env id).name)) (d : Nat) :
    (e.parser env).Behaves ctx d .tidy may := by
  have hrules : TidyRules env ctx may rules :=
    ⟨fun _ hbody => (hb _ _ hbody).keeps hf, hundefined _, hrefused _⟩
  exact (h.keeps hf).behaves hrules d

theorem Built.safe {e : Expr} (h : e.Built (fun _ => True) fun _ => False) : e.Safe env ctx :=
  ⟨fun _ => False, ⟨False.elim, False.elim, False.elim⟩, h.keeps fun _ _ _ _ _ _ _ => trivial⟩

end Expr

namespace Lexical

open PegMatcher.Expr

variable {item separator : Expr}

theorem keeps_spaced (hw : Keeps env ctx may rules .onward spaces)
    (h : Keeps env ctx may rules .onward separator) :
    Keeps env ctx may rules .onward (spaced separator) :=
  .weaken (.seq (by simp [h, hw]))

theorem keeps_delimitedBy (hi : Keeps env ctx may rules .onward item)
    (hs : Keeps env ctx may rules .onward separator) :
    Keeps env ctx may rules .tidy (delimitedBy item separator) := by
  have hrest : Keeps env ctx may rules .onward (.star (.seq [separator, item])) :=
    .weaken (.star (.weaken (.seq (by simp [hi, hs]))))
  exact .seq (by simp [hi, hrest])

end Lexical

/-- Safe expressions take nothing where they fail, and move onward inside the source where they match. -/
theorem no_partial_consumption (env : Environment) (ctx : Setting) :
    (∀ e, Lexical.ReadyMade e → e.Safe env ctx) ∧
    (∀ item separator : Expr, item.Forward env ctx (fun _ => True) →
      separator.Forward env ctx (fun _ => True) →
      (Lexical.delimitedBy item separator).Safe env ctx ∧
      (Lexical.delimitedBy item (Lexical.spaced separator)).Safe env ctx) ∧
    (∀ (e : Expr) (s : State) v s', e.Safe env ctx → 0 ≤ s.pos → s.pos ≤ ctx.source.size →
      e.parser env ctx s = .returned v s' →
      (v.truthy = false → s'.pos = s.pos) ∧
      (v.truthy = true → s.pos ≤ s'.pos ∧ s'.pos ≤ ctx.source.size)) := by
  refine ⟨fun e he => (Lexical.built_readyMade he _).safe, ?_, ?_⟩
  · intro item separator hi hs
    have hsafe : Lexical.spaces.Safe env ctx := (Lexical.built_readyMade .spaces _).safe
    obtain ⟨rules, hr, hw⟩ := hsafe
    have hspaced := Lexical.keeps_spaced hw.weaken (.forward hs)
    exact ⟨⟨rules, hr, Lexical.keeps_delimitedBy (.forward hi) (.forward hs)⟩,
      ⟨rules, hr, Lexical.keeps_delimitedBy (.forward hi) hspaced⟩⟩
  · intro e s v s' ⟨rules, hr, he⟩ h0 h1 hrun
    have hm := he.behaves hr s.depth s ⟨h0, h1, rfl⟩
    rw [hrun] at hm
    cases hm with
    | returned hs' hle ht => exact ⟨ht rfl, fun _ => ⟨hle, hs'.le_size⟩⟩

def retreatRules : Environment := fun _ =>
  ⟨some "r", some (.choice [.seq [.primitive .any, .scanner .drain],
    .seq [.primitive (.element (.char 'a')), .opt (.rule (.loose 0))]])⟩

theorem safe_retreatRules (ctx : Setting) : (Expr.rule (.loose 0)).Safe retreatRules ctx := by
  have hany : Expr.Keeps retreatRules ctx (fun _ => True) (fun _ => True) .onward (.primitive .any) :=
    .weaken (.primitive fun _ _ _ _ _ => trivial)
  have hdrain : Expr.Keeps retreatRules ctx (fun _ => True) (fun _ => True) .onward
      (.scanner .drain) := by
    refine .forward fun s h0 h1 => ?_
    simp only [Expr.parser, Expr.scanner, Expr.run, Routine.ofScanner, Scanner.drain,
      Expr.runRoutine, Parser.ofRoutine, State.moveTo]
    omega
  have hletter : Expr.Keeps retreatRules ctx (fun _ => True) (fun _ => True) .onward
      (.primitive (.element (.char 'a'))) := .weaken (.primitive fun _ _ _ _ _ => trivial)
  have hrest : Expr.Keeps retreatRules ctx (fun _ => True) (fun _ => True) .onward
      (.opt (.rule (.loose 0))) := .weaken (.opt (.weaken (.rule trivial)))
  refine ⟨fun _ => True, ⟨?_, fun _ _ => trivial, fun _ => trivial⟩, .rule trivial⟩
  intro id body _ hb
  cases hb
  exact .choice (by simpa using ⟨.seq (by simp [hany, hdrain]), .seq (by simp [hletter, hrest])⟩)

/-- On "ab" the rule takes the first letter and then fails on the second; from there it takes nothing. -/
theorem no_partial_consumption_retreat :
    let ctx : Setting := ⟨.text #['a', 'b'], 2⟩
    let e : Expr := .rule (.loose 0)
    let s (pos : Int) : State := ⟨pos, 0, [], #[]⟩
    e.Safe retreatRules ctx ∧
    (e.parser retreatRules ctx (s 0) = .returned (.bool true) (s 1) ∧
      (s 0).pos ≤ (s 1).pos ∧ (s 1).pos ≤ ctx.source.size) ∧
    (e.parser retreatRules ctx (s 1) = .returned (.bool false) (s 1) ∧ (s 1).pos = 1) := by
  intro ctx e s
  have hsafe := safe_retreatRules ctx
  have h0 : e.parser retreatRules ctx (s 0) = .returned (.bool true) (s 1) := by rfl
  have h1 : e.parser retreatRules ctx (s 1) = .returned (.bool false) (s 1) := by rfl
  have h := (no_partial_consumption retreatRules ctx).2.2 e
  exact ⟨hsafe, ⟨h0, (h (s 0) _ _ hsafe (by decide) (by decide) h0).2 rfl⟩,
    ⟨h1, (h (s 1) _ _ hsafe (by decide) (by decide) h1).1 rfl⟩⟩

end PegMatcher
