import PegMatcher.Proofs.Consumption

/-!
# Failing to match is no fault

Every primitive looks before it takes, and the parsers inside an expression leave the cursor inside the
source. So no run asks for an element that is not there: what is left are the faults of comparing, and
those of running rules. On a text, compared with texts, there are only the latter.
-/

namespace PegMatcher

set_option autoImplicit false

variable {env : Environment} {ctx : Setting} {refs : RuleId → Prop} {f : Fault}

/-- Some rule of `refs` is undefined, or was refused. -/
inductive Fault.OfRules (env : Environment) (ctx : Setting) (refs : RuleId → Prop) : Fault → Prop where
  | undefined {id : RuleId} : refs id → (env id).body = none →
      OfRules env ctx refs (.undefinedRule (env id).name)
  | refused {id : RuleId} : refs id → OfRules env ctx refs (.depthExceeded ctx.maxDepth (env id).name)

theorem Fault.OfRules.not_missing (h : f.OfRules env ctx refs) : ¬ f.Missing := by
  intro hm
  cases h <;> cases hm

theorem Fault.OfRules.refused_of_defined (h : f.OfRules env ctx refs)
    (hdefined : ∀ id, refs id → (env id).body ≠ none) :
    ∃ name, f = .depthExceeded ctx.maxDepth name := by
  cases h with
  | undefined hid hnone => exact absurd hnone (hdefined _ hid)
  | refused _ => exact ⟨_, rfl⟩

theorem Source.elementAt_text {chars : Array Char} {pos : Int} {v : Value}
    (h : (Source.text chars).elementAt pos = .ok v) : ∃ c, v = .char c := by
  unfold elementAt at h
  dsimp only at h
  generalize (if pos < 0 then pos + ((text chars).size : Int) else pos) = place at h
  split at h
  · rename_i u hu
    cases h
    split at hu
    · cases hu
    · obtain ⟨c, _, hc⟩ := Option.map_eq_some_iff.mp hu
      exact ⟨c, hc.symm⟩
  · cases h

theorem Value.ordered_texts {a b : Value} (op : Comparison) (ha : a.kind = .text) (hb : b.kind = .text) :
    ∃ answer, ordered op a b = .ok answer := by
  cases a <;> cases ha
  cases b <;> cases hb
  exact ⟨_, by rw [ordered]⟩

/-- Any element of a text can be looked up among the quotes. -/
def Quoting.Textual (qt : Quoting) : Prop :=
  qt.quotes.kind = .text ∨ qt.quotes.kind = .list ∨ qt.quotes.kind = .tuple

theorem Quoting.Textual.opens_char {qt : Quoting} (h : qt.Textual) (c : Char) :
    ∃ answer, qt.opens (.char c) = .ok answer := by
  unfold Textual at h
  unfold opens Value.char
  cases hq : qt.quotes with
  | text all => exact ⟨_, rfl⟩
  | list items => exact ⟨_, rfl⟩
  | tuple items => exact ⟨_, rfl⟩
  | _ =>
    rw [hq] at h
    simp [Value.kind] at h

namespace Primitive

def Textual : Primitive → Prop
  | .range low high => low.kind = .text ∧ high.kind = .text
  | .quoted qt => qt.Textual
  | _ => True

theorem Elementary.textual {m : Primitive} (h : m.Elementary) : m.Textual := by
  cases h with
  | range low high => exact ⟨rfl, rfl⟩
  | _ => trivial

theorem within_texts {low high v : Value} (hlow : low.kind = .text) (hhigh : high.kind = .text)
    (hv : v.kind = .text) : ∃ answer, within low high v = .ok answer := by
  obtain ⟨below, hbelow⟩ := Value.ordered_texts .atMost hlow hv
  obtain ⟨above, habove⟩ := Value.ordered_texts .atMost hv hhigh
  unfold within
  cases below with
  | true => exact ⟨above, by rw [hbelow, habove]⟩
  | false => exact ⟨false, by rw [hbelow]⟩

theorem scan_textual {m : Primitive} {chars : Array Char} {pos : Int} (hm : m.Textual) (h0 : 0 ≤ pos)
    (h : m.scan (.text chars) pos = .error f) : False := by
  have inside : ¬ (pos + (Source.text chars).size < 0 ∧ f.Missing) := by omega
  cases m with
  | any => cases h
  | endOfInput => cases h
  | regex r => cases h
  | literal vs => exact inside (literalFrom_faults vs pos f h)
  | element v => exact inside (step_total_faults h)
  | oneOf members => exact inside (step_total_faults h)
  | range low high =>
    rcases step_faults h with hneg | ⟨v, hv, ht⟩
    · exact inside hneg
    · obtain ⟨c, rfl⟩ := Source.elementAt_text hv
      obtain ⟨answer, hok⟩ := within_texts hm.1 hm.2 (v := .char c) rfl
      rw [hok] at ht
      cases ht
  | quoted qt =>
    simp only [scan, Quoting.scan] at h
    split at h
    · cases h
    · rename_i hlt
      split at h
      · rename_i g hg
        exact absurd (elementAt_faults (by omega) hg).1 (by omega)
      · rename_i v hv
        obtain ⟨c, rfl⟩ := Source.elementAt_text hv
        obtain ⟨answer, hok⟩ := Quoting.Textual.opens_char hm c
        rw [hok] at h
        cases answer <;> cases h

end Primitive

namespace Expr.Built

variable {ok : Primitive → Prop} {e : Expr} {s s' : State}

theorem raised_cases (may : Fault → Prop) (h : e.Built ok refs) (hb : env.Built ok refs)
    (hscan : ∀ matcher (pos : Int) f, ok matcher → 0 ≤ pos → pos ≤ ctx.source.size →
      matcher.scan ctx.source pos = .error f → may f)
    (h0 : 0 ≤ s.pos) (h1 : s.pos ≤ ctx.source.size) (hr : e.parser env ctx s = .raised f s') :
    may f ∨ f.OfRules env ctx refs := by
  have hmoves : (e.parser env).Behaves ctx s.depth .tidy fun f => may f ∨ f.OfRules env ctx refs := by
    refine h.moves hb ?_ (fun id hid hnone => .inr (.undefined hid hnone))
      (fun id hid => .inr (.refused hid)) s.depth
    intro matcher pos g hok hnonneg hle hg
    exact .inl (hscan matcher pos g hok hnonneg hle hg)
  have hreply := hmoves s ⟨h0, h1, rfl⟩
  rw [hr] at hreply
  cases hreply with
  | raised hf => exact hf

theorem raised_unsuited (h : e.Built ok refs) (hb : env.Built ok refs) (h0 : 0 ≤ s.pos)
    (h1 : s.pos ≤ ctx.source.size) (hr : e.parser env ctx s = .raised f s') :
    f.Unsuited ∨ f.OfRules env ctx refs := by
  refine h.raised_cases Fault.Unsuited hb ?_ h0 h1 hr
  intro matcher pos g _ hnonneg _ hg
  rcases Primitive.scan_faults hg with ⟨hneg, _⟩ | hunsuited
  · omega
  · exact hunsuited

theorem raised_textual {chars : Array Char} (h : e.Built Primitive.Textual refs)
    (hb : env.Built Primitive.Textual refs) (hsrc : ctx.source = .text chars) (h0 : 0 ≤ s.pos)
    (h1 : s.pos ≤ ctx.source.size) (hr : e.parser env ctx s = .raised f s') :
    f.OfRules env ctx refs := by
  have hfault : False ∨ f.OfRules env ctx refs := by
    refine h.raised_cases (fun _ => False) hb ?_ h0 h1 hr
    intro matcher pos g hm hnonneg _ hg
    rw [hsrc] at hg
    exact Primitive.scan_textual hm hnonneg hg
  exact hfault.resolve_left id

end Expr.Built

/-- From a place in the source no run of what is put together by the operators asks for an element that is not
there. Its faults are those of comparing and of rules, and on a text those of rules alone. -/
theorem mismatch_is_no_fault (env : Environment) (e : Expr) (ctx : Setting) (s : State)
    (h0 : 0 ≤ s.pos) (h1 : s.pos ≤ ctx.source.size) :
    (env.Plain → e.Plain → ∀ f s', e.parser env ctx s = .raised f s' →
      ¬ f.Missing ∧ (f.Unsuited ∨ f.OfRules env ctx fun _ => True)) ∧
    (∀ chars refs, ctx.source = .text chars → env.Built Primitive.Textual refs →
      e.Built Primitive.Textual refs → ∀ f s', e.parser env ctx s = .raised f s' →
      f.OfRules env ctx refs ∧
      ((∀ id, refs id → (env id).body ≠ none) → ∃ name, f = .depthExceeded ctx.maxDepth name)) ∧
    (∀ r, Lexical.ReadyMade r → r.Plain ∧
      ∀ refs, (∀ qt, r = Lexical.quoted qt → qt.Textual) → r.Built Primitive.Textual refs) ∧
    (∀ ok refs, (∀ m : Primitive, m.Elementary → ok m) → ∀ item separator : Expr,
      item.Built ok refs → separator.Built ok refs →
      (Lexical.delimitedBy item separator).Built ok refs ∧
      (Lexical.delimitedBy item (Lexical.spaced separator)).Built ok refs) ∧
    (∀ p : Nat, Quoting.look ctx.source p = ctx.source.elements[p]?) := by
  refine ⟨?_, ?_, ?_, ?_, Quoting.look_eq _⟩
  · intro hb he f s' hr
    have hfault := he.raised_unsuited hb h0 h1 hr
    refine ⟨?_, hfault⟩
    rcases hfault with hunsuited | hrules
    · exact hunsuited.not_missing
    · exact hrules.not_missing
  · intro chars refs hsrc hb he f s' hr
    have hrules := he.raised_textual hb hsrc h0 h1 hr
    exact ⟨hrules, hrules.refused_of_defined⟩
  · intro r hr
    refine ⟨Lexical.built_readyMade hr _, fun refs hquoted => ?_⟩
    exact Lexical.built_of_elementary hr (fun _ => Primitive.Elementary.textual) hquoted
  · intro ok refs hok item separator hi hs
    exact Lexical.built_delimitedBy hok hi hs

def openStringRules (later : Option Expr) : Environment
  | .loose 0 => ⟨some "open", some (.seq [.notAhead (.primitive (.quoted Lexical.defaultQuoting)),
      .rule (.loose 1)])⟩
  | _ => ⟨some "later", later⟩

theorem built_openStringRules {ok : Primitive → Prop} {later : Option Expr}
    (hok : ok (.quoted Lexical.defaultQuoting))
    (hlater : ∀ body, later = some body → body.Built ok fun _ => True) :
    (openStringRules later).Built ok fun _ => True := by
  intro id body hb
  unfold openStringRules at hb
  split at hb
  · cases hb
    simp [hok]
  · exact hlater body hb

/-- The input ends in the middle of an escape, which is no fault. -/
theorem mismatch_is_no_fault_open_string :
    let start : Expr := .rule (.loose 0)
    let number : Expr := .primitive (.range (.int 0) (.int 9))
    let items : Setting := ⟨.list #[.char '\x22', .char '\\'], 3⟩
    let text : Setting := ⟨.text #['\x22', '\\'], 3⟩
    let s : State := ⟨0, 0, [], #[]⟩
    (0 ≤ s.pos ∧ s.pos ≤ items.source.size ∧ s.pos ≤ text.source.size) ∧
    ((openStringRules (some number)).Plain ∧ start.Plain ∧
      start.parser (openStringRules (some number)) items s =
        .raised (.incomparable .atMost .int .text) s ∧
      ¬ (Fault.incomparable .atMost .int .text).Missing) ∧
    ((openStringRules none).Built Primitive.Textual (fun _ => True) ∧
      start.parser (openStringRules none) text s = .raised (.undefinedRule (some "later")) s ∧
      (Fault.undefinedRule (some "later")).OfRules (openStringRules none) text fun _ => True) ∧
    ((openStringRules (some start)).Built Primitive.Textual (fun _ => True) ∧
      (∀ id, (openStringRules (some start) id).body ≠ none) ∧
      start.parser (openStringRules (some start)) text s =
        .raised (.depthExceeded 3 (some "later")) s ∧
      ∃ name, Fault.depthExceeded 3 (some "later") = .depthExceeded 3 name) := by
  intro start number items text s
  have hquotes : Primitive.Textual (.quoted Lexical.defaultQuoting) := .inr (.inr rfl)
  have hnumber : (openStringRules (some number)).Plain := by
    refine built_openStringRules trivial ?_
    rintro body ⟨⟩
    exact .primitive trivial
  have hnone : (openStringRules none).Built Primitive.Textual fun _ => True :=
    built_openStringRules hquotes nofun
  have hstart : (openStringRules (some start)).Built Primitive.Textual fun _ => True := by
    refine built_openStringRules hquotes ?_
    rintro body ⟨⟩
    exact .rule trivial
  have hdefined : ∀ id, (openStringRules (some start) id).body ≠ none := by
    intro id
    unfold openStringRules
    split <;> nofun
  have hincomparable : start.parser (openStringRules (some number)) items s =
      .raised (.incomparable .atMost .int .text) s := by rfl
  have hundefined : start.parser (openStringRules none) text s =
      .raised (.undefinedRule (some "later")) s := by rfl
  have hrefused : start.parser (openStringRules (some start)) text s =
      .raised (.depthExceeded 3 (some "later")) s := by rfl
  have h := fun later ctx => mismatch_is_no_fault (openStringRules later) start ctx s (by decide)
  refine ⟨by decide, ⟨hnumber, .rule trivial, hincomparable, ?_⟩, ⟨hnone, hundefined, ?_⟩,
    ⟨hstart, hdefined, hrefused, ?_⟩⟩
  · exact ((h _ items (by decide)).1 hnumber (.rule trivial) _ _ hincomparable).1
  · exact ((h _ text (by decide)).2.1 _ _ rfl hnone (.rule trivial) _ _ hundefined).1
  · exact ((h _ text (by decide)).2.1 _ _ rfl hstart (.rule trivial) _ _ hrefused).2 fun id _ =>
      hdefined id

end PegMatcher
