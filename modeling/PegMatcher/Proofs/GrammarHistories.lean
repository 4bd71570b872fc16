import Mathlib.Data.List.Induction
import PegMatcher.Proofs.Definitions
import PegMatcher.Proofs.Nesting

/-!
# Histories of a grammar

What a grammar holds after any requests: names to define or to refer to, questions and matches, whether they
are answered or refused. A name has its place since it was first mentioned, and its body since it was first
defined. What the grammar lists, contains and matches is all read off these.
-/

namespace PegMatcher

set_option autoImplicit false

inductive Request where
  | define (name : String) (body : Operand)
  | refer (name : String)
  | contains (v : Value)
  | list
  | matchAt (name : String) (input : Input) (pos maxDepth : Int)

namespace Request

/-- The name that the request gives a place in the table. -/
def mentioned? : Request → Option String
  | .define name _ => some name
  | .refer name => some name
  | _ => none

def onTable : Request → Grammar → Grammar
  | .define name body, g => (g.define name body).2
  | .refer name, g => g.mention name
  | _, g => g

theorem keys_onTable (r : Request) (g : Grammar) :
    (r.onTable g).keys = (r.mentioned?.map fun name => (g.mention name).keys).getD g.keys := by
  cases r with
  | define name body => exact g.keys_define name body
  | refer name => rfl
  | contains | list | matchAt => rfl

theorem body?_onTable {r : Request} {g : Grammar} {name : String} {body : Expr} :
    (r.onTable g).body? name = some body ↔ g.body? name = some body ∨
      ∃ p, r = .define name p ∧ g.body? name = none ∧ p.convert = .ok body := by
  cases r with
  | define other p =>
    have hrule := congrArg Rule.body (g.rule_define other p name)
    by_cases hname : name = other
    · subst hname
      rw [if_pos rfl] at hrule
      have hbody : (g.define name p).2.body? name = ((g.rule name).defined p).body := hrule
      simp only [onTable, hbody, Rule.body_defined_iff, define.injEq, true_and, exists_eq_left',
        Grammar.rule]
    · rw [if_neg hname] at hrule
      have hbody : (g.define other p).2.body? name = g.body? name := hrule
      simp [onTable, hbody, Ne.symm hname]
  | refer other => simp [onTable]
  | contains | list | matchAt => simp [onTable]

end Request

namespace Grammar

/-- The table after requests. -/
def after (g : Grammar) (history : List Request) : Grammar := history.foldl (fun g r => r.onTable g) g

theorem after_append (g : Grammar) (history : List Request) (r : Request) :
    g.after (history ++ [r]) = r.onTable (g.after history) := by
  rw [after, List.foldl_append]
  rfl

theorem nodup_keys_after (history : List Request) : (empty.after history).keys.Nodup := by
  induction history using List.reverseRecOn with
  | nil => exact List.nodup_nil
  | append_singleton history r ih =>
    rw [after_append, Request.keys_onTable]
    cases r.mentioned? with
    | none => exact ih
    | some name => exact nodup_keys_mention ih name

/-- The names of a table stand in the order of their first mention. -/
theorem keys_after (history : List Request) :
    (empty.after history).keys = (history.filterMap Request.mentioned?).eraseDups := by
  induction history using List.reverseRecOn with
  | nil => rfl
  | append_singleton history r ih =>
    rw [after_append, Request.keys_onTable, List.filterMap_append]
    cases hr : r.mentioned? with
    | none => simpa [hr] using ih
    | some name =>
      have hlast : [r].filterMap Request.mentioned? = [name] := by rw [List.filterMap_cons_some hr]; rfl
      rw [hlast, eraseDups_concat, ← ih, Option.map_some, Option.getD_some, keys_mention]
      simp only [ih, List.mem_eraseDups]

end Grammar

namespace Session

variable {s : Session} {index : Nat} {name : String} {body : Expr}

def ask (index : Nat) : Request → SessionM Unit
  | .define name p => defineSlot index name p
  | .refer name => mentionSlot index name
  | .contains _ | .list => return
  | .matchAt name input pos maxDepth => do
    let s ← get
    let _ ← task ((s.grammarAt index).matchAt index s.environment s.limit name input pos maxDepth)
    return

/-- The session after requests, each of which is answered or refused. -/
def asked (s : Session) (index : Nat) (history : List Request) : Session :=
  history.foldl (fun s r => s.behind (ask index r)) s

theorem asked_append (s : Session) (index : Nat) (history : List Request) (r : Request) :
    s.asked index (history ++ [r]) = (s.asked index history).behind (ask index r) := by
  rw [asked, List.foldl_append]
  rfl

theorem behind_ask_matchAt (s : Session) (index : Nat) (name : String) (input : Input) (pos maxDepth : Int) :
    s.behind (ask index (.matchAt name input pos maxDepth)) =
      s.behind (task ((s.grammarAt index).matchAt index s.environment s.limit name input pos maxDepth)) := by
  rw [ask, behind_bind_ok (run_get s)]
  exact behind_discard s _

theorem behind_ask (s : Session) (index : Nat) (r : Request) :
    ∃ journal, s.behind (ask index r) =
      { s.setTable index (r.onTable (s.grammarAt index)) with journal } := by
  cases r with
  | define name p => exact behind_define s (.slot index name) p
  | refer name => exact ⟨s.journal, rfl⟩
  | contains | list =>
    refine ⟨s.journal, ?_⟩
    simp only [Request.onTable, setTable_self]
    rfl
  | matchAt name input pos maxDepth =>
    simp only [Request.onTable, setTable_self, behind_ask_matchAt]
    exact behind_task s _

/-- Requests do to their table what they do one after the other, and apart from that at most to the journal. -/
theorem asked_eq (h : index < s.grammars.size) (history : List Request) :
    ∃ journal, s.asked index history =
      { s.setTable index ((s.grammarAt index).after history) with journal } := by
  induction history using List.reverseRecOn with
  | nil =>
    refine ⟨s.journal, ?_⟩
    simp only [Grammar.after, List.foldl_nil, setTable_self]
    rfl
  | append_singleton history r ih =>
    obtain ⟨journal, hbefore⟩ := ih
    obtain ⟨journal', hask⟩ := behind_ask (s.asked index history) index r
    have htable : (s.asked index history).grammarAt index = (s.grammarAt index).after history := by
      rw [hbefore]
      exact grammarAt_setTable h _
    have hset (g : Grammar) :
        (s.asked index history).setTable index g = { s.setTable index g with journal } := by
      rw [hbefore]
      exact congrArg (fun u : Session => { u with journal }) (setTable_setTable s index _ g)
    refine ⟨journal', ?_⟩
    rw [asked_append, hask, htable, hset, Grammar.after_append]

theorem grammarAt_asked (h : index < s.grammars.size) (history : List Request) :
    (s.asked index history).grammarAt index = (s.grammarAt index).after history := by
  obtain ⟨journal, hasked⟩ := asked_eq h history
  rw [hasked]
  exact grammarAt_setTable h _

theorem grammarNames_asked (h : index < s.grammars.size) (history : List Request) :
    (s.asked index history).grammarNames = s.grammarNames := by
  obtain ⟨journal, hasked⟩ := asked_eq h history
  rw [hasked]
  rfl

/-- Among the requests is a definition of the name that was not refused, and its parser is the body. -/
def Defines (s : Session) (index : Nat) (history : List Request) (name : String) (body : Expr) : Prop :=
  ∃ earlier p u, earlier ++ [.define name p] <+: history ∧
    (defineSlot index name p).run (s.asked index earlier) = .ok () u ∧ p.convert = .ok body

theorem exists_run_defineSlot_iff {p : Operand} : (∃ u, (defineSlot index name p).run s = .ok () u) ↔
    (s.grammarAt index).body? name = none ∧ ∃ e, p.convert = .ok e := by
  constructor
  · rintro ⟨u, hrun⟩
    cases hd : ((s.grammarAt index).rule name).define p with
    | error f => cases hrun.symm.trans (run_defineSlot_error hd)
    | ok rule =>
      obtain ⟨hnone, e, hp, _⟩ := Rule.define_eq_ok_iff.mp hd
      exact ⟨hnone, e, hp⟩
  · rintro ⟨hnone, e, hp⟩
    exact ⟨_, run_defineSlot_ok (Rule.define_eq_ok_iff.mpr ⟨hnone, e, hp, rfl⟩)⟩

theorem defines_append_iff {history : List Request} {r : Request} :
    s.Defines index (history ++ [r]) name body ↔ s.Defines index history name body ∨
      ∃ p, r = .define name p ∧ ((s.asked index history).grammarAt index).body? name = none ∧
        p.convert = .ok body := by
  simp only [Defines, List.prefix_concat_iff]
  constructor
  · rintro ⟨earlier, p, u, hlast | hearlier, hrun, hp⟩
    · obtain ⟨rfl, hr⟩ := List.append_inj' hlast rfl
      obtain rfl := (List.cons.inj hr).1
      exact .inr ⟨p, rfl, (exists_run_defineSlot_iff.mp ⟨u, hrun⟩).1, hp⟩
    · exact .inl ⟨earlier, p, u, hearlier, hrun, hp⟩
  · rintro (⟨earlier, p, u, hearlier, hrun, hp⟩ | ⟨p, rfl, hnone, hp⟩)
    · exact ⟨earlier, p, u, .inr hearlier, hrun, hp⟩
    · obtain ⟨u, hrun⟩ := exists_run_defineSlot_iff.mpr ⟨hnone, body, hp⟩
      exact ⟨history, p, u, .inl rfl, hrun, hp⟩

/-- After requests to an empty grammar, its bodies are those of the successful definitions. -/
theorem defines_iff (h : s.grammars[index]? = some .empty) (history : List Request) :
    s.Defines index history name body ↔
      ((s.asked index history).grammarAt index).body? name = some body := by
  obtain ⟨hindex, _⟩ := Array.getElem?_eq_some_iff.mp h
  induction history using List.reverseRecOn with
  | nil =>
    have hempty : s.grammarAt index = .empty := by rw [grammarAt, h]; rfl
    constructor
    · rintro ⟨earlier, p, u, hprefix, _⟩
      simp at hprefix
    · intro hbody
      have hnone : (s.grammarAt index).body? name = none := by rw [hempty]; rfl
      cases hnone.symm.trans hbody
  | append_singleton history r ih =>
    rw [defines_append_iff, ih, grammarAt_asked hindex, grammarAt_asked hindex, Grammar.after_append,
      Request.body?_onTable]

theorem run_grammarIndex {key : String} (h : s.grammarNames.lookup key = some index) :
    (grammarIndex key).run s = .ok index s := by
  rw [grammarIndex, run_bind_ok (run_get s)]
  simp only [h]
  rfl

theorem run_defineSlot_defined (h : (s.grammarAt index).body? name = some body) (p : Operand) :
    (defineSlot index name p).run s = .error (.fault (.ruleDefinedTwice (some name))) s := by
  rw [run_defineSlot, Grammar.define_of_body? h, setTable_self]
  rfl

theorem run_list {key : String} (h : s.grammarNames.lookup key = some index) :
    (performOnGrammar key .list).run s = .ok (.grammar (s.grammarAt index)) s := by
  rw [performOnGrammar, run_bind_ok (run_grammarIndex h)]
  rfl

theorem run_contains {key : String} (h : s.grammarNames.lookup key = some index) (v : Value) :
    ∃ b, (performOnGrammar key (.contains v)).run s = .ok (.flag b) s ∧
      (b = true ↔ ∃ name, (s.grammarAt index).contains name = true ∧ v = .text name.toList) := by
  rw [performOnGrammar, run_bind_ok (run_grammarIndex h)]
  cases v with
  | text chars =>
    refine ⟨(s.grammarAt index).contains (String.ofList chars), rfl, fun hb => ⟨_, hb, by simp⟩, ?_⟩
    rintro ⟨name, hname, heq⟩
    obtain rfl := Value.text.inj heq
    rwa [String.ofList_toList]
  | _ =>
    refine ⟨false, rfl, fun hb => absurd hb Bool.false_ne_true, ?_⟩
    rintro ⟨_, _, heq⟩
    cases heq

theorem run_matchAt_missing {key : String} (h : s.grammarNames.lookup key = some index)
    (hname : ¬ (s.grammarAt index).contains name = true) (input : Input) (pos maxDepth : Int) :
    (performOnGrammar key (.matchAt name input pos maxDepth)).run s =
      .error (.fault (.missingRule name)) s := by
  have hmissing : ((s.grammarAt index).matchAt index s.environment s.limit name input pos maxDepth).run
      s.journal = .error (.fault (.missingRule name)) s.journal := by
    rw [Grammar.matchAt, if_pos hname]
    rfl
  rw [performOnGrammar, run_bind_ok (run_grammarIndex h), run_bind_ok (run_get s)]
  apply run_bind_error
  rw [run_task, hmissing]

theorem run_build_slot {key : String} (h : s.grammarNames.lookup key = some index) (name : String) :
    (Blueprint.slot key name).build.run s =
      .ok (.parser (.rule (.slot index name))) (s.setTable index ((s.grammarAt index).mention name)) := by
  rw [Blueprint.build, run_bind_ok (run_grammarIndex h)]
  rfl

/-- After any requests to an empty grammar a name stands for its first successful definition wherever it is
referred to, and what is listed, contained and matched is what is defined. -/
theorem grammar_keeps_first_definitions {key : String} (hkey : s.grammarNames.lookup key = some index)
    (hempty : s.grammars[index]? = some .empty) (history : List Request) :
    let t := s.asked index history
    let g := t.grammarAt index
    let firsts := (history.filterMap Request.mentioned?).eraseDups
    ((performOnGrammar key .list).run t = .ok (.grammar g) t ∧ g.size = g.names.length) ∧
    (g.names.Nodup ∧ g.names.Sublist firsts ∧
      ∀ name, name ∈ g.names ↔ ∃ body, s.Defines index history name body) ∧
    (g.undefined.Nodup ∧ g.undefined.Sublist firsts ∧
      ∀ name, name ∈ g.undefined ↔ name ∈ firsts ∧ name ∉ g.names) ∧
    (∀ v, ∃ b, (performOnGrammar key (.contains v)).run t = .ok (.flag b) t ∧
      (b = true ↔ ∃ name ∈ g.names, v = .text name.toList)) ∧
    (∀ name body, s.Defines index history name body →
      g.body? name = some body ∧
      (∀ p, (defineSlot index name p).run t = .error (.fault (.ruleDefinedTwice (some name))) t) ∧
      ∀ u u' key' p, u.grammarNames.lookup key' = some index →
        (Blueprint.slot key' name).build.run u = .ok p u' →
        ∃ e, p.convert = .ok e ∧ e.parser t.environment = .nested (some name) (body.parser t.environment)) ∧
    ∀ name input pos maxDepth, name ∉ g.names →
      (performOnGrammar key (.matchAt name input pos maxDepth)).run t =
        .error (.fault (.missingRule name)) t := by
  intro t g firsts
  obtain ⟨hindex, _⟩ := Array.getElem?_eq_some_iff.mp hempty
  have hkey' : t.grammarNames.lookup key = some index := by rw [grammarNames_asked hindex, hkey]
  have htable : g = Grammar.empty.after history := by
    have hbefore : s.grammarAt index = .empty := by rw [grammarAt, hempty]; rfl
    rw [← hbefore]
    exact grammarAt_asked hindex history
  have hnodup : g.keys.Nodup := htable ▸ Grammar.nodup_keys_after history
  have hkeys : g.keys = firsts := htable ▸ Grammar.keys_after history
  refine ⟨⟨?_, g.size_eq⟩, ⟨?_, ?_, fun name => ?_⟩, ⟨?_, ?_, fun name => ?_⟩, fun v => ?_,
    fun name body hdefines => ⟨?_, fun p => ?_, fun u u' key' p hlookup hbuilt => ?_⟩,
    fun name input pos maxDepth hname => ?_⟩
  · exact run_list hkey'
  · exact Grammar.names_eq hnodup ▸ hnodup.filter _
  · exact Grammar.names_eq hnodup ▸ hkeys ▸ List.filter_sublist
  · rw [Grammar.mem_names_iff hnodup, Grammar.contains, Option.isSome_iff_exists]
    exact exists_congr fun body => (defines_iff hempty history).symm
  · exact Grammar.undefined_eq hnodup ▸ hnodup.filter _
  · exact Grammar.undefined_eq hnodup ▸ hkeys ▸ List.filter_sublist
  · rw [Grammar.mem_undefined_iff hnodup, hkeys]
  · obtain ⟨b, hrun, hb⟩ := run_contains hkey' v
    refine ⟨b, hrun, ?_⟩
    simp only [Grammar.mem_names_iff hnodup]
    exact hb
  · exact (defines_iff hempty history).mp hdefines
  · exact run_defineSlot_defined ((defines_iff hempty history).mp hdefines) p
  · cases hbuilt.symm.trans (run_build_slot hlookup name)
    have hbody : (t.environment (.slot index name)).body = some body :=
      (defines_iff hempty history).mp hdefines
    refine ⟨_, rfl, ?_⟩
    rw [Expr.parser_rule, Rule.parser, hbody]
    rfl
  · have hmissing : ¬ g.contains name = true := fun h => hname ((Grammar.mem_names_iff hnodup).mpr h)
    exact run_matchAt_missing hkey' hmissing input pos maxDepth

/-- `b` is referred to before it is defined and not defined again, and the definition of `a` is refused. -/
theorem grammar_keeps_first_definitions_refused :
    let s : Session := { grammars := #[.empty], grammarNames := [("g", 0)] }
    let history : List Request := [.refer "b", .define "a" (.value (.int 5)), .define "b" (.ofString "x"),
      .matchAt "a" (.value (.text ['x'])) 0 1, .define "b" (.ofString "y")]
    let t := s.asked 0 history
    s.Defines 0 history "b" (.ofText ['x']) ∧ (t.grammarAt 0).body? "b" = some (.ofText ['x']) ∧
      (t.grammarAt 0).names = ["b"] ∧ (t.grammarAt 0).undefined = ["a"] ∧
      (performOnGrammar "g" (.matchAt "a" (.value (.text ['x'])) 0 1)).run t =
        .error (.fault (.missingRule "a")) t := by
  intro s history t
  have hkey : s.grammarNames.lookup "g" = some 0 := rfl
  have hempty : s.grammars[0]? = some .empty := rfl
  have htable : t.grammarAt 0 = ⟨[("b", some (.ofText ['x'])), ("a", none)]⟩ :=
    (grammarAt_asked Nat.one_pos history).trans rfl
  have hdefines : s.Defines 0 history "b" (.ofText ['x']) := by
    rw [defines_iff hempty, htable]
    rfl
  have hnames : (t.grammarAt 0).names = ["b"] := by
    rw [htable]
    rfl
  have hundefined : (t.grammarAt 0).undefined = ["a"] := by
    rw [htable]
    rfl
  obtain ⟨_, _, _, _, hdefined, hmissing⟩ := grammar_keeps_first_definitions hkey hempty history
  have hbody := (hdefined "b" _ hdefines).1
  have hrefused := hmissing "a" (.value (.text ['x'])) 0 1 (by rw [hnames]; decide)
  exact ⟨hdefines, hbody, hnames, hundefined, hrefused⟩

end Session

end PegMatcher
