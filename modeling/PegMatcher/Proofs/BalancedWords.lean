import Mathlib.Combinatorics.Enumerative.DyckWord
import PegMatcher.Proofs.LongestMatches

/-!
# Balanced words

An 'a' opens and a 'b' closes. Of two rules one takes a pair of brackets with whatever the other one takes between
them, and the other one takes any number of pairs. A pair never goes on to a longer one, and a balanced word goes
on only with an opening bracket; so each rule may stop where it first can, and what it takes is the longest word.
Every opening bracket costs two levels.
-/

namespace PegMatcher

set_option autoImplicit false

open scoped Computability

namespace Brackets

def letter : DyckStep → Char
  | .U => 'a'
  | .D => 'b'

def word (d : DyckWord) : List Char := d.toList.map letter

/-- The words that open and close brackets as Dyck words go up and down. -/
def balanced : Language Char := {w | ∃ d, word d = w}

/-- The balanced words that are not empty and not made of two such words. -/
def indecomposable : Language Char :=
  {w | w ∈ balanced ∧ w ≠ [] ∧ ∀ u ∈ balanced, ∀ v ∈ balanced, u ≠ [] → v ≠ [] → u ++ v ≠ w}

variable {d d' : DyckWord} {w t : List Char} {x : Char}

theorem letter_injective : Function.Injective letter := by
  intro s s' h
  cases s <;> cases s' <;> first | rfl | cases h

theorem word_zero : word 0 = [] := rfl

theorem word_add (d d' : DyckWord) : word (d + d') = word d ++ word d' := List.map_append

theorem word_nest (d : DyckWord) : word d.nest = 'a' :: (word d ++ ['b']) := by
  simp [word, DyckWord.nest, letter]

theorem word_inj : word d = word d' ↔ d = d' := by
  refine ⟨fun h => DyckWord.ext ?_, fun h => h ▸ rfl⟩
  exact List.map_injective_iff.mpr letter_injective h

theorem word_ne_nil_iff : word d ≠ [] ↔ d ≠ 0 := by
  rw [← word_zero, Ne, word_inj]

theorem exists_step (h : word d' = word d ++ x :: t) :
    ∃ s l, x = letter s ∧ d'.toList = d.toList ++ s :: l := by
  obtain ⟨front, back, hsteps, hfront, hback⟩ := List.map_eq_append_iff.mp h
  obtain ⟨s, l, rfl, rfl, -⟩ := List.map_eq_cons_iff.mp hback
  obtain rfl := List.map_injective_iff.mpr letter_injective hfront
  exact ⟨s, l, rfl, hsteps⟩

theorem count_eq (hw : w ∈ balanced) : w.count 'a' = w.count 'b' := by
  obtain ⟨d, rfl⟩ := hw
  have hopening := List.count_map_of_injective d.toList letter letter_injective .U
  have hclosing := List.count_map_of_injective d.toList letter letter_injective .D
  exact hopening.trans (d.count_U_eq_count_D.trans hclosing.symm)

theorem goesOnWith_balanced : GoesOnWith balanced ['a'] := by
  rintro _ x t ⟨d, rfl⟩ ⟨d', h⟩
  obtain ⟨s, l, rfl, hsteps⟩ := exists_step h
  cases s with
  | U => simp [letter]
  | D =>
    have hcount := d'.count_D_le_count_U (d.toList.length + 1)
    rw [hsteps, List.take_length_add_append] at hcount
    simp [d.count_U_eq_count_D] at hcount

theorem word_nest_mem (d : DyckWord) : word d.nest ∈ indecomposable := by
  refine ⟨⟨_, rfl⟩, word_ne_nil_iff.mpr DyckWord.nest_ne_zero, ?_⟩
  rintro _ ⟨u, rfl⟩ _ ⟨v, rfl⟩ hu hv h
  rw [← word_add, word_inj] at h
  have hout := congrArg DyckWord.outsidePart h
  rw [DyckWord.outsidePart_add (word_ne_nil_iff.mp hu), DyckWord.outsidePart_nest] at hout
  have hnil := List.append_eq_nil_iff.mp (congrArg DyckWord.toList hout)
  exact hv (congrArg (List.map letter) hnil.2)

theorem mem_indecomposable_iff : w ∈ indecomposable ↔ ∃ d : DyckWord, word d.nest = w := by
  refine ⟨?_, fun ⟨d, hd⟩ => hd ▸ word_nest_mem d⟩
  rintro ⟨⟨d, rfl⟩, hne, hwhole⟩
  have hsum := DyckWord.nest_insidePart_add_outsidePart (word_ne_nil_iff.mp hne)
  by_cases hout : d.outsidePart = 0
  · rw [hout, add_zero] at hsum
    exact ⟨_, congrArg word hsum⟩
  · have hparts := hwhole (word d.insidePart.nest) ⟨_, rfl⟩ (word d.outsidePart) ⟨_, rfl⟩
      (word_ne_nil_iff.mpr DyckWord.nest_ne_zero) (word_ne_nil_iff.mpr hout)
    rw [← word_add, hsum] at hparts
    exact absurd rfl hparts

theorem indecomposable_eq : indecomposable = among ['a'] * (balanced * among ['b']) := by
  ext w
  rw [mem_indecomposable_iff]
  constructor
  · rintro ⟨d, rfl⟩
    rw [word_nest]
    exact Language.append_mem_mul (a := ['a']) ⟨'a', by simp, rfl⟩
      (Language.append_mem_mul ⟨d, rfl⟩ ⟨'b', by simp, rfl⟩)
  · intro hw
    obtain ⟨_, ⟨c, hc, rfl⟩, _, hinner, rfl⟩ := Language.mem_mul.mp hw
    obtain ⟨_, ⟨d, rfl⟩, _, ⟨c', hc', rfl⟩, rfl⟩ := Language.mem_mul.mp hinner
    obtain rfl := List.mem_singleton.mp hc
    obtain rfl := List.mem_singleton.mp hc'
    exact ⟨d, word_nest d⟩

theorem kstar_indecomposable : indecomposable∗ = balanced := by
  ext w
  constructor
  · intro hw
    obtain ⟨ws, rfl, hws⟩ := Language.mem_kstar.mp hw
    clear hw
    induction ws with
    | nil => exact ⟨0, word_zero⟩
    | cons w ws ih =>
      obtain ⟨hhead, htail⟩ := List.forall_mem_cons.mp hws
      obtain ⟨d, rfl⟩ := mem_indecomposable_iff.mp hhead
      obtain ⟨d', hd'⟩ := ih htail
      exact ⟨d.nest + d', by rw [word_add, hd', List.flatten_cons]⟩
  · rintro ⟨d, rfl⟩
    induction hsize : d.semilength using Nat.strong_induction_on generalizing d with
    | _ size ih =>
      by_cases hd : d = 0
      · rw [hd, word_zero]
        exact Language.nil_mem_kstar _
      · have hrest := ih _ (hsize ▸ DyckWord.semilength_outsidePart_lt hd) d.outsidePart rfl
        have hle : indecomposable * indecomposable∗ ≤ indecomposable∗ := mul_kstar_le_kstar
        rw [← DyckWord.nest_insidePart_add_outsidePart hd, word_add]
        exact hle (Language.append_mem_mul (word_nest_mem _) hrest)

theorem one_add_balanced : 1 + balanced = balanced := by
  ext w
  simp only [Language.mem_add, Language.mem_one]
  exact ⟨fun h => h.elim (fun hw => ⟨0, hw.symm⟩) id, .inr⟩

theorem nil_notMem_indecomposable : [] ∉ indecomposable := fun h => h.2.1 rfl

/-- The brackets around a word are closed at its end and nowhere before. -/
theorem goesOnWith_indecomposable : GoesOnWith indecomposable [] := by
  intro u x t hu h
  obtain ⟨d, rfl⟩ := mem_indecomposable_iff.mp hu
  obtain ⟨d', hd'⟩ := mem_indecomposable_iff.mp h
  obtain ⟨s, l, -, hsteps⟩ := exists_step hd'
  have hpos : 0 < d.nest.toList.length := by simp [DyckWord.nest]
  have hlt : d.nest.toList.length < d'.nest.toList.length := by simp [hsteps]
  have hnested : d'.nest.IsNested := .nest
  have hcount := hnested.2 hpos hlt
  rw [hsteps, List.take_left, d.nest.count_U_eq_count_D] at hcount
  exact absurd hcount (Nat.lt_irrefl _)

/-- A pair of brackets around what a rule matches, or around nothing. -/
def pairAround (pairs : RuleId) : Expr :=
  .seq [Lexical.character 'a', .opt (.rule pairs), Lexical.character 'b']

section Rules

variable {env : Environment} {pair pairs : RuleId} {chars : Array Char} {levels p : Nat}
variable (hpair : (env pair).body = some (pairAround pairs)) (hpairs : (env pairs).body = some (.star (.rule pair)))

include hpair in
theorem takes_pair (h : p < chars.size → Expr.Takes env levels chars (.rule pairs) balanced (p + 1)) :
    Expr.Takes env (levels + 1) chars (.rule pair) indecomposable p := by
  have hinside : p < chars.size → Expr.Takes env levels chars (.seq [.opt (.rule pairs), Lexical.character 'b'])
      (balanced * among ['b']) (p + 1) := by
    intro hp
    have hopt := (h hp).opt
    rw [one_add_balanced] at hopt
    exact hopt.seq_cons (fun n _ => (Expr.takes_character 'b').seq_one) goesOnWith_balanced
      (avoids_among (by simp))
  rw [indecomposable_eq]
  refine .rule hpair (.seq_cons (Expr.takes_character 'a') (fun n hn => ?_) goesOnWith_among (.nil _))
  have hle := hn.le_length
  rw [List.length_drop, Array.length_toList] at hle
  obtain rfl := hn.eq_one
  exact hinside (by omega)

include hpairs in
theorem takes_pairs (h : ∀ q, p ≤ q → Expr.Takes env levels chars (.rule pair) indecomposable q) :
    Expr.Takes env (levels + 1) chars (.rule pairs) balanced p := by
  rw [← kstar_indecomposable]
  exact .rule hpairs (.star h nil_notMem_indecomposable goesOnWith_indecomposable (.nil _))

include hpair hpairs in
theorem takes_rules : (2 * (chars.size - p) ≤ levels →
      Expr.Takes env (levels + 1) chars (.rule pair) indecomposable p) ∧
    (2 * (chars.size - p) + 1 ≤ levels → Expr.Takes env (levels + 1) chars (.rule pairs) balanced p) := by
  induction hleft : chars.size - p using Nat.strong_induction_on generalizing p levels with
  | _ left ih =>
    have hevery : ∀ q, p ≤ q → ∀ k, 2 * left ≤ k → Expr.Takes env (k + 1) chars (.rule pair) indecomposable q := by
      intro q hq k hk
      refine takes_pair hpair fun hlt => ?_
      obtain ⟨k, rfl⟩ := Nat.exists_eq_add_of_lt (show 0 < k by omega)
      exact (ih (chars.size - (q + 1)) (by omega) rfl).2 (by omega)
    refine ⟨hevery p (Nat.le_refl p) levels, fun hlevels => takes_pairs hpairs fun q hq => ?_⟩
    obtain ⟨k, rfl⟩ := Nat.exists_eq_add_of_lt (show 0 < levels by omega)
    exact hevery q hq _ (by omega)

end Rules

end Brackets

theorem value_of_run {env : Environment} {id : RuleId} {e : Expr} {c c' : Cursor} {j j' : Journal} {v : Value}
    (hbody : (env id).body = some (.star e)) (h : c.run env (.rule id) j = (.ok v, c', j')) : v = .bool true := by
  cases hr : (Expr.rule id).parser env c.setting ⟨c.pos, c.depth, j.trackers, j.trace⟩ with
  | raised f t => cases h.symm.trans (Cursor.run_of_raised hr)
  | returned w t =>
    cases h.symm.trans (Cursor.run_of_returned hr)
    simp only [Expr.parser_rule, Rule.parser, hbody, Expr.parser_star, Parser.nested] at hr
    split at hr
    · cases hr
    · split at hr
      · rename_i hstar
        cases hr
        exact Parser.star_value_eq hstar
      · cases hr

open Brackets in
/-- With two levels for each character left, and two more, the rule for any number of pairs takes the longest
balanced word, and the rule for a pair the one that stands there and cannot be taken apart. -/
theorem balanced_words {env : Environment} {pair pairs : RuleId} (hpair : (env pair).body = some (pairAround pairs))
    (hpairs : (env pairs).body = some (.star (.rule pair))) {limit requested : Int} {chars : List Char} {p : Nat}
    {c : Cursor} {notice? : Option Notice}
    (hstart : Cursor.start limit (.value (.text chars)) p requested = .ok (c, notice?))
    (hdepth : 2 * (chars.length - p) + 2 ≤ c.maxDepth) (j : Journal) :
    (∃ n j', Longest balanced (chars.drop p) (some n) ∧
      c.run env (.rule pairs) j = (.ok (.bool true), { c with pos := (p + n : Nat) }, j')) ∧
    (c.ComesTo env (.rule pair) j .fail ↔ ∀ w ∈ indecomposable, ¬ w <+: chars.drop p) ∧
    ∀ w ∈ indecomposable, w <+: chars.drop p → c.ComesTo env (.rule pair) j (.ok (p + w.length)) := by
  let levels := 2 * (chars.length - p) + 2
  have hpairTakes : Expr.Takes env levels chars.toArray (.rule pair) indecomposable p :=
    (takes_rules hpair hpairs).1 (by simp)
  have hpairsTakes : Expr.Takes env levels chars.toArray (.rule pairs) balanced p :=
    (takes_rules hpair hpairs).2 (by simp)
  obtain ⟨n?, hn, hpairRun⟩ := hpairTakes.comesTo hstart hdepth j
  obtain ⟨m?, hm, hpairsRun⟩ := hpairsTakes.comesTo hstart hdepth j
  obtain ⟨m, rfl⟩ := hm.exists_some ⟨0, word_zero⟩
  have hword : ∀ w ∈ indecomposable, w <+: chars.drop p → c.ComesTo env (.rule pair) j (.ok (p + w.length)) := by
    rintro w hw ⟨rest, hrest⟩
    have hlongest : Longest indecomposable (w ++ rest) (some w.length) :=
      goesOnWith_indecomposable.longest hw fun _ _ => List.not_mem_nil
    rw [hrest] at hlongest
    obtain rfl := hlongest.unique hn
    exact hpairRun
  refine ⟨?_, ⟨fun hfail w hw hpre => ?_, fun hno => ?_⟩, hword⟩
  · cases hpairsRun with
    | @ok v j' _ hrun _ =>
      obtain rfl := value_of_run hpairs hrun
      exact ⟨m, j', hm, hrun⟩
  · cases hfail.unique (hword w hw hpre)
  · obtain rfl := Longest.unique (.missing hno) hn
    exact hpairRun

open Brackets in
/-- The second pair of brackets is not closed: one rule ends in front of it, and the other one fails there. -/
theorem balanced_words_unclosed :
    let pair : RuleId := .loose 1
    let pairs : RuleId := .loose 0
    let chars := ['a', 'b', 'a', 'a', 'b']
    let input : Input := .value (.text chars)
    let c (pos : Int) : Cursor := ⟨.text chars.toArray, pos, 12, 0⟩
    ((balancedRules pair).body = some (pairAround pairs) ∧ (balancedRules pairs).body = some (.star (.rule pair))) ∧
      (Cursor.start 1000 input 0 12 = .ok (c 0, none) ∧ 2 * (chars.length - 0) + 2 ≤ (c 0).maxDepth ∧
        (∃ j', (c 0).run balancedRules (.rule pairs) {} = (.ok (.bool true), c 2, j')) ∧
        (c 0).ComesTo balancedRules (.rule pair) {} (.ok 2)) ∧
      (Cursor.start 1000 input 2 12 = .ok (c 2, none) ∧ 2 * (chars.length - 2) + 2 ≤ (c 2).maxDepth ∧
        (c 2).ComesTo balancedRules (.rule pair) {} .fail) := by
  intro pair pairs chars input c
  have hpair : (balancedRules pair).body = some (pairAround pairs) := rfl
  have hpairs : (balancedRules pairs).body = some (.star (.rule pair)) := rfl
  have hfirst : Cursor.start 1000 input (0 : Nat) 12 = .ok (c 0, none) := rfl
  have hsecond : Cursor.start 1000 input (2 : Nat) 12 = .ok (c 2, none) := rfl
  have hword : ['a', 'b'] ∈ indecomposable := word_nest_mem 0
  have hlongest : Longest balanced chars (some 2) := by
    have hcounts : ∀ n ≤ 5, (chars.take n).count 'a' = (chars.take n).count 'b' → n ≤ 2 := by decide
    refine .found hword.1 ⟨['a', 'a', 'b'], rfl⟩ fun v hv hpre => hcounts v.length hpre.length_le ?_
    rw [← List.prefix_iff_eq_take.mp hpre]
    exact count_eq hv
  have hnone : ∀ w ∈ indecomposable, ¬ w <+: chars.drop 2 := by
    have hcounts : ∀ n ≤ 3, ((chars.drop 2).take n).count 'a' = ((chars.drop 2).take n).count 'b' → n = 0 := by
      decide
    intro w hw hpre
    refine hw.2.1 (List.length_eq_zero_iff.mp (hcounts w.length hpre.length_le ?_))
    rw [← List.prefix_iff_eq_take.mp hpre]
    exact count_eq hw.1
  obtain ⟨⟨n, j', hn, hrun⟩, -, htaken⟩ := balanced_words hpair hpairs hfirst (by decide) {}
  obtain rfl : n = 2 := Option.some.inj (hlongest.unique hn)
  obtain ⟨-, hfail, -⟩ := balanced_words hpair hpairs hsecond (by decide) {}
  exact ⟨⟨hpair, hpairs⟩, ⟨hfirst, by decide, ⟨j', hrun⟩, htaken _ hword ⟨_, rfl⟩⟩,
    hsecond, by decide, hfail.mpr hnone⟩

end PegMatcher
