import PegMatcher.Lexical
import PegMatcher.Proofs.Characters
import PegMatcher.Proofs.Nesting
import PegMatcher.Proofs.Outcomes
import PegMatcher.Proofs.Tasks

/-!
# How deep a rule recurses

A rule that takes one letter and then runs itself, or else asks for the end of the input. It recurses exactly as
often as the letter stands in a row: for a run of `n` letters it needs `n + 1` levels, whether or not the run
reaches the end. With fewer levels it is refused behind as many letters as there are levels, and every rule on
the way out gives its letter back; so does every one if what follows the run is not the end.
-/

namespace PegMatcher

set_option autoImplicit false

/-- A letter and then the rule again, or else the end of the input. -/
def lettersToEnd (letter : Char) (id : RuleId) : Expr :=
  .choice [.seq [Lexical.character letter, .rule id], .primitive .endOfInput]

def runLength (letter : Char) (cs : List Char) : Nat := (cs.takeWhile (· = letter)).length

/-- The reply in front of a run of `n` letters, each of which takes a level, as does what follows the run. -/
def lettersReply (ctx : Setting) (name : Option String) (n : Nat) (s : State) : Reply :=
  if ctx.maxDepth ≤ s.depth + n then .raised (.depthExceeded ctx.maxDepth name) s
  else if s.pos + n = ctx.source.size then .returned (.bool true) (s.moveTo ctx.source.size)
  else .returned (.bool false) s

variable {env : Environment} {ctx : Setting} {name : Option String} {letter : Char} {id : RuleId}
  {chars : Array Char} {maxDepth n p : Nat} {s : State}

theorem lettersReply_of_le (h : ctx.maxDepth ≤ s.depth + n) :
    lettersReply ctx name n s = .raised (.depthExceeded ctx.maxDepth name) s := if_pos h

theorem lettersReply_of_end (h : ¬ ctx.maxDepth ≤ s.depth + n) (hend : s.pos + n = ctx.source.size) :
    lettersReply ctx name n s = .returned (.bool true) (s.moveTo ctx.source.size) := by
  rw [lettersReply, if_neg h, if_pos hend]

theorem lettersReply_of_ne (h : ¬ ctx.maxDepth ≤ s.depth + n) (hend : s.pos + n ≠ ctx.source.size) :
    lettersReply ctx name n s = .returned (.bool false) s := by
  rw [lettersReply, if_neg h, if_neg hend]

theorem runLength_cons_self (letter : Char) (cs : List Char) :
    runLength letter (letter :: cs) = runLength letter cs + 1 := by
  simp [runLength]

theorem runLength_cons_of_ne {c : Char} {cs : List Char} (h : c ≠ letter) : runLength letter (c :: cs) = 0 := by
  simp [runLength, h]

namespace Expr

theorem parser_character (hp : s.pos = p) :
    (Lexical.character letter).parser env ⟨.text chars, maxDepth⟩ s =
      if (chars.toList.drop p).head? = some letter then .returned (.bool true) (s.moveTo (p + 1 : Nat))
      else .returned (.bool false) s := by
  have hletter : ∀ c, (Value.char c == Value.char letter) = decide (c = letter) := by
    intro c
    rw [Bool.eq_iff_iff, Value.beq_char_iff, Value.char_inj, decide_eq_true_iff]
  rw [Lexical.character, parser_primitive, Parser.ofPrimitive_test (fun _ _ => rfl) hp, Source.getElem?_text]
  cases (chars.toList.drop p).head? with
  | none => rfl
  | some c => by_cases heq : c = letter <;> simp [State.taking, hletter, heq, hp]

theorem parser_lettersToEnd (ctx : Setting) (s : State) :
    (lettersToEnd letter id).parser env ctx s =
      Parser.choice [.seq [(Lexical.character letter).parser env, (rule id).parser env],
        (primitive .endOfInput).parser env] ctx s := by
  rw [lettersToEnd, parser_choice, List.map_cons, parser_seq]
  rfl

theorem parser_lettersToEnd_other (hp : s.pos = p) (h : (chars.toList.drop p).head? ≠ some letter) :
    (lettersToEnd letter id).parser env ⟨.text chars, maxDepth⟩ s =
      .returned (.bool (decide ((chars.size : Int) ≤ p))) s := by
  rw [parser_lettersToEnd, Parser.choice_pair, Parser.seq_pair, parser_character hp, if_neg h]
  simp only [Value.truthy_bool, Bool.false_eq_true, if_false]
  rw [parser_endOfInput, ← hp]
  rfl

theorem parser_lettersToEnd_letter (hp : s.pos = p) (h : (chars.toList.drop p).head? = some letter) :
    (lettersToEnd letter id).parser env ⟨.text chars, maxDepth⟩ s =
      match (rule id).parser env ⟨.text chars, maxDepth⟩ (s.moveTo (p + 1 : Nat)) with
      | .returned v t =>
        if v.truthy then .returned (.bool true) t else .returned (.bool false) (t.moveTo s.pos)
      | .raised f t => .raised f t := by
  have hlt : ¬ (chars.size : Int) ≤ p := by
    rw [List.head?_drop] at h
    have hp := (List.getElem?_eq_some_iff.mp h).1
    rw [Array.length_toList] at hp
    omega
  rw [parser_lettersToEnd, Parser.choice_pair, Parser.seq_pair, parser_character hp, if_pos h]
  simp only [Value.truthy_bool, if_true]
  cases (rule id).parser env ⟨.text chars, maxDepth⟩ (s.moveTo (p + 1 : Nat)) with
  | raised f t => rfl
  | returned v t =>
    cases hv : v.truthy with
    | true => simp [hv]
    | false =>
      simp only [hv, Value.truthy_bool, Bool.false_eq_true, if_false, parser_endOfInput]
      simp [State.moveTo, Source.size, hp, hlt]

variable (hbody : (env id).body = some (lettersToEnd letter id))

include hbody

theorem parser_rule_other (hp : s.pos = p) (h : (chars.toList.drop p).head? ≠ some letter) (hle : p ≤ chars.size) :
    (rule id).parser env ⟨.text chars, maxDepth⟩ s = lettersReply ⟨.text chars, maxDepth⟩ (env id).name 0 s := by
  rw [parser_rule, Rule.parser, hbody]
  simp only [Parser.nested]
  by_cases hfull : maxDepth ≤ s.depth
  · rw [if_pos hfull, lettersReply_of_le (n := 0) hfull]
  · rw [if_neg hfull, parser_lettersToEnd_other (s := { s with depth := s.depth + 1 }) hp h]
    by_cases hend : p = chars.size
    · have hpos : s.pos = chars.size := by rw [hp, hend]
      have hsize : s.pos + (0 : Nat) = (Source.text chars).size := by simpa [Source.size] using hpos
      rw [lettersReply_of_end (n := 0) hfull hsize, decide_eq_true (by omega)]
      simp [State.moveTo, Source.size, ← hpos]
    · have hsize : s.pos + (0 : Nat) ≠ (Source.text chars).size := by
        simp only [Source.size]
        omega
      rw [lettersReply_of_ne (n := 0) hfull hsize, decide_eq_false (by omega)]
      rfl

/-- A letter takes one level more than what is behind it. -/
theorem parser_rule_letter (hp : s.pos = p) (h : (chars.toList.drop p).head? = some letter)
    (hrest : ∀ t : State, t.pos = (p + 1 : Nat) → (rule id).parser env ⟨.text chars, maxDepth⟩ t =
      lettersReply ⟨.text chars, maxDepth⟩ (env id).name n t) :
    (rule id).parser env ⟨.text chars, maxDepth⟩ s =
      lettersReply ⟨.text chars, maxDepth⟩ (env id).name (n + 1) s := by
  rw [parser_rule, Rule.parser, hbody]
  simp only [Parser.nested]
  by_cases hfull : maxDepth ≤ s.depth
  · rw [if_pos hfull, lettersReply_of_le (n := n + 1) (Nat.le_add_right_of_le hfull)]
  · let t : State := { s with depth := s.depth + 1 }
    rw [if_neg hfull, parser_lettersToEnd_letter (s := t) hp h, hrest _ rfl]
    by_cases hdeep : maxDepth ≤ s.depth + (n + 1)
    · rw [lettersReply_of_le (show maxDepth ≤ s.depth + 1 + n by omega), lettersReply_of_le (n := n + 1) hdeep]
      rfl
    · have hlevels : ¬ maxDepth ≤ s.depth + 1 + n := by omega
      have hplace : ((p + 1 : Nat) : Int) + n = s.pos + (n + 1 : Nat) := by omega
      by_cases hend : s.pos + (n + 1 : Nat) = (Source.text chars).size
      · rw [lettersReply_of_end hlevels (hplace.trans hend), lettersReply_of_end (n := n + 1) hdeep hend]
        rfl
      · rw [lettersReply_of_ne hlevels (ne_of_eq_of_ne hplace hend), lettersReply_of_ne (n := n + 1) hdeep hend]
        rfl

theorem parser_rule_eq (hp : s.pos = p) (hle : p ≤ chars.size) :
    (rule id).parser env ⟨.text chars, maxDepth⟩ s =
      lettersReply ⟨.text chars, maxDepth⟩ (env id).name (runLength letter (chars.toList.drop p)) s := by
  induction hcs : chars.toList.drop p generalizing p s with
  | nil => exact parser_rule_other hbody hp (by simp [hcs]) hle
  | cons c cs ih =>
    have hlt : p < chars.size := by
      have hlength := congrArg List.length hcs
      rw [List.length_drop, Array.length_toList, List.length_cons] at hlength
      omega
    by_cases hc : c = letter
    · rw [hc, runLength_cons_self]
      refine parser_rule_letter hbody hp (by simp [hcs, hc]) fun t ht => ?_
      exact ih ht hlt (drop_of_cons hcs)
    · rw [runLength_cons_of_ne hc]
      exact parser_rule_other hbody hp (by simpa [hcs] using hc) hle

end Expr

/-- At a run of `n` letters the rule is refused if no more than `n` levels are allowed; with more it matches up to
the end of the text, or fails where the run does not reach it. -/
theorem recursion_threshold (hbody : (env id).body = some (lettersToEnd letter id)) {limit requested : Int}
    {chars : List Char} {c : Cursor} {notice? : Option Notice}
    (hstart : Cursor.start limit (.value (.text chars)) p requested = .ok (c, notice?)) (j : Journal) :
    let n := runLength letter (chars.drop p)
    (c.pos = p ∧ c.depth = 0) ∧
    (c.maxDepth ≤ n →
      c.run env (.rule id) j = (.error (.depthExceeded c.maxDepth (env id).name), c, j)) ∧
    (n + 1 ≤ c.maxDepth →
      (p + n = chars.length →
        c.run env (.rule id) j = (.ok (.bool true), { c with pos := chars.length }, j)) ∧
      (p + n ≠ chars.length → c.run env (.rule id) j = (.ok (.bool false), c, j))) := by
  intro n
  obtain ⟨hp, hc⟩ := Cursor.eq_of_start_text hstart
  generalize hm : c.maxDepth = maxDepth at hc
  subst hc
  let s : State := ⟨p, 0, j.trackers, j.trace⟩
  let c : Cursor := ⟨.text chars.toArray, p, maxDepth, 0⟩
  have hrun : (Expr.rule id).parser env c.setting s = lettersReply c.setting (env id).name n s :=
    Expr.parser_rule_eq hbody rfl hp
  refine ⟨⟨rfl, rfl⟩, fun hle => ?_, fun hlt => ?_⟩
  · have hdeep : maxDepth ≤ 0 + n := by omega
    exact Cursor.run_of_raised (hrun.trans (lettersReply_of_le hdeep))
  · have hdeep : ¬ maxDepth ≤ 0 + n := by omega
    refine ⟨fun hend => ?_, fun hend => ?_⟩
    · have hplace : (p : Int) + n = chars.length := by omega
      exact Cursor.run_of_returned (hrun.trans (lettersReply_of_end hdeep hplace))
    · have hplace : (p : Int) + n ≠ chars.length := by omega
      exact Cursor.run_of_returned (hrun.trans (lettersReply_of_ne hdeep hplace))

/-- Two letters stand in front of another one: two levels are too few, and three are enough to fail. -/
theorem recursion_threshold_two :
    let env : Environment := fun _ => ⟨some "G", some (lettersToEnd 't' (.loose 0))⟩
    let input : Input := .value (.text ['t', 't', 'e', 't'])
    let rule : Expr := .rule (.loose 0)
    let c (pos : Int) (maxDepth : Nat) : Cursor := ⟨.text #['t', 't', 'e', 't'], pos, maxDepth, 0⟩
    (env (.loose 0)).body = some (lettersToEnd 't' (.loose 0)) ∧
    (Cursor.start 1000 input 0 2 = .ok (c 0 2, none) ∧
      (c 0 2).run env rule {} = (.error (.depthExceeded 2 (some "G")), c 0 2, {})) ∧
    (Cursor.start 1000 input 0 3 = .ok (c 0 3, none) ∧
      (c 0 3).run env rule {} = (.ok (.bool false), c 0 3, {})) ∧
    (Cursor.start 1000 input 3 2 = .ok (c 3 2, none) ∧
      (c 3 2).run env rule {} = (.ok (.bool true), c 4 2, {})) := by
  intro env input rule c
  have hbody : (env (.loose 0)).body = some (lettersToEnd 't' (.loose 0)) := rfl
  have hrefused : Cursor.start 1000 input (0 : Nat) 2 = .ok (c 0 2, none) := rfl
  have hfailed : Cursor.start 1000 input (0 : Nat) 3 = .ok (c 0 3, none) := rfl
  have hmatched : Cursor.start 1000 input (3 : Nat) 2 = .ok (c 3 2, none) := rfl
  refine ⟨hbody, ⟨hrefused, ?_⟩, ⟨hfailed, ?_⟩, hmatched, ?_⟩
  · exact (recursion_threshold hbody hrefused {}).2.1 (by decide)
  · exact ((recursion_threshold hbody hfailed {}).2.2 (by decide)).2 (by decide)
  · exact ((recursion_threshold hbody hmatched {}).2.2 (by decide)).1 (by decide)

end PegMatcher
