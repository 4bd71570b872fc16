import PegMatcher.Proofs.Answers
import PegMatcher.Proofs.Characters
import PegMatcher.Proofs.Locality
import PegMatcher.Proofs.Recognition
import PegMatcher.Proofs.Words

/-!
# Expressions that take the longest word

A choice is settled by its first match and a repetition never gives anything back, so an expression need not
match the words of the language it is read as. It does if each part takes the longest word of a language and
these languages fit together: a sequence, if no word of a part can go on as those of the next begin; a
choice, if no word of a later part goes on a word of an earlier one.
-/

namespace PegMatcher

set_option autoImplicit false

open scoped Computability

def Outcome.behind (p : Nat) : Option Nat → Outcome
  | some n => .ok (p + n)
  | none => .fail

theorem Outcome.behind_map (p n : Nat) (m? : Option Nat) : behind p (m?.map (n + ·)) = behind (p + n) m? := by
  cases m? with
  | none => rfl
  | some m => exact congrArg Outcome.ok (Nat.add_assoc p n m).symm

variable {env : Environment} {e : Expr} {es : List Expr} {L K : Language Char} {ds : List Char}
  {m : Primitive} {test : Value → Except Fault Bool} {levels p : Nat} {chars : Array Char}

namespace Expr

/-- At a place of a text the longest word of a language is taken, with at most so many rules inside one another. -/
def Takes (env : Environment) (levels : Nat) (chars : Array Char) (e : Expr) (L : Language Char)
    (p : Nat) : Prop :=
  ∃ n?, Longest L (chars.toList.drop p) n? ∧ Derives env (.text chars) levels e p (.behind p n?)

/-- At every place of a text the longest word of a language is taken that stands there. -/
def Recognises (env : Environment) (e : Expr) (L : Language Char) : Prop :=
  ∀ (chars : Array Char) (p : Nat), ∃ n?, Longest L (chars.toList.drop p) n? ∧
    Derives env (.text chars) 0 e p (.behind p n?)

/-- A primitive that tests one element takes a character among some if the test is for these. -/
theorem takes_primitive (hscan : ∀ src pos, m.scan src pos = Primitive.step test src pos)
    (htest : ∀ c, test (.char c) = .ok (decide (c ∈ ds))) :
    Takes env levels chars (.primitive m) (among ds) p := by
  unfold Takes
  have hx := Source.getElem?_text chars p
  have hscan := hscan (.text chars) p
  cases hdrop : chars.toList.drop p with
  | nil =>
    rw [hdrop] at hx
    rw [Primitive.step_of_none hx] at hscan
    obtain ⟨happ, hno⟩ := Primitive.scan_eq_none_iff.mp hscan
    exact ⟨none, longest_among_none nofun, .unmatched happ hno⟩
  | cons c rest =>
    rw [hdrop] at hx
    rw [Primitive.step_of_some hx, htest] at hscan
    by_cases hc : c ∈ ds
    · rw [decide_eq_true hc] at hscan
      obtain ⟨q, hq, hends⟩ := Primitive.exists_ends hscan
      obtain rfl : p + 1 = q := by omega
      exact ⟨some 1, goesOnWith_among.longest ⟨c, hc, rfl⟩ fun _ _ => List.not_mem_nil, .matched hends⟩
    · rw [decide_eq_false hc] at hscan
      obtain ⟨happ, hno⟩ := Primitive.scan_eq_none_iff.mp hscan
      refine ⟨none, longest_among_none ?_, .unmatched happ hno⟩
      rintro _ ⟨⟩
      exact hc

theorem recognises_primitive (hscan : ∀ src pos, m.scan src pos = Primitive.step test src pos)
    (htest : ∀ c, test (.char c) = .ok (decide (c ∈ ds))) : Recognises env (.primitive m) (among ds) :=
  fun _ _ => takes_primitive hscan htest

theorem takes_character (c : Char) : Takes env levels chars (Lexical.character c) (among [c]) p := by
  refine takes_primitive (fun _ _ => rfl) fun d => congrArg Except.ok (Bool.eq_iff_iff.mpr ?_)
  rw [Value.beq_char_iff, Value.char_inj, decide_eq_true_iff, List.mem_singleton]

theorem recognises_character (c : Char) : Recognises env (Lexical.character c) (among [c]) :=
  fun _ _ => takes_character c

theorem recognises_anyOf (ds : List Char) : Recognises env (Lexical.anyOf ds) (among ds) := by
  refine recognises_primitive (fun _ _ => rfl) fun d => congrArg Except.ok (Bool.eq_iff_iff.mpr ?_)
  rw [Value.any_beq_char_iff, decide_eq_true_iff, List.mem_map]
  simp only [Value.char_inj, exists_eq_right]

theorem recognises_between {low high : Char} (h : ∀ c, c ∈ ds ↔ low ≤ c ∧ c ≤ high) :
    Recognises env (Lexical.between low high) (among ds) := by
  refine recognises_primitive (fun _ _ => rfl) fun c => ?_
  unfold Primitive.within
  rw [Value.atMost_char, Value.atMost_char]
  by_cases hlow : low ≤ c
  · simp [h, hlow]
  · simp [h, hlow]

theorem spelt_iff {w : List Char} : (∀ i v, (w.map Value.char)[i]? = some v →
    ∃ x, (Source.text chars).elements[p + i]? = some x ∧ (x == v) = true) ↔ w <+: chars.toList.drop p := by
  have helement (i : Nat) : (Source.text chars).elements[p + i]? = (chars.toList.drop p)[i]?.map Value.char := by
    rw [Source.elements, List.getElem?_map, List.getElem?_drop]
  simp only [helement, List.prefix_iff_getElem?]
  constructor
  · intro h i hi
    obtain ⟨x, hx, hv⟩ := h i (.char w[i]) (by simp [hi])
    obtain ⟨c, hc, rfl⟩ := Option.map_eq_some_iff.mp hx
    rw [hc, Value.char_inj.mp (Value.beq_char_iff.mp hv)]
  · intro h i v hv
    rw [List.getElem?_map] at hv
    obtain ⟨c, hc, rfl⟩ := Option.map_eq_some_iff.mp hv
    obtain ⟨hi, rfl⟩ := List.getElem?_eq_some_iff.mp hc
    exact ⟨.char w[i], by rw [h i hi, Option.map_some], Value.beq_char_iff.mpr rfl⟩

theorem recognises_ofText (w : List Char) : Recognises env (.ofText w) {w} := by
  unfold Expr.ofText
  split
  · rw [← among_singleton]
    exact recognises_character _
  · intro chars p
    by_cases hw : w <+: chars.toList.drop p
    · refine ⟨some w.length, longest_singleton hw, .matched ?_⟩
      have hends := Primitive.Ends.literal (spelt_iff.mpr hw)
      rwa [List.length_map] at hends
    · refine ⟨none, longest_singleton_none hw, .unmatched trivial fun q hq => hw ?_⟩
      cases hq with
      | literal h => exact spelt_iff.mp h

theorem Takes.seq_one (h : Takes env levels chars e L p) : Takes env levels chars (.seq [e]) L p := by
  obtain ⟨n?, hn, hd⟩ := h
  refine ⟨n?, hn, ?_⟩
  cases n? with
  | none => exact .seqFail hd
  | some n => exact .seqNext hd .seqNil

/-- The parts behind the first one have to take their word only where that one ends. -/
theorem Takes.seq_cons (h : Takes env levels chars e L p)
    (hes : ∀ n, Longest L (chars.toList.drop p) (some n) → Takes env levels chars (.seq es) K (p + n))
    (hL : GoesOnWith L ds) (hK : Avoids K ds) : Takes env levels chars (.seq (e :: es)) (L * K) p := by
  obtain ⟨n?, hn, hd⟩ := h
  cases n? with
  | none => exact ⟨none, hn.mul_missing K, .seqFail hd⟩
  | some n =>
    obtain ⟨m?, hm, hds⟩ := hes n hn
    rw [← List.drop_drop] at hm
    exact ⟨_, hn.mul hL hK hm, Outcome.behind_map p n m? ▸ .seqNext hd hds⟩

theorem Takes.opt (h : Takes env levels chars e L p) : Takes env levels chars (.opt e) (1 + L) p := by
  obtain ⟨n?, hn, hd⟩ := h
  refine ⟨_, hn.optional, ?_⟩
  cases n? with
  | none => exact .optFail hd
  | some n => exact .optOk hd

theorem Takes.star (h : ∀ q, p ≤ q → Takes env levels chars e L q) (hnil : [] ∉ L)
    (hL : GoesOnWith L ds) (hds : Avoids L ds) : Takes env levels chars (.star e) L∗ p := by
  induction hleft : chars.size - p using Nat.strong_induction_on generalizing p with
  | _ left ih =>
    obtain ⟨n?, hn, hd⟩ := h p (Nat.le_refl p)
    rw [← Language.one_add_self_mul_kstar_eq_kstar]
    cases n? with
    | none => exact ⟨_, (hn.mul_missing L∗).optional, .starFail hd⟩
    | some n =>
      have hpos := hn.pos hnil
      have hle := hn.le_length
      rw [List.length_drop, Array.length_toList] at hle
      have hlater : ∀ q, p + n ≤ q → Takes env levels chars e L q := fun q hq => h q (by omega)
      obtain ⟨m?, hm, hrest⟩ := ih _ (by omega) hlater rfl
      rw [← List.drop_drop] at hm
      obtain ⟨m, rfl⟩ := hm.exists_some (Language.nil_mem_kstar L)
      refine ⟨_, (hn.mul hL hds.kstar hm).optional, .starNext hd (by omega) ?_⟩
      exact Outcome.behind_map p n (some m) ▸ hrest

theorem Takes.rule {id : RuleId} {body : Expr} (hbody : (env id).body = some body)
    (h : Takes env levels chars body L p) : Takes env (levels + 1) chars (.rule id) L p := by
  obtain ⟨n?, hn, hd⟩ := h
  exact ⟨n?, hn, .rule hbody hd⟩

theorem Recognises.seq_one (h : Recognises env e L) : Recognises env (.seq [e]) L :=
  fun chars p => Takes.seq_one (h chars p)

theorem Recognises.seq_cons (h : Recognises env e L) (hes : Recognises env (.seq es) K)
    (hL : GoesOnWith L ds) (hK : Avoids K ds) : Recognises env (.seq (e :: es)) (L * K) :=
  fun chars p => Takes.seq_cons (h chars p) (fun n _ => hes chars (p + n)) hL hK

theorem Recognises.choice_one (h : Recognises env e L) : Recognises env (.choice [e]) L := by
  intro chars p
  obtain ⟨n?, hn, hd⟩ := h chars p
  refine ⟨n?, hn, ?_⟩
  cases n? with
  | none => exact .choiceNext hd .choiceNil
  | some n => exact .choiceFirst hd

theorem Recognises.choice_cons (h : Recognises env e L) (hes : Recognises env (.choice es) K)
    (hK : Outlasts L K) : Recognises env (.choice (e :: es)) (L + K) := by
  intro chars p
  obtain ⟨n?, hn, hd⟩ := h chars p
  cases n? with
  | none =>
    obtain ⟨m?, hm, hds⟩ := hes chars p
    exact ⟨m?, hn.add_missing hm, .choiceNext hd hds⟩
  | some n => exact ⟨some n, hn.add_found hK, .choiceFirst hd⟩

theorem Recognises.opt (h : Recognises env e L) : Recognises env (.opt e) (1 + L) :=
  fun chars p => Takes.opt (h chars p)

theorem Recognises.star (h : Recognises env e L) (hnil : [] ∉ L) (hL : GoesOnWith L ds)
    (hds : Avoids L ds) : Recognises env (.star e) L∗ :=
  fun chars p => Takes.star (fun q (_ : p ≤ q) => h chars q) hnil hL hds

theorem Recognises.plus (h : Recognises env e L) (hnil : [] ∉ L) (hL : GoesOnWith L ds)
    (hds : Avoids L ds) : Recognises env (.plus e) (L * L∗) := by
  intro chars p
  obtain ⟨n?, hn, hd⟩ := h chars p
  cases n? with
  | none => exact ⟨none, hn.mul_missing _, .plusFail hd⟩
  | some n =>
    obtain ⟨m?, hm, hds'⟩ := h.star hnil hL hds chars (p + n)
    rw [← List.drop_drop] at hm
    exact ⟨_, hn.mul hL hds.kstar hm, Outcome.behind_map p n m? ▸ .plusNext hd hds'⟩

theorem Recognises.seq_among (h : Recognises env e (among ds)) (hes : Recognises env (.seq es) K) :
    Recognises env (.seq (e :: es)) (among ds * K) :=
  h.seq_cons hes goesOnWith_among (Avoids.nil K)

theorem Recognises.choice_among {es' : List Char} (h : Recognises env e (among ds))
    (hes : Recognises env (.choice es) (among es')) :
    Recognises env (.choice (e :: es)) (among (ds ++ es')) := by
  rw [among_append]
  exact h.choice_cons hes outlasts_among

theorem Recognises.star_among (h : Recognises env e (among ds)) : Recognises env (.star e) (among ds)∗ :=
  h.star nil_notMem_among goesOnWith_among (Avoids.nil _)

theorem Recognises.plus_among (h : Recognises env e (among ds)) : Recognises env (.plus e) (runs ds) :=
  h.plus nil_notMem_among goesOnWith_among (Avoids.nil _)

end Expr

theorem Reply.Tells.stop?_eq {src : Source} {s : State} {p : Nat} {n? : Option Nat} {r : Reply}
    (h : r.Tells src s (.behind p n?)) : r.stop? = .ok (n?.map fun n => ((p + n : Nat) : Int)) := by
  cases n? with
  | none =>
    cases h with
    | fail hv _ _ => simp [stop?, hv]
  | some n =>
    cases h with
    | ok hv _ hq => simp [stop?, hv, hq]

namespace Expr

variable {chars : List Char} {p : Nat}

/-- A run on a new cursor takes the longest word if the cursor has the levels for it. -/
theorem Takes.comesTo {limit requested : Int} {c : Cursor} {notice? : Option Notice}
    (h : Takes env levels chars.toArray e L p)
    (hstart : Cursor.start limit (.value (.text chars)) p requested = .ok (c, notice?))
    (hlevels : levels ≤ c.maxDepth) (j : Journal) :
    ∃ n?, Longest L (chars.drop p) n? ∧ c.ComesTo env e j (.behind p n?) := by
  obtain ⟨n?, hn, hd⟩ := h
  obtain ⟨hp, hc⟩ := Cursor.eq_of_start_text hstart
  rw [hc]
  exact ⟨n?, hn, Cursor.comesTo_of_derives hd rfl hp hlevels⟩

theorem Derives.answer {n? : Option Nat} {maxDepth : Nat}
    (h : Derives env (.text chars.toArray) levels e p (.behind p n?)) (hp : p ≤ chars.length)
    (hlevels : levels ≤ maxDepth) : Cursor.answer env e ⟨.text chars.toArray, p, maxDepth, 0⟩ =
      .ok (n?.map fun n => ((p + n : Nat) : Int)) := by
  let c : Cursor := ⟨.text chars.toArray, p, maxDepth, 0⟩
  have hc : c.blank.At c.source 0 := ⟨Int.natCast_nonneg p, Int.ofNat_le.mpr hp, rfl⟩
  have h : Derives env c.setting.source levels e p (.behind p n?) := h
  exact (h.tells c.blank 0 hc rfl hlevels).stop?_eq

theorem Derives.answer_matchAt {n? : Option Nat} (limit : Int)
    (h : Derives env (.text chars.toArray) 0 e p (.behind p n?)) (hp : p ≤ chars.length) (j : Journal) :
    (matchAt env limit (.parser e) (.value (.text chars)) p).answer j =
      .ok (n?.map fun n => ((p + n : Nat) : Int)) :=
  (answer_matchAt_of_start (Cursor.start_eq limit rfl hp) rfl j).trans (h.answer hp (Nat.zero_le _))

theorem Recognises.answer (h : e.Recognises env L) (hp : p ≤ chars.length) (maxDepth : Nat) :
    ∃ n?, Longest L (chars.drop p) n? ∧ Cursor.answer env e ⟨.text chars.toArray, p, maxDepth, 0⟩ =
      .ok (n?.map fun n => ((p + n : Nat) : Int)) := by
  obtain ⟨n?, hn, hd⟩ := h chars.toArray p
  exact ⟨n?, hn, hd.answer hp (Nat.zero_le _)⟩

/-- A match ends as far behind its position as the longest word that stands there is long. -/
theorem Recognises.answer_matchAt (h : e.Recognises env L) (limit : Int) (hp : p ≤ chars.length)
    (j : Journal) : ∃ n?, Longest L (chars.drop p) n? ∧
      (matchAt env limit (.parser e) (.value (.text chars)) p).answer j =
        .ok (n?.map fun n => ((p + n : Nat) : Int)) := by
  obtain ⟨n?, hn, hd⟩ := h chars.toArray p
  exact ⟨n?, hn, hd.answer_matchAt limit hp j⟩

/-- The whole is matched exactly if it is a word. -/
theorem Recognises.answer_matchesWhole (h : e.Recognises env L) (limit : Int) (chars : List Char)
    (j : Journal) : ∃ b, (matchesWhole env limit (.parser e) (.value (.text chars))).answer j = .ok b ∧
      (b = true ↔ chars ∈ L) := by
  obtain ⟨n?, hn, hanswer⟩ := h.answer (Nat.zero_le chars.length) (matchDepth limit)
  refine ⟨_, (answer_matchesWhole_of_start rfl (Cursor.start_eq limit rfl (Nat.zero_le _)) j).trans
    (congrArg _ hanswer), ?_⟩
  rw [List.drop_zero] at hn
  rw [← hn.eq_length_iff]
  cases n? with
  | none => simp
  | some n =>
    have hle := hn.le_length
    have hsize : (Source.text chars.toArray).size = chars.length := rfl
    rw [Option.map_some, Option.any_some, decide_eq_true_iff, Option.some.injEq, hsize]
    omega

end Expr

end PegMatcher
