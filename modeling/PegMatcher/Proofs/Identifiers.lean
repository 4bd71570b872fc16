import PegMatcher.Proofs.Numbers

/-!
# Identifiers and keywords

What identifiers are, as a language over ASCII characters, and where they end. An identifier goes on with any
letter, digit or underscore, so the longest one that stands at a place is followed by none of these; and just
this is what a keyword asks for behind its word.
-/

namespace PegMatcher

set_option autoImplicit false

open scoped Computability

namespace Identifier

def letters : List Char := charactersFrom 'a' 'z' ++ charactersFrom 'A' 'Z'

def beginnings : List Char := letters ++ ['_']

def continuations : List Char := letters ++ (Number.digits ++ ['_'])

/-- A letter or underscore, and then any letters, digits and underscores. -/
def words : Language Char := among beginnings * (among continuations)∗

/-- A word stands in front, and what follows it begins with no character that it could go on with. -/
def StandsAlone (w cs : List Char) : Prop :=
  ∃ rest, cs = w ++ rest ∧ ∀ c ∈ rest.head?, c ∉ continuations

variable {env : Environment} {c : Char} {cs w : List Char} {chars : Array Char} {p : Nat}

theorem mem_words : w ∈ words ↔ ∃ c ∈ beginnings, ∃ cs, (∀ d ∈ cs, d ∈ continuations) ∧ w = c :: cs := by
  constructor
  · intro hw
    obtain ⟨_, ⟨c, hc, rfl⟩, cs, hcs, rfl⟩ := Language.mem_mul.mp hw
    exact ⟨c, hc, cs, mem_kstar_among.mp hcs, rfl⟩
  · rintro ⟨c, hc, cs, hcs, rfl⟩
    exact Language.mem_mul.mpr ⟨[c], ⟨c, hc, rfl⟩, cs, mem_kstar_among.mpr hcs, rfl⟩

theorem goesOnWith_words : GoesOnWith words continuations := by
  intro u x t hu h
  obtain ⟨_, -, cs, -, rfl⟩ := mem_words.mp hu
  obtain ⟨_, -, ds, hds, heq⟩ := mem_words.mp h
  obtain ⟨-, rfl⟩ := List.cons.inj heq
  exact hds x (by simp)

theorem append_mem_words (hw : w ∈ words) (hc : c ∈ continuations) : w ++ [c] ∈ words := by
  obtain ⟨b, hb, cs, hcs, rfl⟩ := mem_words.mp hw
  refine mem_words.mpr ⟨b, hb, cs ++ [c], fun d hd => ?_, rfl⟩
  rcases List.mem_append.mp hd with hd | hd
  · exact hcs d hd
  · exact List.mem_singleton.mp hd ▸ hc

/-- An identifier is the longest one that stands in front exactly if it stands alone. -/
theorem longest_iff (hw : w ∈ words) :
    Longest words cs (some w.length) ∧ cs.take w.length = w ↔ StandsAlone w cs := by
  constructor
  · rintro ⟨hlongest, htake⟩
    have hcs := List.take_append_drop w.length cs
    rw [htake] at hcs
    refine ⟨cs.drop w.length, hcs.symm, fun c hc hmem => ?_⟩
    obtain ⟨rest, hrest⟩ := List.head?_eq_some_iff.mp hc
    rw [hrest, List.append_cons] at hcs
    have hlonger := hlongest.length_le (append_mem_words hw hmem) ⟨rest, hcs⟩
    rw [List.length_append, List.length_singleton] at hlonger
    omega
  · rintro ⟨rest, rfl, hrest⟩
    exact ⟨goesOnWith_words.longest hw hrest, List.take_left⟩

theorem recognises_letter : Lexical.letter.Recognises env (among letters) :=
  (Expr.recognises_between fun _ => mem_charactersFrom (by decide)).choice_among
    (Expr.recognises_between fun _ => mem_charactersFrom (by decide)).choice_one

theorem recognises_continuation : Lexical.identifierRest.Recognises env (among continuations) :=
  recognises_letter.choice_among
    (Number.recognises_digit.choice_among (Expr.recognises_character '_').choice_one)

theorem recognises_words : Lexical.identifier.Recognises env words :=
  (recognises_letter.choice_among (Expr.recognises_character '_').choice_one).seq_among
    recognises_continuation.star_among.seq_one

theorem derives_keyword (env : Environment) (chars : Array Char) (w : List Char) (p : Nat) :
    ∃ n?, Expr.Derives env (.text chars) 0 (Lexical.keyword w) p (.behind p n?) ∧
      (StandsAlone w (chars.toList.drop p) ∧ n? = some w.length ∨
        ¬ StandsAlone w (chars.toList.drop p) ∧ n? = none) := by
  obtain ⟨n?, hn, hword⟩ := Expr.recognises_ofText w chars p
  cases hn with
  | missing hno =>
    refine ⟨none, .seqFail hword, .inr ⟨?_, rfl⟩⟩
    rintro ⟨rest, hrest, -⟩
    exact hno w rfl ⟨rest, hrest.symm⟩
  | @found v hv hcs _ =>
    obtain rfl : v = w := hv
    obtain ⟨rest, hrest⟩ := hcs
    obtain ⟨m?, hm, hnext⟩ := @recognises_continuation env chars (p + v.length)
    rw [drop_of_append hrest.symm] at hm
    cases m? with
    | none =>
      refine ⟨some v.length, .seqNext hword (.seqNext (.notAheadFail hnext) .seqNil), .inl ⟨?_, rfl⟩⟩
      exact ⟨rest, hrest.symm, hm.head?_notMem⟩
    | some m =>
      refine ⟨none, .seqNext hword (.seqFail (.notAheadOk hnext)), .inr ⟨?_, rfl⟩⟩
      rintro ⟨rest', hrest', halone⟩
      obtain rfl := List.append_cancel_left (hrest.trans hrest')
      cases hm.unique (longest_among_none halone)

end Identifier

/-- An identifier is matched as far as the longest one goes, and a keyword exactly where an identifier is matched
and is its word. -/
theorem words_end_alike (env : Environment) (limit : Int) (chars : List Char) (p : Nat)
    (hp : p ≤ chars.length) (j : Journal) :
    let input : Input := .value (.text chars)
    let found := (matchAt env limit (.parser Lexical.identifier) input p).answer j
    (∃ n?, Longest Identifier.words (chars.drop p) n? ∧
      found = .ok (n?.map fun n => ((p + n : Nat) : Int))) ∧
    ∀ w : List Char, (matchesWhole env limit (.parser Lexical.identifier) (.value (.text w))).answer j =
        .ok true →
      let stop : Int := (p + w.length : Nat)
      let matched := (matchAt env limit (.parser (Lexical.keyword w)) input p).answer j
      (matched = .ok (some stop) ↔ found = .ok (some stop) ∧ (chars.drop p).take w.length = w) ∧
      (matched ≠ .ok (some stop) → matched = .ok none) := by
  intro input found
  have hidentifier : Lexical.identifier.Recognises env Identifier.words := Identifier.recognises_words
  obtain ⟨n?, hn, hanswer⟩ := hidentifier.answer_matchAt limit hp j
  have hfound : found = .ok (n?.map fun n => ((p + n : Nat) : Int)) := hanswer
  refine ⟨⟨n?, hn, hfound⟩, fun w hwhole => ?_⟩
  intro stop matched
  obtain ⟨whole, hanswer, hmem⟩ := hidentifier.answer_matchesWhole limit w j
  have hw : w ∈ Identifier.words := hmem.mp (Except.ok.inj (hanswer.symm.trans hwhole))
  have hstop : found = .ok (some stop) ↔ Longest Identifier.words (chars.drop p) (some w.length) := by
    rw [hfound]
    constructor
    · intro h
      obtain ⟨n, rfl, heq⟩ := Option.map_eq_some_iff.mp (Except.ok.inj h)
      obtain rfl : n = w.length := Nat.add_left_cancel (Int.ofNat.inj heq)
      exact hn
    · intro h
      rw [h.unique hn]
      rfl
  obtain ⟨m?, hm, hcases⟩ := Identifier.derives_keyword env chars.toArray w p
  have hmatched : matched = _ := hm.answer_matchAt limit hp j
  rw [hstop, Identifier.longest_iff hw, hmatched]
  rcases hcases with ⟨halone, rfl⟩ | ⟨halone, rfl⟩
  · exact ⟨iff_of_true rfl halone, fun h => absurd rfl h⟩
  · exact ⟨iff_of_false nofun halone, fun _ => rfl⟩

theorem words_end_alike_underscore :
    let chars := ['i', 'f', '_', ' ', 'x']
    let env : Environment := fun _ => {}
    let whole (w : List Char) : Except Failure Bool :=
      (matchesWhole env 1000 (.parser Lexical.identifier) (.value (.text w))).answer {}
    let stop? (e : Expr) (p : Nat) : Except Failure (Option Int) :=
      (matchAt env 1000 (.parser e) (.value (.text chars)) p).answer {}
    (0 ≤ chars.length ∧ whole ['i', 'f'] = .ok true ∧ stop? Lexical.identifier 0 = .ok (some 3) ∧
      stop? (Lexical.keyword ['i', 'f']) 0 = .ok none) ∧
    (4 ≤ chars.length ∧ whole ['x'] = .ok true ∧ stop? (Lexical.keyword ['x']) 4 = .ok (some 5)) := by
  intro chars env whole stop?
  have hidentifier : Lexical.identifier.Recognises env Identifier.words := Identifier.recognises_words
  have hwhole : ∀ w ∈ Identifier.words, whole w = .ok true := by
    intro w hw
    obtain ⟨b, hanswer, hmem⟩ := hidentifier.answer_matchesWhole 1000 w {}
    exact hanswer.trans (congrArg Except.ok (hmem.mpr hw))
  have hi : ['i'] ∈ Identifier.words := Identifier.mem_words.mpr ⟨'i', by decide, [], nofun, rfl⟩
  have hx : ['x'] ∈ Identifier.words := Identifier.mem_words.mpr ⟨'x', by decide, [], nofun, rfl⟩
  have hif : ['i', 'f'] ∈ Identifier.words := Identifier.append_mem_words hi (by decide)
  have hlonger : ['i', 'f', '_'] ∈ Identifier.words := Identifier.append_mem_words hif (by decide)
  have hfirst : Longest Identifier.words (['i', 'f', '_'] ++ [' ', 'x']) (some 3) := by
    refine Identifier.goesOnWith_words.longest hlonger ?_
    rintro _ ⟨⟩
    decide
  obtain ⟨⟨n?, hn, hfound⟩, hkeyword⟩ := words_end_alike env 1000 chars 0 (Nat.zero_le _) {}
  obtain rfl := hfirst.unique hn
  have hother : stop? (Lexical.keyword ['i', 'f']) 0 = .ok none := by
    refine (hkeyword ['i', 'f'] (hwhole _ hif)).2 fun h => ?_
    cases hfound.symm.trans ((hkeyword ['i', 'f'] (hwhole _ hif)).1.mp h).1
  have hlast : Longest Identifier.words (['x'] ++ []) (some 1) :=
    Identifier.goesOnWith_words.longest hx nofun
  obtain ⟨⟨n?, hn, hfound'⟩, hkeyword'⟩ := words_end_alike env 1000 chars 4 (by decide) {}
  obtain rfl := hlast.unique hn
  exact ⟨⟨Nat.zero_le _, hwhole _ hif, hfound, hother⟩,
    by decide, hwhole _ hx, (hkeyword' ['x'] (hwhole _ hx)).1.mpr ⟨hfound', rfl⟩⟩

end PegMatcher
