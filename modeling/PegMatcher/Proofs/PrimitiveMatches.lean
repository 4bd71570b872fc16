import PegMatcher.Primitive

/-!
# Primitive matches

A primitive match that starts in the source ends between its start and the end of the source, and looks
at no element that is not there: it has no faults but those of comparing. Regular expressions look
anywhere, but move forward only, whatever their continuation accepts. A quoted string is read to its
end: the bound on its items, which is what remains of the source, is never what stops it.
-/

namespace PegMatcher

set_option autoImplicit false

namespace Fault

/-- An element was asked for where there is none. -/
inductive Missing : Fault → Prop where
  | endOfInput (pos : Int) : Missing (.endOfInput pos)
  | indexOutside (shape : Shape) : Missing (.indexOutside shape)
  | indexUnbounded : Missing .indexUnbounded

/-- A matcher does not suit the element or the source that it was asked about. -/
inductive Unsuited : Fault → Prop where
  | incomparable (op : Comparison) (left right : Kind) : Unsuited (.incomparable op left right)
  | notText : Unsuited .notText
  | notSubtext (kind : Kind) : Unsuited (.notSubtext kind)
  | notSubbytes (kind : Kind) : Unsuited (.notSubbytes kind)
  | byteOutside : Unsuited .byteOutside
  | notContainer (kind : Kind) : Unsuited (.notContainer kind)

variable {f : Fault}

theorem Missing.not_reserved (h : f.Missing) : f.isReserved = false := by
  cases h <;> rfl

theorem Unsuited.not_reserved (h : f.Unsuited) : f.isReserved = false := by
  cases h <;> rfl

theorem Unsuited.not_missing (h : f.Unsuited) : ¬ f.Missing := by
  intro hm
  cases h <;> cases hm

end Fault

namespace Regex

/-- The matcher offers its continuation only places from its start up to `size`. -/
def Onward (size : Nat) (m : Matcher) : Prop :=
  ∀ p k q, p ≤ size → m p k = some q → ∃ p', p ≤ p' ∧ p' ≤ size ∧ k p' = some q

theorem or_else_cases {α : Type} {first second : Option α} {a : α}
    (h : (first <|> second) = some a) : first = some a ∨ second = some a := by
  cases first with
  | none => exact .inr h
  | some _ => exact .inl h

theorem iterate_onward {size : Nat} {once : Matcher} (rounds : Rounds) (h : Onward size once)
    (fuel : Nat) : ∀ count last, Onward size (iterate rounds once fuel count last) := by
  induction fuel with
  | zero => intro count last p k q _ hm; cases hm
  | succ fuel ih =>
    have round : ∀ count last p k q, p ≤ size →
        once p (fun p' => iterate rounds once fuel count last p' k) = some q →
        ∃ p', p ≤ p' ∧ p' ≤ size ∧ k p' = some q := by
      intro count last p k q hp hm
      obtain ⟨p₁, h1, h2, h3⟩ := h p _ q hp hm
      obtain ⟨p₂, h4, h5, h6⟩ := ih count last p₁ k q h2 h3
      exact ⟨p₂, by omega, h5, h6⟩
    intro count last p k q hp hm
    simp only [iterate] at hm
    split at hm
    · exact round _ _ p k q hp hm
    · have more : (if rounds.allows count && last != some p then
            once p fun p' => iterate rounds once fuel (count + 1) (some p) p' k else none) = some q →
          ∃ p', p ≤ p' ∧ p' ≤ size ∧ k p' = some q := by
        intro hq
        split at hq
        · exact round _ _ p k q hp hq
        · cases hq
      split at hm
      · rcases or_else_cases hm with hq | hq
        · exact more hq
        · exact ⟨p, Nat.le_refl p, hp, hq⟩
      · rcases or_else_cases hm with hq | hq
        · exact ⟨p, Nat.le_refl p, hp, hq⟩
        · exact more hq

theorem run_onward (text : Array Char) (r : Regex) : Onward text.size (r.run text) := by
  induction r with
  | empty => exact fun p k q hp hm => ⟨p, Nat.le_refl p, hp, hm⟩
  | one set =>
    intro p k q hp hm
    simp only [run] at hm
    split at hm
    · rename_i c hc
      have hlt : p < text.size := (Array.getElem?_eq_some_iff.mp hc).1
      split at hm
      · exact ⟨p + 1, by omega, by omega, hm⟩
      · cases hm
    · cases hm
  | anchor place =>
    intro p k q hp hm
    simp only [run] at hm
    split at hm
    · exact ⟨p, Nat.le_refl p, hp, hm⟩
    · cases hm
  | seq first second ih1 ih2 =>
    intro p k q hp hm
    obtain ⟨p₁, h1, h2, h3⟩ := ih1 p _ q hp hm
    obtain ⟨p₂, h4, h5, h6⟩ := ih2 p₁ k q h2 h3
    exact ⟨p₂, by omega, h5, h6⟩
  | alt first second ih1 ih2 =>
    intro p k q hp hm
    rcases or_else_cases hm with hq | hq
    · exact ih1 p k q hp hq
    · exact ih2 p k q hp hq
  | repeated rounds body ih => exact fun p k q => iterate_onward rounds ih _ 0 none p k q

theorem matchFrom_bounds {r : Regex} {text : Array Char} {pos : Int} {q : Nat} (h0 : 0 ≤ pos)
    (h1 : pos ≤ text.size) (h : r.matchFrom text pos = some q) : pos ≤ q ∧ q ≤ text.size := by
  obtain ⟨p, h2, h3, h4⟩ := run_onward text r _ _ q (Nat.min_le_left _ _) h
  cases h4
  omega

end Regex

theorem Source.elementAt_eq {src : Source} {p : Nat} {x : Value} (h : src.elements[p]? = some x) :
    src.elementAt p = .ok x := by
  have hneg : ¬ (p : Int) < 0 := by omega
  simp only [elementAt, hneg, if_false, Int.toNat_natCast, get?_eq, h]

theorem Quoting.look_eq (src : Source) (p : Nat) : look src p = src.elements[p]? := by
  have hlength := src.length_elements
  unfold look
  split
  · exact (List.getElem?_eq_none_iff.mpr (by omega)).symm
  · have hp := List.getElem?_eq_getElem (show p < src.elements.length by omega)
    rw [hp, Source.elementAt_eq hp, Except.toOption]

namespace Primitive

variable {src : Source} {p : Nat} {test : Value → Except Fault Bool} {x : Value}

theorem step_of_none (h : src.elements[p]? = none) : step test src p = .ok none := by
  rw [List.getElem?_eq_none_iff, Source.length_elements] at h
  rw [step, if_pos (by omega)]

theorem step_of_some (h : src.elements[p]? = some x) :
    step test src p = (test x).map fun b => if b then some ((p + 1 : Nat) : Int) else none := by
  have hlt := (List.getElem?_eq_some_iff.mp h).1
  rw [Source.length_elements] at hlt
  rw [step, if_neg (by omega), Source.elementAt_eq h]
  cases ht : test x with
  | error f => simp only [ht, Except.map]
  | ok b => cases b <;> simp [ht, Except.map]

end Primitive

namespace Quoting

variable {qt : Quoting} {src : Source} {pos next : Int} {quote : Value}

theorem lt_size_of_look {v : Value} (h : look src pos = some v) : pos < src.size := by
  unfold look at h
  split at h
  · cases h
  · omega

theorem lt_size_of_isHexDigit (h : isHexDigit src pos = true) : pos < src.size := by
  unfold isHexDigit at h
  cases hl : look src pos with
  | none => simp [hl] at h
  | some v => exact lt_size_of_look hl

theorem escapeEnd?_bounds (h : qt.escapeEnd? src pos = some next) :
    pos < next ∧ next ≤ src.size := by
  unfold escapeEnd? at h
  split at h
  · cases h
  · rename_i v hv
    have hlt := lt_size_of_look hv
    split at h
    · cases h
      omega
    · split at h
      · rename_i hhex
        simp only [Bool.and_eq_true] at hhex
        have hlast := lt_size_of_isHexDigit hhex.2
        cases h
        omega
      · cases h

theorem closeFrom_bounds (left : Nat) : ∀ pos, qt.closeFrom src quote left pos = some next →
    pos < next ∧ next ≤ src.size := by
  induction left with
  | zero => intro pos h; cases h
  | succ left ih =>
    intro pos h
    simp only [closeFrom] at h
    split at h
    · cases h
    · rename_i v hv
      have hlt := lt_size_of_look hv
      split at h
      · cases h
        omega
      · split at h
        · split at h
          · rename_i after hafter
            have h1 := escapeEnd?_bounds hafter
            have h2 := ih _ h
            omega
          · cases h
        · split at h
          · cases h
          · have h2 := ih _ h
            omega

theorem closeFrom_of_ended (h : src.remaining pos = 0) (left : Nat) :
    qt.closeFrom src quote left pos = none := by
  cases left with
  | zero => rfl
  | succ left =>
    have hlook : look src pos = none := by
      unfold look
      simp only [Source.remaining] at h
      rw [if_pos (by omega)]
    simp only [closeFrom, hlook]

/-- The bound on the items of a string does not matter if it is no less than what remains. -/
theorem closeFrom_eq (left : Nat) : ∀ left' pos,
    src.remaining pos ≤ left → src.remaining pos ≤ left' →
    qt.closeFrom src quote left pos = qt.closeFrom src quote left' pos := by
  induction left with
  | zero =>
    intro left' pos h _
    rw [closeFrom_of_ended (Nat.le_zero.mp h), closeFrom_of_ended (Nat.le_zero.mp h)]
  | succ left ih =>
    intro left' pos h h'
    cases left' with
    | zero => rw [closeFrom_of_ended (Nat.le_zero.mp h'), closeFrom_of_ended (Nat.le_zero.mp h')]
    | succ left' =>
      have later : ∀ next, pos < next → next ≤ src.size →
          qt.closeFrom src quote left next = qt.closeFrom src quote left' next := by
        intro next hlt hle
        simp only [Source.remaining] at h h'
        exact ih left' next (by simp only [Source.remaining]; omega)
          (by simp only [Source.remaining]; omega)
      simp only [closeFrom]
      split
      · rfl
      · rename_i v hv
        have hlt := lt_size_of_look hv
        split
        · rfl
        · split
          · split
            · rename_i next hnext
              have hb := escapeEnd?_bounds hnext
              exact later next (by omega) hb.2
            · rfl
          · rw [later (pos + 1) (by omega) (by omega)]

theorem scan_bounds (h : qt.scan src pos = .ok (some next)) : pos < next ∧ next ≤ src.size := by
  unfold scan at h
  split at h
  · cases h
  · split at h
    · cases h
    · split at h
      · cases h
      · have h1 := closeFrom_bounds _ _ (Except.ok.inj h)
        omega
      · cases h

end Quoting

namespace Value

theorem ordered_faults (op : Comparison) (a b : Value) {f : Fault} (h : ordered op a b = .error f) :
    ∃ left right, f = .incomparable op left right := by
  revert h
  apply (ordered.mutual_induct
    (fun a b => ordered op a b = .error f → ∃ left right, f = .incomparable op left right)
    (fun as bs => orderedItems op as bs = .error f → ∃ left right, f = .incomparable op left right)
    ?_ ?_ ?_ ?_ ?_ ?_ ?_ ?_ ?_ ?_ ?_).1 a b
  · intro a b h
    simp only [ordered, reduceCtorEq] at h
  · intro a b h
    simp only [ordered, reduceCtorEq] at h
  · intro a b ih h
    rw [ordered] at h
    exact ih h
  · intro a b ih h
    rw [ordered] at h
    exact ih h
  · intro a b h1 h2 h3 h4 x y hy hx h
    rw [ordered.eq_5 op a b h1 h2 h3 h4, hx, hy] at h
    cases h
  · intro a b h1 h2 h3 h4 hn h
    rw [ordered.eq_5 op a b h1 h2 h3 h4] at h
    split at h
    · cases h
    · cases h
      exact ⟨_, _, rfl⟩
  · intro h
    simp only [orderedItems, reduceCtorEq] at h
  · intro _ _ h
    simp only [orderedItems, reduceCtorEq] at h
  · intro _ _ h
    simp only [orderedItems, reduceCtorEq] at h
  · intro a as b bs he ih h
    simp only [orderedItems, he, if_true] at h
    exact ih h
  · intro a as b bs he ih h
    simp only [orderedItems, he] at h
    exact ih h

end Value

namespace Primitive

variable {src : Source} {pos next : Int}

theorem step_bounds {test : Value → Except Fault Bool} (h : step test src pos = .ok (some next)) :
    next = pos + 1 ∧ next ≤ src.size := by
  unfold step at h
  split at h
  · cases h
  · split at h
    · cases h
    · split at h
      · cases h
      · cases h
        omega
      · cases h

theorem literalFrom_bounds (vs : List Value) : ∀ pos : Int, pos ≤ src.size →
    literalFrom src vs pos = .ok (some next) → pos ≤ next ∧ next ≤ src.size := by
  induction vs with
  | nil =>
    intro pos hpos h
    cases h
    omega
  | cons v vs ih =>
    intro pos hpos h
    simp only [literalFrom] at h
    split at h
    · rename_i mid hmid
      have h1 := step_bounds hmid
      have h2 := ih mid h1.2 h
      omega
    · rename_i hno
      exact absurd h (hno next)

theorem scan_bounds {m : Primitive} (h0 : 0 ≤ pos) (h1 : pos ≤ src.size)
    (h : m.scan src pos = .ok (some next)) : pos ≤ next ∧ next ≤ src.size := by
  have single {test : Value → Except Fault Bool} (h : step test src pos = .ok (some next)) :
      pos ≤ next ∧ next ≤ src.size := by
    have := step_bounds h
    omega
  cases m with
  | any =>
    simp only [scan] at h
    split at h
    · cases h
    · cases h
      omega
  | endOfInput =>
    simp only [scan] at h
    split at h
    · cases h
      omega
    · cases h
  | element v => exact single h
  | literal vs => exact literalFrom_bounds vs pos h1 h
  | range low high => exact single h
  | oneOf members => exact single h
  | regex r =>
    cases src with
    | text chars =>
      simp only [scan, Except.ok.injEq, Option.map_eq_some_iff] at h
      obtain ⟨q, hq, rfl⟩ := h
      have h2 := Regex.matchFrom_bounds h0 h1 hq
      exact ⟨h2.1, Int.ofNat_le.mpr h2.2⟩
    | bytes _ => cases h
    | list _ => cases h
    | tuple _ => cases h
  | quoted qt =>
    have h2 := Quoting.scan_bounds h
    omega

/-- In front of the end no element is missing, unless the position is further back than the source is long. -/
theorem elementAt_faults {f : Fault} (hlt : pos < src.size) (h : src.elementAt pos = .error f) :
    pos + src.size < 0 ∧ f.Missing := by
  unfold Source.elementAt at h
  dsimp only at h
  split at h
  · cases h
  · rename_i hnone
    constructor
    · refine Int.not_le.mp fun hin => ?_
      have hplace : ¬ (if pos < 0 then pos + src.size else pos) < 0 := by split <;> omega
      rw [if_neg hplace, Source.get?_eq_none_iff] at hnone
      split at hnone <;> omega
    · cases h
      split
      · exact .indexUnbounded
      · exact .indexOutside _

theorem elementAt_inside {v : Value} (h : src.elementAt pos = .ok v) : 0 ≤ pos + src.size := by
  refine Int.not_lt.mp fun hbefore => ?_
  have hplace : (if pos < 0 then pos + src.size else pos) < 0 := by split <;> omega
  simp only [Source.elementAt, if_pos hplace, reduceCtorEq] at h

theorem step_inside {test : Value → Except Fault Bool} (h : step test src pos = .ok (some next)) :
    0 ≤ pos + src.size := by
  unfold step at h
  split at h
  · cases h
  · split at h
    · cases h
    · rename_i v hv
      exact elementAt_inside hv

/-- A step looks at an element that is there, unless it looks in front of the source. -/
theorem step_faults {test : Value → Except Fault Bool} {f : Fault} (h : step test src pos = .error f) :
    (pos + src.size < 0 ∧ f.Missing) ∨ ∃ v, src.elementAt pos = .ok v ∧ test v = .error f := by
  unfold step at h
  split at h
  · cases h
  · rename_i hlt
    split at h
    · rename_i g hg
      cases h
      exact .inl (elementAt_faults (by omega) hg)
    · rename_i v hv
      split at h
      · rename_i g hg
        cases h
        exact .inr ⟨v, hv, hg⟩
      · cases h
      · cases h

theorem step_total_faults {test : Value → Bool} {f : Fault}
    (h : step (fun x => .ok (test x)) src pos = .error f) : pos + src.size < 0 ∧ f.Missing := by
  rcases step_faults h with hm | ⟨_, _, ht⟩
  · exact hm
  · cases ht

theorem literalFrom_faults (vs : List Value) : ∀ pos : Int, ∀ f,
    literalFrom src vs pos = .error f → pos + src.size < 0 ∧ f.Missing := by
  induction vs with
  | nil =>
    intro pos f h
    cases h
  | cons v vs ih =>
    intro pos f h
    simp only [literalFrom] at h
    split at h
    · rename_i next hnext
      have hb := step_bounds hnext
      have hrest := ih next f h
      exact ⟨by omega, hrest.2⟩
    · exact step_total_faults h

theorem exists_literalFrom (h : 0 ≤ pos + src.size) (vs : List Value) :
    ∃ o, literalFrom src vs pos = .ok o := by
  cases hrun : literalFrom src vs pos with
  | ok o => exact ⟨o, rfl⟩
  | error f =>
    have hfault := literalFrom_faults vs pos f hrun
    omega

theorem within_faults {low high v : Value} {f : Fault} (h : within low high v = .error f) :
    f.Unsuited := by
  unfold within at h
  have incomparable {a b : Value} (h : a.ordered .atMost b = .error f) : f.Unsuited := by
    obtain ⟨_, _, rfl⟩ := Value.ordered_faults _ _ _ h
    exact .incomparable _ _ _
  split at h
  · exact incomparable h
  · exact incomparable h

theorem opens_faults {qt : Quoting} {v : Value} {f : Fault} (h : qt.opens v = .error f) :
    f.Unsuited := by
  unfold Quoting.opens at h
  dsimp only at h
  split at h
  · cases h
  · cases h
    exact .notSubtext _
  · split at h <;> cases h
    exact .byteOutside
  · split at h <;> cases h
  · cases h
  · cases h
    exact .notSubbytes _
  · cases h
  · cases h
  · cases h
    exact .notContainer _

theorem scan_faults {m : Primitive} {f : Fault} (h : m.scan src pos = .error f) :
    (pos + src.size < 0 ∧ f.Missing) ∨ f.Unsuited := by
  cases m with
  | any => cases h
  | endOfInput => cases h
  | element v => exact .inl (step_total_faults h)
  | literal vs => exact .inl (literalFrom_faults vs pos f h)
  | range low high =>
    rcases step_faults h with hm | ⟨_, _, ht⟩
    · exact .inl hm
    · exact .inr (within_faults ht)
  | oneOf members => exact .inl (step_total_faults h)
  | regex r => cases src <;> cases h <;> exact .inr .notText
  | quoted qt =>
    simp only [scan, Quoting.scan] at h
    split at h
    · cases h
    · rename_i hlt
      split at h
      · rename_i g hg
        cases h
        exact .inl (elementAt_faults (by omega) hg)
      · split at h
        · rename_i g hg
          cases h
          exact .inr (opens_faults hg)
        · cases h
        · cases h

theorem scan_not_reserved {m : Primitive} {f : Fault} (h : m.scan src pos = .error f) :
    f.isReserved = false := by
  rcases scan_faults h with ⟨_, hm⟩ | hu
  · exact hm.not_reserved
  · exact hu.not_reserved

end Primitive

end PegMatcher
