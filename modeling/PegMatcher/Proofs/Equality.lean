import PegMatcher.Value.Basic

/-!
# Equality of values

Equality is decided by a comparison of two values, kind by kind. As a relation it is symmetric and transitive, across
the kinds of number as well, since numbers are compared by exact magnitude. It is not reflexive: not-a-number equals
nothing, and so no list or tuple that holds it equals itself.
-/

namespace PegMatcher

set_option autoImplicit false

namespace Value

variable {a b : Value} {x : Number}

/-- What two equal values look like. Items of lists and tuples are compared in their turn. -/
inductive Equal : Value → Value → Prop where
  | null : Equal .null .null
  | text {chars : List Char} : Equal (.text chars) (.text chars)
  | bytes {data : List UInt8} : Equal (.bytes data) (.bytes data)
  | list {as bs : List Value} : sameItems as bs = true → Equal (.list as) (.list bs)
  | tuple {as bs : List Value} : sameItems as bs = true → Equal (.tuple as) (.tuple bs)
  | number {a b : Value} {x : Number} : a.number? = some x → b.number? = some x → x ≠ .nan → Equal a b

theorem same_of_number? (ha : a.number? = some x) : same a b = b.number?.any x.same := by
  cases a with
  | bool | int | float =>
    cases ha
    cases b <;> rfl
  | null | text | bytes | list | tuple => cases ha

theorem equal_of_same (h : same a b = true) : Equal a b := by
  fun_cases same a b with
  | case1 => exact .null
  | case2 =>
    obtain rfl := eq_of_beq h
    exact .text
  | case3 =>
    obtain rfl := eq_of_beq h
    exact .bytes
  | case4 as bs =>
    rw [same] at h
    exact .list h
  | case5 as bs =>
    rw [same] at h
    exact .tuple h
  | case6 _ _ _ _ _ _ _ x y hy hx =>
    rw [same_of_number? hx, hy] at h
    obtain ⟨rfl, hnan⟩ := Number.same_iff.mp h
    exact .number hx hy hnan
  | case7 _ _ hnull htext hbytes hlist htuple hnone =>
    rw [same.eq_6 a b hnull htext hbytes hlist htuple] at h
    split at h
    · rename_i x y hx hy
      exact (hnone x y hx hy).elim
    · cases h

theorem Equal.same (h : Equal a b) : same a b = true := by
  cases h with
  | null => rfl
  | text | bytes => exact beq_self_eq_true _
  | list h | tuple h => rwa [Value.same]
  | number ha hb hnan =>
    rw [same_of_number? ha, hb]
    exact Number.same_iff.mpr ⟨rfl, hnan⟩

theorem same_iff : same a b = true ↔ Equal a b := ⟨equal_of_same, Equal.same⟩

mutual

theorem Equal.symm : ∀ {a b : Value}, Equal a b → Equal b a
  | _, _, .null => .null
  | _, _, .text => .text
  | _, _, .bytes => .bytes
  | _, _, .list h => .list (sameItems_symm h)
  | _, _, .tuple h => .tuple (sameItems_symm h)
  | _, _, .number ha hb hnan => .number hb ha hnan

theorem sameItems_symm : ∀ {as bs : List Value}, sameItems as bs = true → sameItems bs as = true
  | [], [], _ => rfl
  | a :: as, b :: bs, h => by
    rw [sameItems, Bool.and_eq_true, same_iff] at h ⊢
    exact ⟨h.1.symm, sameItems_symm h.2⟩

end

theorem Equal.number?_eq (h : Equal a b) (ha : a.number? = some x) : b.number? = some x := by
  cases h with
  | number ha' hb _ => rw [hb, ← ha', ha]
  | null | text | bytes | list | tuple => cases ha

mutual

theorem Equal.trans : ∀ {a b c : Value}, Equal a b → Equal b c → Equal a c
  | _, _, _, .null, h | _, _, _, .text, h | _, _, _, .bytes, h => h
  | _, _, _, .list h, .list h' => .list (sameItems_trans h h')
  | _, _, _, .tuple h, .tuple h' => .tuple (sameItems_trans h h')
  | _, _, _, .number ha hb hnan, h => .number ha (h.number?_eq hb) hnan

theorem sameItems_trans : ∀ {as bs cs : List Value}, sameItems as bs = true → sameItems bs cs = true →
    sameItems as cs = true
  | [], [], _, _, h => h
  | a :: as, b :: bs, c :: cs, h, h' => by
    rw [sameItems, Bool.and_eq_true, same_iff] at h h' ⊢
    exact ⟨h.1.trans h'.1, sameItems_trans h.2 h'.2⟩

end

instance : PartialEquivBEq Value where
  symm h := (same_iff.mp h).symm.same
  trans h h' := ((same_iff.mp h).trans (same_iff.mp h')).same

end Value

end PegMatcher
