import PegMatcher.Proofs.PrimitiveMatches

/-!
# Aligned sources

Two sources that hold the same elements behind two places. Whatever a primitive match sees from there on
it sees in both, the same way further on in the second one. Regular expressions are left out: they look
at what stands before the place as well, and only at texts.
-/

namespace PegMatcher

set_option autoImplicit false

/-- Two sources, with a place in each behind which the elements are the same. -/
structure Alignment where
  left : Source
  right : Source
  leftStart : Nat
  rightStart : Nat
  same : left.elements.drop leftStart = right.elements.drop rightStart

/-- A primitive looks only at elements from its place on. -/
def Primitive.Elementwise : Primitive → Prop
  | .regex _ => False
  | _ => True

namespace Alignment

def shift (A : Alignment) : Int := A.rightStart - A.leftStart

variable (A : Alignment) {pos : Int}

theorem size_sub_eq : A.left.size - A.leftStart = A.right.size - A.rightStart := by
  have h := congrArg List.length A.same
  rwa [List.length_drop, List.length_drop, Source.length_elements, Source.length_elements] at h

theorem ended_iff (h : A.leftStart ≤ pos) : A.right.size ≤ pos + A.shift ↔ A.left.size ≤ pos := by
  have hsize := A.size_sub_eq
  unfold shift
  omega

theorem remaining_eq (h : A.leftStart ≤ pos) :
    A.right.remaining (pos + A.shift) = A.left.remaining pos := by
  have hsize := A.size_sub_eq
  unfold Source.remaining shift
  omega

theorem nonneg_of_le (h : A.leftStart ≤ pos) : 0 ≤ pos + A.shift := by
  unfold shift
  omega

theorem exists_offset (h : A.leftStart ≤ pos) : ∃ i : Nat, pos = (A.leftStart + i : Nat) ∧
    pos + A.shift = (A.rightStart + i : Nat) := by
  refine ⟨(pos - A.leftStart).toNat, ?_⟩
  unfold shift
  omega

theorem element_eq (i : Nat) :
    A.left.elements[A.leftStart + i]? = A.right.elements[A.rightStart + i]? := by
  rw [← List.getElem?_drop, ← List.getElem?_drop, A.same]

theorem look_eq (h : A.leftStart ≤ pos) :
    Quoting.look A.right (pos + A.shift) = Quoting.look A.left pos := by
  obtain ⟨i, hleft, hright⟩ := A.exists_offset h
  rw [hright, hleft, Quoting.look_eq, Quoting.look_eq, A.element_eq]

/-- An answer, the shift further on. -/
def moved (found : Except Fault (Option Int)) : Except Fault (Option Int) :=
  found.map (Option.map (· + A.shift))

theorem step_eq (test : Value → Except Fault Bool) (h : A.leftStart ≤ pos) :
    Primitive.step test A.right (pos + A.shift) = A.moved (Primitive.step test A.left pos) := by
  obtain ⟨i, hleft, hright⟩ := A.exists_offset h
  rw [hright, hleft]
  cases hx : A.left.elements[A.leftStart + i]? with
  | none =>
    rw [Primitive.step_of_none hx, Primitive.step_of_none (A.element_eq i ▸ hx)]
    rfl
  | some x =>
    rw [Primitive.step_of_some hx, Primitive.step_of_some (A.element_eq i ▸ hx)]
    have hnext : ((A.rightStart + i + 1 : Nat) : Int) = (A.leftStart + i + 1 : Nat) + A.shift := by
      unfold shift
      omega
    rw [hnext]
    cases test x with
    | error f => rfl
    | ok b => cases b <;> rfl

theorem literalFrom_eq (vs : List Value) : ∀ pos : Int, A.leftStart ≤ pos →
    Primitive.literalFrom A.right vs (pos + A.shift) =
      A.moved (Primitive.literalFrom A.left vs pos) := by
  induction vs with
  | nil =>
    intro pos _
    rfl
  | cons v vs ih =>
    intro pos h
    simp only [Primitive.literalFrom, A.step_eq _ h]
    cases hstep : Primitive.step (fun x => .ok (x == v)) A.left pos with
    | error f => rfl
    | ok found =>
      cases found with
      | none => rfl
      | some next =>
        have hnext := Primitive.step_bounds hstep
        exact ih next (by omega)

theorem isHexDigit_eq (h : A.leftStart ≤ pos) :
    Quoting.isHexDigit A.right (pos + A.shift) = Quoting.isHexDigit A.left pos := by
  unfold Quoting.isHexDigit
  rw [A.look_eq h]

theorem escapeEnd?_eq (qt : Quoting) (h : A.leftStart ≤ pos) :
    qt.escapeEnd? A.right (pos + A.shift) = (qt.escapeEnd? A.left pos).map (· + A.shift) := by
  have hcomm : ∀ n : Int, pos + A.shift + n = pos + n + A.shift := by omega
  have hdigit : ∀ n : Int, 0 ≤ n → Quoting.isHexDigit A.right (pos + n + A.shift) =
      Quoting.isHexDigit A.left (pos + n) := fun n hn => A.isHexDigit_eq (by omega)
  unfold Quoting.escapeEnd?
  rw [A.look_eq h]
  cases Quoting.look A.left pos with
  | none => rfl
  | some v =>
    simp only [hcomm, hdigit 1 (by decide), hdigit 2 (by decide), hdigit 3 (by decide),
      hdigit 4 (by decide)]
    split
    · rfl
    · split
      · rfl
      · rfl

theorem closeFrom_eq (qt : Quoting) (quote : Value) (left : Nat) : ∀ pos : Int, A.leftStart ≤ pos →
    qt.closeFrom A.right quote left (pos + A.shift) =
      (qt.closeFrom A.left quote left pos).map (· + A.shift) := by
  induction left with
  | zero =>
    intro pos _
    rfl
  | succ left ih =>
    intro pos h
    have hcomm : pos + A.shift + 1 = pos + 1 + A.shift := by omega
    have hlater : A.leftStart ≤ pos + 1 := by omega
    simp only [Quoting.closeFrom, A.look_eq h, hcomm, A.escapeEnd?_eq qt hlater, ih _ hlater]
    cases Quoting.look A.left pos with
    | none => rfl
    | some v =>
      dsimp only
      split
      · rfl
      · split
        · cases hescape : qt.escapeEnd? A.left (pos + 1) with
          | none => rfl
          | some next =>
            have hbounds := Quoting.escapeEnd?_bounds hescape
            exact ih next (by omega)
        · split
          · rfl
          · rfl

theorem elementAt_eq (h : A.leftStart ≤ pos) (hlt : pos < A.left.size) :
    A.right.elementAt (pos + A.shift) = A.left.elementAt pos := by
  obtain ⟨i, hleft, hright⟩ := A.exists_offset h
  have hlength := A.left.length_elements
  have hx := List.getElem?_eq_getElem (show A.leftStart + i < A.left.elements.length by omega)
  rw [hright, hleft, Source.elementAt_eq hx, Source.elementAt_eq (A.element_eq i ▸ hx)]

theorem quoted_eq (qt : Quoting) (h : A.leftStart ≤ pos) :
    qt.scan A.right (pos + A.shift) = A.moved (qt.scan A.left pos) := by
  have hcomm : pos + A.shift + 1 = pos + 1 + A.shift := by omega
  have hlater : A.leftStart ≤ pos + 1 := by omega
  by_cases hend : A.left.size ≤ pos
  · have hend' := (A.ended_iff h).mpr hend
    rw [Quoting.scan, Quoting.scan, if_pos hend, if_pos hend']
    rfl
  · have hend' : ¬ A.right.size ≤ pos + A.shift := fun hright => hend ((A.ended_iff h).mp hright)
    rw [Quoting.scan, Quoting.scan, if_neg hend, if_neg hend', A.elementAt_eq h (by omega), hcomm,
      A.remaining_eq hlater]
    cases A.left.elementAt pos with
    | error f => rfl
    | ok v =>
      dsimp only
      rw [A.closeFrom_eq qt v _ _ hlater]
      cases qt.opens v with
      | error f => rfl
      | ok b => cases b <;> rfl

theorem scan_eq {m : Primitive} (hm : m.Elementwise) (h : A.leftStart ≤ pos) :
    m.scan A.right (pos + A.shift) = A.moved (m.scan A.left pos) := by
  have hcomm : pos + A.shift + 1 = pos + 1 + A.shift := by omega
  cases m with
  | any =>
    simp only [Primitive.scan, A.ended_iff h, hcomm]
    split <;> rfl
  | endOfInput =>
    simp only [Primitive.scan, A.ended_iff h]
    split <;> rfl
  | element v => exact A.step_eq _ h
  | literal vs => exact A.literalFrom_eq vs pos h
  | range low high => exact A.step_eq _ h
  | oneOf members => exact A.step_eq _ h
  | regex r => exact hm.elim
  | quoted qt => exact A.quoted_eq qt h

end Alignment

end PegMatcher
