import PegMatcher.Proofs.PrimitiveMatches

/-!
# Characters

The elements of a text are its characters. As values they are equal only if they are the same character, to
each other and to whatever else they are compared with, and they are ordered by their codes.
-/

namespace PegMatcher

set_option autoImplicit false

namespace Value

variable {v : Value} {vs : List Value} {a b c : Char}

@[simp] theorem char_inj : char a = char b ↔ a = b := by simp [char]

theorem beq_char_iff : (v == char c) = true ↔ v = char c := by
  show same v (.text [c]) = true ↔ v = .text [c]
  cases v <;> simp [same, number?]

theorem char_beq_iff : (char c == v) = true ↔ v = char c := by
  show same (.text [c]) v = true ↔ v = .text [c]
  cases v with
  | text chars => simpa [same] using eq_comm
  | _ => simp [same, number?]

theorem any_beq_char_iff : vs.any (· == char c) = true ↔ char c ∈ vs := by
  simp [List.any_eq_true, beq_char_iff]

theorem atMost_char (a b : Char) : (char a).ordered .atMost (char b) = .ok (decide (a ≤ b)) := by
  have hle : a ≤ b ↔ a.toNat ≤ b.toNat := UInt32.le_iff_toNat_le
  rw [char, char, ordered]
  simp only [List.map_cons, List.map_nil, compareCodes, hle]
  split
  · next hlt => simp [Comparison.admits, Nat.le_of_lt hlt]
  · next hge =>
    split
    · next hgt => simp [Comparison.admits, Nat.not_le.mpr hgt]
    · next heq => simp [Comparison.admits, Nat.not_lt.mp heq]

end Value

/-- The characters from one to another, by their codes. -/
def charactersFrom (low high : Char) : List Char :=
  (List.range' low.toNat (high.toNat + 1 - low.toNat)).map Char.ofNat

theorem mem_charactersFrom {low high c : Char} (hhigh : high.toNat < 0xd800) :
    c ∈ charactersFrom low high ↔ low ≤ c ∧ c ≤ high := by
  have hle : ∀ a b : Char, a ≤ b ↔ a.toNat ≤ b.toNat := fun _ _ => UInt32.le_iff_toNat_le
  rw [charactersFrom, List.mem_map]
  simp only [List.mem_range'_1, hle]
  constructor
  · rintro ⟨n, hn, rfl⟩
    have hcode : (Char.ofNat n).toNat = n := by
      rw [Char.ofNat, dif_pos (.inl (by omega))]
      rfl
    omega
  · intro h
    exact ⟨c.toNat, by omega, Char.ofNat_toNat c⟩

theorem Source.getElem?_text (chars : Array Char) (p : Nat) :
    (Source.text chars).elements[p]? = (chars.toList.drop p).head?.map Value.char := by
  rw [elements, List.getElem?_map, List.head?_drop]

theorem drop_of_append {cs front rest : List Char} {p : Nat} (h : cs.drop p = front ++ rest) :
    cs.drop (p + front.length) = rest := by
  rw [← List.drop_drop, h, List.drop_left]

theorem drop_of_cons {cs rest : List Char} {c : Char} {p : Nat} (h : cs.drop p = c :: rest) :
    cs.drop (p + 1) = rest := @drop_of_append cs [c] rest p h

end PegMatcher
