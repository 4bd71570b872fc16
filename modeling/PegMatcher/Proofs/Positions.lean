import Mathlib.Data.List.Induction
import PegMatcher.Text.Lines

/-!
# Positions in a text

A position stands in the line that begins behind the last newline before it. Its number counts the lines
before that one, its column the characters of the line before the position.
-/

namespace PegMatcher.Text

set_option autoImplicit false

variable {cs front piece rest : List Char} {pos : Nat}

/-- A line begins behind `front`. -/
def Begins (front : List Char) : Prop := front = [] ∨ ∃ earlier, front = earlier ++ ['\n']

theorem takeWhile_append_inside {d : Char} (h : d ∉ piece) (rest : List Char) :
    (piece ++ rest).takeWhile (· != d) = piece ++ rest.takeWhile (· != d) :=
  List.takeWhile_append_of_pos fun _ hmem => bne_iff_ne.mpr (ne_of_mem_of_not_mem hmem h)

theorem append_delimiter_inj {d : Char} {xs ys xs' ys' : List Char} (h : d ∉ xs) (h' : d ∉ xs')
    (heq : xs ++ d :: ys = xs' ++ d :: ys') : xs = xs' ∧ ys = ys' := by
  have hxs : xs = xs' := by
    have htake := congrArg (List.takeWhile (· != d)) heq
    rw [takeWhile_append_inside h, takeWhile_append_inside h'] at htake
    simpa using htake
  rw [hxs, List.append_cancel_left_eq] at heq
  exact ⟨hxs, List.tail_eq_of_cons_eq heq⟩

theorem exists_begins (cs : List Char) :
    ∃ front piece, cs = front ++ piece ∧ Begins front ∧ '\n' ∉ piece := by
  induction cs using List.reverseRecOn with
  | nil => exact ⟨[], [], rfl, .inl rfl, by simp⟩
  | append_singleton cs c ih =>
    by_cases hc : c = '\n'
    · exact ⟨cs ++ ['\n'], [], by simp [hc], .inr ⟨cs, rfl⟩, by simp⟩
    · obtain ⟨front, piece, rfl, hfront, hpiece⟩ := ih
      exact ⟨front, piece ++ [c], by simp, hfront, by simp [hpiece, Ne.symm hc]⟩

theorem lastNewline_append (hfront : Begins front) (hpiece : '\n' ∉ piece) :
    lastNewline (front ++ piece) = front.length - 1 := by
  have hlast : (front ++ piece).reverse.takeWhile (· != '\n') = piece.reverse := by
    rw [List.reverse_append, takeWhile_append_inside (by simpa using hpiece)]
    rcases hfront with rfl | ⟨earlier, rfl⟩ <;> simp
  rw [lastNewline, hlast, List.length_append, List.length_reverse]
  omega

/-- The position is behind `piece` of the line that begins behind `front`, and `rest` follows. -/
structure Stands (cs : List Char) (pos : Nat) (front piece rest : List Char) : Prop where
  text : cs = front ++ (piece ++ rest)
  place : pos = front.length + piece.length
  begins : Begins front
  inside : '\n' ∉ piece

theorem exists_stands (h : pos ≤ cs.length) : ∃ front piece, Stands cs pos front piece (cs.drop pos) := by
  obtain ⟨front, piece, htake, hfront, hpiece⟩ := exists_begins (cs.take pos)
  refine ⟨front, piece, ?_, ?_, hfront, hpiece⟩
  · rw [← List.append_assoc, ← htake, List.take_append_drop]
  · rw [← List.length_append, ← htake, List.length_take, Nat.min_eq_left h]

namespace Stands

theorem le_length (h : Stands cs pos front piece rest) : pos ≤ cs.length := by
  rw [h.text, h.place, ← List.append_assoc, List.length_append, List.length_append]
  exact Nat.le_add_right _ _

theorem before_eq (h : Stands cs pos front piece rest) : before cs pos = front ++ piece := by
  have hsize : (front ++ piece).length = pos := by rw [List.length_append, h.place]
  rw [before, clampBound_of_le h.le_length, h.text, ← List.append_assoc, List.take_left' hsize]

theorem lineNumber_eq (h : Stands cs pos front piece rest) :
    lineNumber cs pos = front.count '\n' + 1 := by
  rw [lineNumber, h.before_eq, List.count_append, List.count_eq_zero.mpr h.inside, Nat.add_zero]

theorem column_eq (h : Stands cs pos front piece rest) : column cs pos = piece.length + 1 := by
  rw [column, h.before_eq, lastNewline_append h.begins h.inside, h.place]
  omega

end Stands

end PegMatcher.Text
