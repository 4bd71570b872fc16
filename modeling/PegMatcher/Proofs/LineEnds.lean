import Mathlib.Data.List.TakeWhile
import PegMatcher.Proofs.Positions

/-!
# Line ends

The lines to be shown end at any character that ends a line, but the number of a line counts newlines. A
text that ends with a newline is split apart from what follows it. So the lines in front of a line are
those of the text in front of it: as many as its newlines if every line end has one, and else more.
-/

namespace PegMatcher.Text

set_option autoImplicit false

variable {cs front piece rest line row mark : List Char} {pos : Nat} {c : Char}

/-- No character of a row ends a line. -/
def Inside (row : List Char) : Prop := ∀ c ∈ row, endsLine c = false

namespace Inside

theorem nil : Inside [] := List.forall_mem_nil _

theorem reverse (h : Inside row) : Inside row.reverse := fun c hc => h c (List.mem_reverse.mp hc)

theorem not_newline (h : Inside row) : '\n' ∉ row := fun hmem => absurd (h _ hmem) (by decide)

theorem count_append (h : Inside row) (rest : List Char) : (row ++ rest).count '\n' = rest.count '\n' := by
  rw [List.count_append, List.count_eq_zero.mpr h.not_newline, Nat.zero_add]

theorem takeWhile_append (h : Inside row) (rest : List Char) :
    (row ++ rest).takeWhile (fun c => !endsLine c) = row ++ rest.takeWhile (fun c => !endsLine c) :=
  List.takeWhile_append_of_pos fun c hc => by simp [h c hc]

end Inside

/-- What ends a line in front of `rest`: a return and a newline, or one other character. -/
inductive Ends : List Char → List Char → Prop
  | both (rest : List Char) : Ends ['\r', '\n'] rest
  | single {c : Char} {rest : List Char} (h : endsLine c = true)
      (hreturn : ∀ behind, c = '\r' → rest = '\n' :: behind → False) : Ends [c] rest

theorem linesFrom_ends (h : Ends mark rest) (line : List Char) :
    linesFrom line (mark ++ rest) = line.reverse :: lines rest := by
  cases h with
  | both rest => rfl
  | single hc hreturn =>
    rw [List.singleton_append, linesFrom.eq_3 _ _ _ hreturn, if_pos hc]
    rfl

theorem linesFrom_inside (h : Inside row) (line rest : List Char) :
    linesFrom line (row ++ rest) = linesFrom (row.reverse ++ line) rest := by
  induction row generalizing line with
  | nil => rfl
  | cons c row ih =>
    obtain ⟨hc, hrow⟩ := List.forall_mem_cons.mp h
    have hreturn : ∀ behind, c = '\r' → row ++ rest = '\n' :: behind → False := by
      rintro _ rfl
      cases hc
    rw [List.cons_append, linesFrom.eq_3 _ _ _ hreturn, hc, List.reverse_cons, List.append_assoc]
    exact ih hrow (c :: line)

theorem lines_ends (hrow : Inside row) (h : Ends mark rest) :
    lines (row ++ (mark ++ rest)) = row :: lines rest := by
  rw [lines, linesFrom_inside hrow, linesFrom_ends h, List.append_nil, List.reverse_reverse]

theorem lines_inside (hrow : Inside row) (hne : row ≠ []) : lines row = [row] := by
  rw [lines, ← List.append_nil row, linesFrom_inside hrow]
  simp [linesFrom, hne]

/-- Every text is empty, a row that nothing ends, or a row, what ends it and the text behind. -/
@[elab_as_elim]
theorem lines_induction {motive : List Char → Prop} (empty : motive [])
    (last : ∀ row, row ≠ [] → Inside row → motive row)
    (ended : ∀ row mark rest, Inside row → Ends mark rest → motive rest → motive (row ++ (mark ++ rest)))
    (cs : List Char) : motive cs := by
  suffices h : ∀ line, Inside line → motive (line.reverse ++ cs) from h [] .nil
  intro line
  induction line, cs using linesFrom.induct with
  | case1 line hempty =>
    obtain rfl : line = [] := by simpa using hempty
    exact fun _ => empty
  | case2 line hfull =>
    intro hline
    rw [List.append_nil]
    exact last line.reverse (by simpa using hfull) hline.reverse
  | case3 line rest ih => exact fun hline => ended _ _ rest hline.reverse (.both rest) (ih .nil)
  | case4 line c rest hreturn hc ih =>
    exact fun hline => ended _ _ rest hline.reverse (.single hc hreturn) (ih .nil)
  | case5 line c rest hreturn hc ih =>
    intro hline
    have hmore := ih (List.forall_mem_cons.mpr ⟨by simpa using hc, hline⟩)
    rwa [List.reverse_cons, List.append_assoc] at hmore

theorem mem_lines (h : line ∈ lines cs) : line <:+: cs ∧ Inside line := by
  induction cs using lines_induction with
  | empty => cases h
  | last row hne hrow =>
    rw [lines_inside hrow hne] at h
    obtain rfl := List.mem_singleton.mp h
    exact ⟨List.infix_rfl, hrow⟩
  | ended row mark rest hrow hmark ih =>
    rw [lines_ends hrow hmark] at h
    rcases List.mem_cons.mp h with rfl | h
    · exact ⟨List.infix_append_left, hrow⟩
    · obtain ⟨hpiece, hline⟩ := ih h
      exact ⟨hpiece.trans ⟨row ++ mark, [], by simp⟩, hline⟩

theorem head?_lines (hne : cs ≠ []) : (lines cs).head? = some (cs.takeWhile fun c => !endsLine c) := by
  induction cs using lines_induction with
  | empty => exact absurd rfl hne
  | last row hne hrow =>
    have hwhole := hrow.takeWhile_append []
    rw [List.append_nil] at hwhole
    rw [lines_inside hrow hne, hwhole]
    simp
  | ended row mark rest hrow hmark ih =>
    rw [lines_ends hrow hmark, hrow.takeWhile_append]
    cases hmark with
    | both rest => simp [show endsLine '\r' = true from rfl]
    | single hc hreturn => simp [hc]

theorem Begins.of_append (h : Begins (front ++ rest)) : Begins rest := by
  obtain h | ⟨earlier, h⟩ := h
  · exact .inl (List.append_eq_nil_iff.mp h).2
  · obtain rfl | ⟨earlier', rfl, -⟩ := List.suffix_concat_iff.mp (h ▸ List.suffix_append front rest)
    · exact .inl rfl
    · exact .inr ⟨earlier', rfl⟩

theorem Begins.not_inside (h : Begins row) (hrow : Inside row) : row = [] := by
  obtain rfl | ⟨earlier, rfl⟩ := h
  · rfl
  · exact absurd (by simp) hrow.not_newline

theorem Ends.append (h : Ends mark rest) (hbegins : Begins (mark ++ rest)) (tail : List Char) :
    Ends mark (rest ++ tail) := by
  cases h with
  | both rest => exact .both _
  | @single c rest hc hreturn =>
    refine .single hc fun behind hcr hrest => ?_
    cases rest with
    | nil =>
      obtain h | ⟨earlier, h⟩ := hbegins
      · cases h
      · simpa [hcr] using congrArg List.getLast? h
    | cons d rest =>
      obtain ⟨rfl, -⟩ := List.cons.inj hrest
      exact hreturn rest hcr rfl

theorem lines_append (hfront : Begins front) (tail : List Char) :
    lines (front ++ tail) = lines front ++ lines tail := by
  induction front using lines_induction with
  | empty => rfl
  | last row hne hrow => exact absurd (hfront.not_inside hrow) hne
  | ended row mark rest hrow hmark ih =>
    rw [List.append_assoc, List.append_assoc, lines_ends hrow (hmark.append hfront.of_append tail),
      lines_ends hrow hmark, ih hfront.of_append.of_append, List.cons_append]

/-- Each character that ends a line is a newline, or a return in front of one. -/
def EndsAtNewlines (cs : List Char) : Prop :=
  ∀ c rest, c :: rest <:+ cs → endsLine c = true → c = '\n' ∨ c = '\r' ∧ ∃ behind, rest = '\n' :: behind

theorem endsAtNewlines_cons : EndsAtNewlines (c :: cs) ↔
    (endsLine c = true → c = '\n' ∨ c = '\r' ∧ ∃ behind, cs = '\n' :: behind) ∧ EndsAtNewlines cs := by
  constructor
  · intro h
    exact ⟨h c cs List.suffix_rfl, fun d rest hsuffix => h d rest (hsuffix.trans (List.suffix_cons c cs))⟩
  · rintro ⟨hc, hcs⟩ d rest hsuffix
    rcases List.suffix_cons_iff.mp hsuffix with heq | hsuffix
    · obtain ⟨rfl, rfl⟩ := List.cons.inj heq
      exact hc
    · exact hcs d rest hsuffix

theorem endsAtNewlines_inside (h : Inside row) (rest : List Char) :
    EndsAtNewlines (row ++ rest) ↔ EndsAtNewlines rest := by
  induction row with
  | nil => rfl
  | cons c row ih =>
    obtain ⟨hc, hrow⟩ := List.forall_mem_cons.mp h
    rw [List.cons_append, endsAtNewlines_cons, ih hrow]
    simp [hc]

theorem Ends.count_le (h : Ends mark rest) : mark.count '\n' ≤ 1 := by
  cases h with
  | both rest => decide
  | single hc hreturn => exact List.count_le_length

theorem endsAtNewlines_ends (h : Ends mark rest) :
    EndsAtNewlines (mark ++ rest) ↔ mark.count '\n' = 1 ∧ EndsAtNewlines rest := by
  cases h with
  | both rest => simp [endsAtNewlines_cons]
  | @single c rest hc hreturn =>
    have hsingle : (c = '\n' ∨ c = '\r' ∧ ∃ behind, rest = '\n' :: behind) ↔ [c].count '\n' = 1 := by
      constructor
      · rintro (rfl | ⟨hcr, behind, hrest⟩)
        · rfl
        · exact (hreturn behind hcr hrest).elim
      · intro hcount
        have hmem : '\n' ∈ [c] := List.count_pos_iff.mp (hcount ▸ Nat.one_pos)
        exact .inl (List.mem_singleton.mp hmem).symm
    rw [List.singleton_append, endsAtNewlines_cons, ← hsingle]
    simp [hc]

theorem count_le_length_lines (cs : List Char) : cs.count '\n' ≤ (lines cs).length := by
  induction cs using lines_induction with
  | empty => exact Nat.le_refl 0
  | last row hne hrow =>
    rw [List.count_eq_zero.mpr hrow.not_newline]
    exact Nat.zero_le _
  | ended row mark rest hrow hmark ih =>
    have hone := hmark.count_le
    rw [lines_ends hrow hmark, hrow.count_append, List.count_append, List.length_cons]
    omega

/-- In front of a line there are as many newlines as lines only if each line end has one. -/
theorem count_eq_length_lines_iff (hfront : Begins front) :
    front.count '\n' = (lines front).length ↔ EndsAtNewlines front := by
  induction front using lines_induction with
  | empty => simp [lines, linesFrom, EndsAtNewlines]
  | last row hne hrow => exact absurd (hfront.not_inside hrow) hne
  | ended row mark rest hrow hmark ih =>
    have hone := hmark.count_le
    have hle := count_le_length_lines rest
    rw [lines_ends hrow hmark, hrow.count_append, List.count_append, List.length_cons,
      endsAtNewlines_inside hrow, endsAtNewlines_ends hmark, ← ih hfront.of_append.of_append]
    omega

/-- `line` stands behind `front` up to a newline or the end of the text, and has a number. -/
structure IsLine (cs : List Char) (number : Nat) (front line : List Char) : Prop where
  text : ∃ rest, cs = front ++ (line ++ rest) ∧ (rest = [] ∨ ∃ behind, rest = '\n' :: behind)
  begins : Begins front
  inside : '\n' ∉ line
  number_eq : number = front.count '\n' + 1

theorem Begins.eq_nil (h : Begins (front ++ rest)) (hcount : (front ++ rest).count '\n' = front.count '\n') :
    rest = [] := by
  obtain rfl | ⟨earlier, rfl⟩ := h.of_append
  · rfl
  · simp at hcount

theorem IsLine.takeWhile_eq {number : Nat} (h : IsLine cs number front line) :
    (cs.drop front.length).takeWhile (· != '\n') = line := by
  obtain ⟨rest, rfl, hrest⟩ := h.text
  rw [List.drop_left, takeWhile_append_inside h.inside]
  rcases hrest with rfl | ⟨behind, rfl⟩ <;> simp

theorem IsLine.unique {number : Nat} {front' line' : List Char} (h : IsLine cs number front line)
    (h' : IsLine cs number front' line') : front' = front ∧ line' = line := by
  obtain ⟨rest, htext, -⟩ := h.text
  obtain ⟨rest', htext', -⟩ := h'.text
  have hcount : front'.count '\n' = front.count '\n' :=
    Nat.succ.inj (h'.number_eq.symm.trans h.number_eq)
  have hfront : front' = front := by
    rcases List.append_eq_append_iff.mp (htext'.symm.trans htext) with ⟨more, rfl, -⟩ | ⟨more, rfl, -⟩
    · rw [h.begins.eq_nil hcount.symm, List.append_nil]
    · rw [h'.begins.eq_nil hcount, List.append_nil]
  exact ⟨hfront, by rw [← h'.takeWhile_eq, ← h.takeWhile_eq, hfront]⟩

theorem not_mem_takeWhile (cs : List Char) : '\n' ∉ cs.takeWhile (· != '\n') := fun hmem =>
  absurd (List.all_eq_true.mp List.all_takeWhile _ hmem) (by simp)

theorem takeWhile_inside (cs : List Char) :
    (cs.takeWhile (· != '\n')).takeWhile (fun c => !endsLine c) = cs.takeWhile fun c => !endsLine c := by
  rw [List.takeWhile_takeWhile]
  congr 1
  funext c
  cases hc : endsLine c with
  | true => simp
  | false => simp [show c ≠ '\n' by rintro rfl; cases hc]

namespace Stands

theorem isLine (h : Stands cs pos front piece rest) :
    IsLine cs (lineNumber cs pos) front (piece ++ rest.takeWhile (· != '\n')) where
  text := by
    refine ⟨rest.dropWhile (· != '\n'), ?_, ?_⟩
    · rw [List.append_assoc, List.takeWhile_append_dropWhile]
      exact h.text
    · cases hrest : rest.dropWhile (· != '\n') with
      | nil => exact .inl rfl
      | cons d behind =>
        have hne : rest.dropWhile (· != '\n') ≠ [] := hrest ▸ List.cons_ne_nil d behind
        have hd : d = '\n' := by simpa [hrest] using List.head_dropWhile_not _ hne
        exact .inr ⟨behind, hd ▸ rfl⟩
  begins := h.begins
  inside := by
    rw [List.mem_append]
    exact not_or.mpr ⟨h.inside, not_mem_takeWhile rest⟩
  number_eq := h.lineNumber_eq

theorem found_eq (h : Stands cs pos front piece rest) :
    (lines cs)[lineNumber cs pos - 1]? = (lines front ++ lines (piece ++ rest))[front.count '\n']? := by
  rw [h.lineNumber_eq, Nat.add_sub_cancel, h.text, lines_append h.begins]

/-- If every line end in front of a line has a newline, the line is found under its number. -/
theorem found (h : Stands cs pos front piece rest) (hends : EndsAtNewlines front) :
    (lines cs)[lineNumber cs pos - 1]? = (lines (piece ++ rest)).head? := by
  rw [h.found_eq, (count_eq_length_lines_iff h.begins).mpr hends, List.getElem?_append_right (Nat.le_refl _),
    Nat.sub_self, List.head?_eq_getElem?]

theorem found_beginning (h : Stands cs pos front piece rest) (hends : EndsAtNewlines front)
    (hne : piece ++ rest ≠ []) : (lines cs)[lineNumber cs pos - 1]? =
      some ((piece ++ rest.takeWhile (· != '\n')).takeWhile fun c => !endsLine c) := by
  rw [h.found hends, head?_lines hne, ← takeWhile_inside, takeWhile_append_inside h.inside]

/-- If a line end in front of a line has no newline, a line in front of it is found under its number. -/
theorem found_earlier (h : Stands cs pos front piece rest) (hends : ¬ EndsAtNewlines front) :
    ∃ line ∈ lines front, (lines cs)[lineNumber cs pos - 1]? = some line := by
  have hlt : front.count '\n' < (lines front).length :=
    Nat.lt_of_le_of_ne (count_le_length_lines front) (mt (count_eq_length_lines_iff h.begins).mp hends)
  refine ⟨(lines front)[front.count '\n'], List.getElem_mem hlt, ?_⟩
  rw [h.found_eq, List.getElem?_append_left hlt, List.getElem?_eq_getElem hlt]

end Stands

/-- Newlines are the only line ends of the text. -/
def OnlyNewlines (cs : List Char) : Prop := ∀ c ∈ cs, endsLine c = true → c = '\n'

theorem Stands.line_eq (h : Stands cs pos front piece rest) (hends : OnlyNewlines cs)
    (hne : piece ++ rest ≠ []) :
    (lines cs)[lineNumber cs pos - 1]? = some (piece ++ rest.takeWhile (· != '\n')) := by
  have hfront : EndsAtNewlines front := fun c behind hsuffix hc => by
    have hmem : c ∈ front := hsuffix.mem List.mem_cons_self
    exact .inl (hends c (by simp [h.text, hmem]) hc)
  rw [h.found_beginning hfront hne, List.takeWhile_eq_self_iff.mpr]
  intro c hc
  have hline : c ≠ '\n' := ne_of_mem_of_not_mem hc h.isLine.inside
  have hmem : c ∈ cs := by
    rw [h.text]
    refine List.mem_append_right front ?_
    rw [← takeWhile_append_inside h.inside] at hc
    exact (List.takeWhile_prefix _).subset hc
  simpa using mt (hends c hmem) hline

theorem exists_line (hends : OnlyNewlines cs) (hc : cs[pos]? = some c) (hline : c ≠ '\n') :
    ∃ (row : List Char) (n : Nat), (lines cs)[lineNumber cs pos - 1]? = some row ∧ column cs pos = n + 1 ∧
      '\n' ∉ row ∧ row[n]? = some c ∧ row[n + 1]? = cs[pos + 1]?.filter (· != '\n') := by
  obtain ⟨hlt, hget⟩ := List.getElem?_eq_some_iff.mp hc
  obtain ⟨front, piece, hstands⟩ := exists_stands (Nat.le_of_lt hlt)
  rw [List.drop_eq_getElem_cons hlt, hget] at hstands
  have hrow : (c :: cs.drop (pos + 1)).takeWhile (· != '\n') =
      c :: (cs.drop (pos + 1)).takeWhile (· != '\n') := List.takeWhile_cons_of_pos (by simpa using hline)
  have hfound := hstands.line_eq hends (List.append_ne_nil_of_right_ne_nil _ (List.cons_ne_nil _ _))
  have hinside := hstands.isLine.inside
  rw [hrow] at hfound hinside
  refine ⟨_, piece.length, hfound, hstands.column_eq, hinside, ?_, ?_⟩
  · rw [List.getElem?_append_right (Nat.le_refl _), Nat.sub_self]
    rfl
  · rw [List.getElem?_append_right (Nat.le_add_right _ 1), Nat.add_sub_cancel_left, List.getElem?_cons_succ,
      ← List.head?_eq_getElem?, List.head?_takeWhile, List.head?_drop]

end PegMatcher.Text
