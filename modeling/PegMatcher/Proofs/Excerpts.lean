import PegMatcher.Proofs.Carets

/-!
# Excerpts

The note on a position of a text gives the number of its line, and may show an excerpt of the line that is
found under this number. If every line end in front of the line has a newline, the excerpt is a piece of
the line. Else more lines are found in front of it than are counted, and the excerpt is a piece of what
stands in front of the line.
-/

namespace PegMatcher

set_option autoImplicit false

variable {cs chars front piece rest line : List Char} {pos : Nat} {column : Int} {text : String}

theorem Text.excerpt_piece (h : excerpt line column = some text) :
    ∃ shown blanks, text = underlined shown blanks ∧ shown <:+: line := by
  rw [excerpt] at h
  split at h
  · cases h
  · split at h
    · exact ⟨line.take 40, (column - 1).toNat, (Option.some.inj h).symm, (List.take_prefix _ _).isInfix⟩
    · exact ⟨(line.drop (column - 20).toNat).take 40, 20, (Option.some.inj h).symm,
        (List.take_prefix _ _).isInfix.trans (List.drop_suffix _ _).isInfix⟩

theorem Text.excerpt_eq_none_iff : excerpt line column = none ↔ (line.length : Int) < column - 1 := by
  rw [excerpt]
  split
  · exact iff_of_true rfl ‹_›
  · refine iff_of_false ?_ ‹_›
    split <;> exact Option.some_ne_none _

/-- Under the number of a position's line is found the beginning of that line, or a line in front of it. -/
theorem Text.Stands.piece_of_found (h : Stands cs pos front piece rest)
    (hfound : (lines cs)[lineNumber cs pos - 1]? = some line) : Inside line ∧
      (EndsAtNewlines front → line <:+: piece ++ rest.takeWhile (· != '\n')) ∧
      (¬ EndsAtNewlines front → line <:+: front) := by
  refine ⟨(mem_lines (List.mem_of_getElem? hfound)).2, fun hends => ?_, fun hends => ?_⟩
  · have hne : piece ++ rest ≠ [] := by
      intro hempty
      rw [h.found hends, hempty] at hfound
      cases hfound
    rw [h.found_beginning hends hne] at hfound
    exact Option.some.inj hfound ▸ (List.takeWhile_prefix _).isInfix
  · obtain ⟨earlier, hmem, hearlier⟩ := h.found_earlier hends
    obtain rfl : earlier = line := Option.some.inj (hearlier.symm.trans hfound)
    exact (mem_lines hmem).1

theorem Text.length_takeWhile_lt_iff :
    ((piece ++ rest).takeWhile fun c => !endsLine c).length < piece.length ↔ ¬ Inside piece := by
  have hself : piece.takeWhile (fun c => !endsLine c) = piece ↔ Inside piece := by
    simp [List.takeWhile_eq_self_iff, Inside]
  have htaken := List.takeWhile_prefix (l := piece) fun c => !endsLine c
  rw [List.takeWhile_append, ← hself]
  split
  · next hsize =>
    have hle : piece.length ≤ (piece ++ rest.takeWhile fun c => !endsLine c).length := by simp
    exact iff_of_false (Nat.not_lt.mpr hle) (not_not.mpr (htaken.eq_of_length hsize))
  · next hsize =>
    have hlt := Nat.lt_of_le_of_ne htaken.length_le hsize
    exact iff_of_true hlt fun heq => hsize (congrArg List.length heq)

theorem Text.Stands.positionExcerpt_eq_none_iff (h : Stands cs pos front piece rest)
    (hends : EndsAtNewlines front) : positionExcerpt cs pos = none ↔ front = cs ∨ ¬ Inside piece := by
  by_cases hempty : piece ++ rest = []
  · have hfront : front = cs := by rw [h.text, hempty, List.append_nil]
    rw [positionExcerpt, h.found hends, hempty]
    exact iff_of_true rfl (.inl hfront)
  · have hfront : front ≠ cs := by
      intro hfront
      exact hempty (List.append_right_eq_self.mp (hfront ▸ h.text.symm))
    have hcolumn : column cs pos - 1 = piece.length := by rw [h.column_eq, Int.add_sub_cancel]
    rw [positionExcerpt, h.found_beginning hends hempty, Option.bind_some, excerpt_eq_none_iff, hcolumn,
      Int.ofNat_lt, length_takeWhile_lt_iff, or_iff_right hfront]

theorem intercalate_ne (heading text : String) : "\n".intercalate [heading, text] ≠ heading := by
  intro h
  have hjoin : "\n".intercalate [heading, text] = heading ++ "\n" ++ text := rfl
  have hlength := congrArg String.length (hjoin.symm.trans h)
  rw [String.length_append, String.length_append, show "\n".length = 1 from rfl] at hlength
  omega

/-- What the note on a position shows is a piece of the line in which the position stands, if every line end in
front of that line has a newline, and else a piece of what stands in front of the line. -/
theorem excerpt_of_line (message : Option String) (expected : List String) (hpos : pos ≤ chars.length) :
    ∃ front row, Text.IsLine chars (Text.lineNumber chars pos) front row ∧
      front.length ≤ pos ∧ pos ≤ front.length + row.length ∧
      ∃ note, (Mismatch.ofPosition (.text chars) pos message expected).notes = [note] ∧
        (note = positionHeading chars pos ∨ ∃ shown blanks,
          note = positionHeading chars pos ++ "\n" ++ underlined shown blanks ∧ Text.Inside shown ∧
          (Text.EndsAtNewlines front → shown <:+: row) ∧
          (¬ Text.EndsAtNewlines front → shown <:+: front)) ∧
        (Text.EndsAtNewlines front → (note = positionHeading chars pos ↔
          front = chars ∨ ¬ Text.Inside (row.take (pos - front.length)))) := by
  obtain ⟨front, piece, hstands⟩ := Text.exists_stands hpos
  refine ⟨front, _, hstands.isLine, ?_, ?_, _, ofPosition_notes message expected hpos, ?_, fun hends => ?_⟩
  · rw [hstands.place]
    exact Nat.le_add_right _ _
  · rw [hstands.place, List.length_append]
    omega
  · cases hexcerpt : positionExcerpt chars pos with
    | none => exact .inl rfl
    | some text =>
      obtain ⟨line, hfound, htext⟩ := Option.bind_eq_some_iff.mp hexcerpt
      obtain ⟨shown, blanks, rfl, hpiece⟩ := Text.excerpt_piece htext
      obtain ⟨hinside, hhere, hearlier⟩ := hstands.piece_of_found hfound
      exact .inr ⟨shown, blanks, rfl, fun c hc => hinside c (hpiece.subset hc),
        fun hends => hpiece.trans (hhere hends), fun hends => hpiece.trans (hearlier hends)⟩
  · have hpiece : pos - front.length = piece.length := by rw [hstands.place, Nat.add_sub_cancel_left]
    rw [hpiece, List.take_left, ← hstands.positionExcerpt_eq_none_iff hends]
    cases positionExcerpt chars pos with
    | none => exact iff_of_true rfl rfl
    | some text => exact iff_of_false (intercalate_ne _ text) (Option.some_ne_none text)

def formFed : List Char := ['a', '\x0c', 'b', '\n', 'c']

/-- The form feed ends a line that is not counted, so the end of the first line is shown for `c`. -/
theorem excerpt_of_line_form_feed :
    4 ≤ formFed.length ∧ Text.IsLine formFed 2 ['a', '\x0c', 'b', '\n'] ['c'] ∧
      positionExcerpt formFed 4 = some (underlined ['b'] 0) ∧
      ∃ note, (Mismatch.ofPosition (.text formFed) 4 none []).notes = [note] ∧
        (note = positionHeading formFed 4 ∨ ∃ shown blanks,
          note = positionHeading formFed 4 ++ "\n" ++ underlined shown blanks ∧
          shown <:+: ['a', '\x0c', 'b', '\n']) := by
  have hsecond : Text.IsLine formFed 2 ['a', '\x0c', 'b', '\n'] ['c'] :=
    ⟨⟨[], rfl, .inl rfl⟩, .inr ⟨['a', '\x0c', 'b'], rfl⟩, by decide, rfl⟩
  have huncounted : ¬ Text.EndsAtNewlines ['a', '\x0c', 'b', '\n'] := fun hends => by
    simpa using hends '\x0c' ['b', '\n'] ⟨['a'], rfl⟩ rfl
  have hpos : 4 ≤ formFed.length := by decide
  obtain ⟨front, row, hline, -, -, note, hnotes, hnote, -⟩ := excerpt_of_line none [] hpos
  obtain ⟨rfl, rfl⟩ := hsecond.unique hline
  refine ⟨hpos, hsecond, rfl, note, hnotes, hnote.imp_right ?_⟩
  rintro ⟨shown, blanks, heq, -, -, hearlier⟩
  exact ⟨shown, blanks, heq, hearlier huncounted⟩

end PegMatcher
