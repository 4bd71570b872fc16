import Mathlib.Data.Prod.Lex
import PegMatcher.Proofs.Carets

/-!
# Lines and columns

The note on a position of a text tells the position by its line and its column. The column is counted from
where the line begins, so both together lead back to the position, and later positions have greater ones in
the order of reading. A position behind the text is told as its end.
-/

namespace PegMatcher

set_option autoImplicit false

variable {chars front piece rest : List Char} {note note' : String} {pos line line' column column' : Nat}

/-- How a position is told. -/
def coordinates (pos line column : Nat) : String :=
  "At position " ++ toString pos ++ " (line " ++ toString line ++ ", column " ++ toString column ++ ")"

/-- The note begins by telling a position. -/
def Locates (note : String) (line column : Nat) : Prop :=
  ∃ pos below, note = coordinates pos line column ++ below

theorem not_mem_toDigits {d : Char} (hd : d.isDigit = false) (n : Nat) : d ∉ Nat.toDigits 10 n := by
  intro hmem
  have hdigit : d.isDigit = true := Nat.isDigit_of_mem_toDigits (b := 10) (by decide) (by decide) hmem
  rw [hd] at hdigit
  cases hdigit

theorem toDigits_inj {n m : Nat} (h : Nat.toDigits 10 n = Nat.toDigits 10 m) : n = m := by
  rw [← Nat.ofDigitChars_ten_toDigits (n := n), h, Nat.ofDigitChars_ten_toDigits]

theorem toList_coordinates (pos line column : Nat) (below : String) :
    (coordinates pos line column ++ below).toList =
      "At position".toList ++ ' ' :: (Nat.toDigits 10 pos ++ ' ' :: ("(line ".toList ++
        (Nat.toDigits 10 line ++ ',' :: (" column ".toList ++
          (Nat.toDigits 10 column ++ ')' :: below.toList))))) := by
  have hnumber (n : Nat) : (toString n).toList = Nat.toDigits 10 n := Nat.toList_repr
  unfold coordinates
  simp only [String.toList_append, hnumber, List.append_assoc]
  rfl

theorem Locates.unique (h : Locates note line column) (h' : Locates note line' column') :
    line' = line ∧ column' = column := by
  obtain ⟨pos, below, rfl⟩ := h
  obtain ⟨pos', below', h⟩ := h'
  have hchars := congrArg String.toList h
  rw [toList_coordinates, toList_coordinates, List.append_cancel_left_eq, List.cons.injEq] at hchars
  obtain ⟨-, hrest⟩ := Text.append_delimiter_inj (not_mem_toDigits rfl pos) (not_mem_toDigits rfl pos') hchars.2
  rw [List.append_cancel_left_eq] at hrest
  obtain ⟨hline, hrest⟩ := Text.append_delimiter_inj (not_mem_toDigits rfl line) (not_mem_toDigits rfl line') hrest
  rw [List.append_cancel_left_eq] at hrest
  obtain ⟨hcolumn, -⟩ :=
    Text.append_delimiter_inj (not_mem_toDigits rfl column) (not_mem_toDigits rfl column') hrest
  exact ⟨(toDigits_inj hline).symm, (toDigits_inj hcolumn).symm⟩

/-- The note on a position, in a report made there or added to one. -/
structure NoteOn (chars : List Char) (pos : Nat) (note : String) : Prop where
  made : ∀ message expected, (Mismatch.ofPosition (.text chars) pos message expected).notes = [note]
  added : ∀ m : Mismatch, m.subject = .text chars → (m.addNote pos none).notes = m.notes ++ [note]
  below : ∀ (m : Mismatch) sentence, m.subject = .text chars →
    (m.addNote pos (some sentence)).notes = m.notes ++ [sentence ++ "\n" ++ note]

def Reported (chars : List Char) (pos line column : Nat) : Prop :=
  ∃ note, NoteOn chars pos note ∧ Locates note line column

theorem NoteOn.unique (h : NoteOn chars pos note) (h' : NoteOn chars pos note') : note' = note := by
  simpa using (h'.made none []).symm.trans (h.made none [])

theorem noteOn (chars : List Char) (pos : Nat) :
    NoteOn chars pos ("\n".intercalate (positionNote (.text chars) pos none)) where
  made _ _ := rfl
  added m hm := by rw [Mismatch.addNote, hm]
  below m sentence hm := by
    have hnote : positionNote (.text chars) pos (some sentence) =
        sentence :: positionNote (.text chars) pos none := rfl
    have hne : positionNote (.text chars) pos none ≠ [] := List.cons_ne_nil _ _
    rw [Mismatch.addNote, hm, hnote, String.intercalate_cons_of_ne_nil hne]

theorem Text.Stands.locates (h : Stands chars (min pos chars.length) front piece rest) :
    Locates ("\n".intercalate (positionNote (.text chars) pos none)) (front.count '\n' + 1)
      (piece.length + 1) := by
  have hmin : min (pos : Int) (Subject.text chars).size = (min pos chars.length : Nat) := by
    simp only [Subject.size]
    omega
  have hnote : positionNote (.text chars) pos none =
      coordinates (min pos chars.length) (front.count '\n' + 1) (piece.length + 1) ::
        (positionExcerpt chars (min pos chars.length : Nat)).toList := by
    rw [positionNote, hmin]
    simp only [h.lineNumber_eq, h.column_eq]
    rfl
  rw [hnote]
  refine ⟨min pos chars.length, ?_⟩
  cases positionExcerpt chars (min pos chars.length : Nat) with
  | none => exact ⟨"", String.append_empty.symm⟩
  | some shown =>
    refine ⟨"\n" ++ shown, ?_⟩
    rw [← String.append_assoc]
    exact String.intercalate_cons_of_ne_nil (List.cons_ne_nil shown [])

theorem Text.Stands.reported_iff (h : Stands chars (min pos chars.length) front piece rest) :
    Reported chars pos line column ↔ line = front.count '\n' + 1 ∧ column = piece.length + 1 := by
  constructor
  · rintro ⟨note, hnote, hlocates⟩
    obtain rfl := (noteOn chars pos).unique hnote
    exact h.locates.unique hlocates
  · rintro ⟨rfl, rfl⟩
    exact ⟨_, noteOn chars pos, h.locates⟩

theorem Text.Stands.reported_inside (h : Stands chars pos front piece rest) :
    Reported chars pos line column ↔ line = front.count '\n' + 1 ∧ column = piece.length + 1 :=
  reported_iff ((Nat.min_eq_left h.le_length).symm ▸ h)

theorem Text.Stands.later {p q : Nat} {front' piece' rest' : List Char} (hp : Stands chars p front piece rest)
    (hq : Stands chars q front' piece' rest') (hlt : p < q) :
    front.count '\n' < front'.count '\n' ∨ front' = front ∧ piece.length < piece'.length := by
  have hnumber : lineNumber chars p ≤ lineNumber chars q := by
    have htake : before chars p <+: before chars q := by
      rw [before, before, clampBound_of_le hp.le_length, clampBound_of_le hq.le_length]
      exact List.take_prefix_take_left (Nat.le_of_lt hlt)
    exact Nat.succ_le_succ (htake.sublist.count_le '\n')
  rcases Nat.lt_or_eq_of_le hnumber with hbefore | hsame
  · rw [hp.lineNumber_eq, hq.lineNumber_eq] at hbefore
    exact .inl (Nat.lt_of_succ_lt_succ hbefore)
  · obtain ⟨hfront, -⟩ := hp.isLine.unique (hsame ▸ hq.isLine)
    rw [hp.place, hq.place, hfront] at hlt
    exact .inr ⟨hfront, Nat.lt_of_add_lt_add_left hlt⟩

theorem Reported.lt {p q : Nat} (h : Reported chars p line column) (h' : Reported chars q line' column')
    (hlt : p < q) (hq : q ≤ chars.length) : toLex (line, column) < toLex (line', column') := by
  obtain ⟨front, piece, hp⟩ := Text.exists_stands (Nat.le_trans (Nat.le_of_lt hlt) hq)
  obtain ⟨front', piece', hq⟩ := Text.exists_stands hq
  obtain ⟨rfl, rfl⟩ := hp.reported_inside.mp h
  obtain ⟨rfl, rfl⟩ := hq.reported_inside.mp h'
  rw [Prod.Lex.toLex_lt_toLex]
  rcases hp.later hq hlt with hbefore | ⟨rfl, hinside⟩
  · exact .inl (Nat.succ_lt_succ hbefore)
  · exact .inr ⟨rfl, Nat.succ_lt_succ hinside⟩

/-- The line and the column that the note on a position tells lead back to the position, later positions are
told by later ones, and positions behind the text by those of its end. -/
theorem line_and_column (chars : List Char) :
    (∀ pos ≤ chars.length, ∃ line column,
      (∀ line' column', Reported chars pos line' column' ↔ line' = line ∧ column' = column) ∧
      ∃ front row, Text.IsLine chars line front row ∧ front.length + (column - 1) = pos ∧ 1 ≤ column ∧
        column ≤ row.length + 1) ∧
    (∀ p q line column line' column', p < q → q ≤ chars.length → Reported chars p line column →
      Reported chars q line' column' → toLex (line, column) < toLex (line', column')) ∧
    (∀ p q line column, p ≤ chars.length → q ≤ chars.length → Reported chars p line column →
      Reported chars q line column → p = q) ∧
    (∀ pos line column, chars.length < pos →
      (Reported chars pos line column ↔ Reported chars chars.length line column)) := by
  refine ⟨?_, ?_, ?_, ?_⟩
  · intro pos hpos
    obtain ⟨front, piece, hstands⟩ := Text.exists_stands hpos
    refine ⟨_, _, fun _ _ => hstands.reported_inside, front, _, hstands.lineNumber_eq ▸ hstands.isLine, ?_,
      Nat.le_add_left 1 _, ?_⟩
    · rw [Nat.add_sub_cancel, hstands.place]
    · rw [List.length_append]
      omega
  · intro p q line column line' column' hlt hq h h'
    exact h.lt h' hlt hq
  · intro p q line column hp hq h h'
    rcases Nat.lt_trichotomy p q with hlt | heq | hgt
    · exact absurd (h.lt h' hlt hq) (lt_irrefl _)
    · exact heq
    · exact absurd (h'.lt h hgt hp) (lt_irrefl _)
  · intro pos line column hbehind
    obtain ⟨front, piece, hend⟩ := Text.exists_stands (Nat.le_refl chars.length)
    have hmin : min pos chars.length = chars.length := Nat.min_eq_right (Nat.le_of_lt hbehind)
    exact (Text.Stands.reported_iff (hmin.symm ▸ hend)).trans hend.reported_inside.symm

/-- The empty line behind a return and a newline, the end of the text, and a position behind it. -/
theorem line_and_column_empty_line :
    let chars := ['a', '\r', '\n', '\n', 'b']
    (3 ≤ chars.length ∧ 5 ≤ chars.length ∧ chars.length < 9 ∧ Reported chars 3 2 1 ∧ Reported chars 5 3 2) ∧
      (∃ front row, Text.IsLine chars 2 front row ∧ front.length = 3 ∧ 1 ≤ row.length + 1) ∧
      toLex (2, 1) < toLex (3, 2) ∧ Reported chars 9 3 2 := by
  intro chars
  have hempty : Text.Stands chars 3 ['a', '\r', '\n'] [] ['\n', 'b'] :=
    ⟨rfl, rfl, .inr ⟨['a', '\r'], rfl⟩, by decide⟩
  have hend : Text.Stands chars 5 ['a', '\r', '\n', '\n'] ['b'] [] :=
    ⟨rfl, rfl, .inr ⟨['a', '\r', '\n'], rfl⟩, by decide⟩
  have h3 : Reported chars 3 2 1 := hempty.reported_inside.mpr ⟨rfl, rfl⟩
  have h5 : Reported chars 5 3 2 := hend.reported_inside.mpr ⟨rfl, rfl⟩
  obtain ⟨hback, hlt, -, hbehind⟩ := line_and_column chars
  obtain ⟨line, column, hpair, front, row, hline, hplace, -, hcolumn⟩ := hback 3 (by decide)
  obtain ⟨rfl, rfl⟩ := (hpair 2 1).mp h3
  exact ⟨⟨by decide, by decide, by decide, h3, h5⟩, ⟨front, row, hline, hplace, hcolumn⟩,
    hlt 3 5 2 1 3 2 (by decide) (by decide) h3 h5, (hbehind 9 3 2 (by decide)).mpr h5⟩

end PegMatcher
