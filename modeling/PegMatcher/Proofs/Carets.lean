import PegMatcher.Mismatch
import PegMatcher.Proofs.LineEnds

/-!
# Carets

The note on a position of a text shows a piece of its line and, in a line below, a caret. Up to the
twentieth column the caret is below the character at the position. In the columns beyond, the piece begins
one character later than the caret supposes, and the caret is below the next character.
-/

namespace PegMatcher

set_option autoImplicit false

/-- The note ends with a piece of a line and, below it, a caret behind some blanks. -/
def Shows (note : String) (shown : List Char) (blanks : Nat) : Prop :=
  ∃ heading, note.toList = heading ++ '\n' :: (shown ++ '\n' :: (List.replicate blanks ' ' ++ ['^'])) ∧
    '\n' ∉ shown

def underlined (shown : List Char) (blanks : Nat) : String :=
  String.ofList shown ++ "\n" ++ String.ofList (List.replicate blanks ' ') ++ "^"

variable {chars row shown shown' : List Char} {note : String} {pos n blanks blanks' : Nat} {c : Char}

/-- What a note tells of a position in a text. -/
def positionHeading (cs : List Char) (pos : Int) : String :=
  "At position " ++ toString pos ++ " (line " ++ toString (Text.lineNumber cs pos) ++ ", column "
    ++ toString (Text.column cs pos) ++ ")"

theorem ofPosition_notes (message : Option String) (expected : List String) (hpos : pos ≤ chars.length) :
    (Mismatch.ofPosition (.text chars) pos message expected).notes =
      ["\n".intercalate (positionHeading chars pos :: (positionExcerpt chars pos).toList)] := by
  have hmin : min (pos : Int) (Subject.text chars).size = pos := Int.min_eq_left (Int.ofNat_le.mpr hpos)
  rw [Mismatch.ofPosition, Mismatch.addNote, positionNote, hmin]
  rfl

theorem shows_underlined (heading : String) (h : '\n' ∉ shown) (blanks : Nat) :
    Shows ("\n".intercalate [heading, underlined shown blanks]) shown blanks := by
  have hjoin (a b : String) : "\n".intercalate [a, b] = a ++ "\n" ++ b := rfl
  refine ⟨heading.toList, ?_, h⟩
  simp [hjoin, underlined]

theorem Shows.unique (h : Shows note shown blanks) (h' : Shows note shown' blanks') :
    shown' = shown ∧ blanks' = blanks := by
  obtain ⟨heading, hnote, hshown⟩ := h
  obtain ⟨heading', hnote', hshown'⟩ := h'
  have hreverse := congrArg List.reverse (hnote'.symm.trans hnote)
  simp only [List.reverse_append, List.reverse_cons, List.reverse_nil, List.nil_append, List.cons_append,
    List.append_assoc, List.reverse_replicate] at hreverse
  have hcaret (k : Nat) : '\n' ∉ '^' :: List.replicate k ' ' := by simp [List.mem_replicate]
  obtain ⟨hcarets, hrest⟩ := Text.append_delimiter_inj (hcaret blanks') (hcaret blanks) hreverse
  obtain ⟨hpieces, -⟩ := Text.append_delimiter_inj (by simpa using hshown') (by simpa using hshown) hrest
  exact ⟨List.reverse_inj.mp hpieces, by simpa using congrArg List.length hcarets⟩

theorem Text.exists_excerpt (h : n ≤ row.length) : ∃ shown blanks,
    excerpt row (n + 1) = some (underlined shown blanks) ∧ (∀ c ∈ shown, c ∈ row) ∧
      shown[blanks]? = if (n : Int) + 1 ≤ 20 then row[n]? else row[n + 1]? := by
  have hreaches : ¬ (row.length : Int) < n + 1 - 1 := by omega
  rw [excerpt, if_neg hreaches]
  by_cases hshort : (n : Int) + 1 ≤ 20
  · refine ⟨row.take 40, n, ?_, fun _ => List.mem_of_mem_take, ?_⟩
    · rw [if_pos hshort, Int.add_sub_cancel, Int.toNat_natCast]
      rfl
    · rw [if_pos hshort, List.getElem?_take_of_lt (by omega)]
  · refine ⟨(row.drop (n + 1 - 20)).take 40, 20, ?_,
      fun _ hmem => List.mem_of_mem_drop (List.mem_of_mem_take hmem), ?_⟩
    · rw [if_neg hshort, show ((n : Int) + 1 - 20).toNat = n + 1 - 20 by omega]
      rfl
    · rw [if_neg hshort, List.getElem?_take_of_lt (by omega), List.getElem?_drop,
        show n + 1 - 20 + 20 = n + 1 by omega]

theorem exists_positionExcerpt (hends : Text.OnlyNewlines chars) (hc : chars[pos]? = some c)
    (hline : c ≠ '\n') : ∃ shown blanks,
    positionExcerpt chars pos = some (underlined shown blanks) ∧ '\n' ∉ shown ∧
      shown[blanks]? = if Text.column chars pos ≤ 20 then some c
        else chars[pos + 1]?.filter (· != '\n') := by
  obtain ⟨row, n, hfound, hcolumn, hinside, hhere, hnext⟩ := Text.exists_line hends hc hline
  have hreaches : n ≤ row.length := Nat.le_of_lt (List.getElem?_eq_some_iff.mp hhere).choose
  obtain ⟨shown, blanks, hexcerpt, hmem, hchar⟩ := Text.exists_excerpt hreaches
  refine ⟨shown, blanks, ?_, fun h => hinside (hmem _ h), ?_⟩
  · rw [positionExcerpt, hfound, hcolumn]
    exact hexcerpt
  · rw [hchar, hhere, hnext, hcolumn]

theorem exists_note (message : Option String) (expected : List String) (hpos : pos ≤ chars.length)
    (h : positionExcerpt chars pos = some (underlined shown blanks)) (hshown : '\n' ∉ shown) :
    ∃ note, (Mismatch.ofPosition (.text chars) pos message expected).notes = [note] ∧
      Shows note shown blanks := by
  refine ⟨_, ofPosition_notes message expected hpos, ?_⟩
  rw [h]
  exact shows_underlined _ hshown blanks

/-- The caret is below the character at the position, but beyond the twentieth column below the next character
of the line, or behind its last one. -/
theorem caret_character (message : Option String) (expected : List String)
    (hends : Text.OnlyNewlines chars) (hc : chars[pos]? = some c) (hline : c ≠ '\n') :
    ∃ note, (Mismatch.ofPosition (.text chars) pos message expected).notes = [note] ∧
      (∃ shown blanks, Shows note shown blanks) ∧
      ∀ shown blanks, Shows note shown blanks →
        shown[blanks]? = if Text.column chars pos ≤ 20 then some c
          else chars[pos + 1]?.filter (· != '\n') := by
  have hpos : pos ≤ chars.length := Nat.le_of_lt (List.getElem?_eq_some_iff.mp hc).choose
  obtain ⟨shown, blanks, hexcerpt, hshown, hchar⟩ := exists_positionExcerpt hends hc hline
  obtain ⟨note, hnotes, hshows⟩ := exists_note message expected hpos hexcerpt hshown
  refine ⟨note, hnotes, ⟨shown, blanks, hshows⟩, fun shown' blanks' hshows' => ?_⟩
  obtain ⟨rfl, rfl⟩ := hshows.unique hshows'
  exact hchar

def smallLetters : List Char := (List.range 26).map fun i => Char.ofNat ('a'.toNat + i)

/-- The position of `u`, the first one beyond the twentieth column, is shown by a caret below `v`. -/
theorem caret_character_beyond_twenty :
    Text.OnlyNewlines smallLetters ∧ smallLetters[20]? = some 'u' ∧
      ∃ note, (Mismatch.ofPosition (.text smallLetters) 20 none []).notes = [note] ∧
        (∃ shown blanks, Shows note shown blanks) ∧
        ∀ shown blanks, Shows note shown blanks → shown[blanks]? = some 'v' := by
  have hinside : smallLetters.all (fun c => !Text.endsLine c) = true := by decide
  have hends : Text.OnlyNewlines smallLetters := fun c hc hend => by
    simpa [hend] using List.all_eq_true.mp hinside c hc
  have hu : smallLetters[20]? = some 'u' := by decide
  have hv : (if Text.column smallLetters (20 : Nat) ≤ 20 then some 'u'
      else smallLetters[20 + 1]?.filter (· != '\n')) = some 'v' := by decide
  obtain ⟨note, hnotes, hshows, hcaret⟩ := caret_character none [] hends hu (by decide)
  exact ⟨hends, hu, note, hnotes, hshows, fun shown blanks h => (hcaret shown blanks h).trans hv⟩

end PegMatcher
