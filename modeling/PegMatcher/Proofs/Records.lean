import PegMatcher.Tracker

/-!
# What records make of a tracker

A tracker that comes of another one by recording misses holds nothing but what was there and what was
recorded, and of everything recorded it knows either the label or a place that is further on.
-/

namespace PegMatcher

set_option autoImplicit false

namespace Tracker

variable {miss miss' : String → Int → Prop} {t u w : Tracker} {label : String} {pos : Int}

/-- The second tracker is what recording some of the misses makes of the first. -/
inductive Recorded (miss : String → Int → Prop) (t : Tracker) : Tracker → Prop where
  | refl : Recorded miss t t
  | record {u : Tracker} {label : String} {pos : Int} : Recorded miss t u → miss label pos →
      Recorded miss t (u.record pos label)

theorem Recorded.trans (h : Recorded miss t u) (h' : Recorded miss u w) : Recorded miss t w := by
  induction h' with
  | refl => exact h
  | record _ hmiss ih => exact .record ih hmiss

theorem Recorded.mono (h : Recorded miss t u) (hmiss : ∀ label pos, miss label pos → miss' label pos) :
    Recorded miss' t u := by
  induction h with
  | refl => exact .refl
  | record _ hnew ih => exact .record ih (hmiss _ _ hnew)

/-- The tracker knows of the miss, or of one that is further on. -/
def Covers (t : Tracker) (label : String) (pos : Int) : Prop :=
  pos < t.pos ∨ pos = t.pos ∧ label ∈ t.expected

theorem Covers.le_pos (h : t.Covers label pos) : pos ≤ t.pos := by
  rcases h with hlt | ⟨heq, _⟩
  · exact Int.le_of_lt hlt
  · exact Int.le_of_eq heq

theorem covers_record (t : Tracker) (pos : Int) (label : String) :
    (t.record pos label).Covers label pos := by
  unfold record Covers
  by_cases hfurther : t.pos < pos
  · rw [if_pos hfurther]
    exact .inr ⟨rfl, by simp⟩
  · rw [if_neg hfurther]
    by_cases hsame : pos = t.pos
    · by_cases hmem : label ∈ t.expected
      · simp [hsame, hmem]
      · simp [hsame, hmem]
    · have hbehind : pos < t.pos := by omega
      simp [hsame, hbehind]

theorem Covers.record (h : t.Covers label pos) (pos' : Int) (label' : String) :
    (t.record pos' label').Covers label pos := by
  unfold Tracker.record
  split
  · rename_i hfurther
    rcases h with hlt | ⟨heq, _⟩
    · exact .inl (Int.lt_trans hlt hfurther)
    · exact .inl (heq ▸ hfurther)
  · split
    · rcases h with hlt | ⟨heq, hmem⟩
      · exact .inl hlt
      · exact .inr ⟨heq, List.mem_append_left _ hmem⟩
    · exact h

theorem Recorded.covers (h : Recorded miss t u) (hc : t.Covers label pos) : u.Covers label pos := by
  induction h with
  | refl => exact hc
  | record _ _ ih => exact ih.record _ _

theorem record_of_covers (h : t.Covers label pos) : t.record pos label = t := by
  unfold Tracker.record
  rcases h with hlt | ⟨rfl, hmem⟩
  · have hnot : ¬ t.pos < pos := by omega
    have hne : ¬ pos = t.pos := by omega
    simp [hnot, hne]
  · simp [hmem]

theorem Recorded.labels (h : Recorded miss t u) (hmem : label ∈ u.expected) :
    u.pos = t.pos ∧ label ∈ t.expected ∨ miss label u.pos := by
  induction h with
  | refl => exact .inl ⟨rfl, hmem⟩
  | @record u new pos _ hnew ih =>
    unfold Tracker.record at hmem ⊢
    split at hmem
    · rename_i hfurther
      rw [if_pos hfurther]
      obtain rfl : label = new := by simpa using hmem
      exact .inr hnew
    · rename_i hfurther
      rw [if_neg hfurther]
      split at hmem
      · rename_i hadded
        rw [if_pos hadded]
        rcases List.mem_append.mp hmem with hold | hlast
        · exact ih hold
        · obtain rfl : label = new := by simpa using hlast
          exact .inr (hadded.1 ▸ hnew)
      · rename_i hadded
        rw [if_neg hadded]
        exact ih hmem

theorem Recorded.place (h : Recorded miss t u) : u.pos = t.pos ∨ ∃ label, miss label u.pos := by
  induction h with
  | refl => exact .inl rfl
  | @record u new pos _ hnew ih =>
    unfold Tracker.record
    split
    · exact .inr ⟨new, hnew⟩
    · split
      · exact ih
      · exact ih

theorem pos_record (t : Tracker) (pos : Int) (label : String) :
    (t.record pos label).pos = max t.pos pos := by
  unfold record
  by_cases hfurther : t.pos < pos
  · rw [if_pos hfurther]
    exact (Int.max_eq_right (Int.le_of_lt hfurther)).symm
  · rw [if_neg hfurther, Int.max_eq_left (Int.not_lt.mp hfurther)]
    split
    · rfl
    · rfl

theorem le_record (t : Tracker) (pos : Int) (label : String) :
    t.pos ≤ (t.record pos label).pos ∧ pos ≤ (t.record pos label).pos := by
  rw [pos_record]
  exact ⟨Int.le_max_left _ _, Int.le_max_right _ _⟩

theorem Recorded.pos_le (h : Recorded miss t u) : t.pos ≤ u.pos := by
  induction h with
  | refl => exact Int.le_refl _
  | record _ _ ih => exact Int.le_trans ih (le_record _ _ _).1

/-- A label is kept if nothing further on was recorded. -/
theorem mem_record_of_le (h : t.pos ≤ pos) (label : String) :
    label ∈ (t.record pos label).expected := by
  have hpos : (t.record pos label).pos = pos := by rw [pos_record, Int.max_eq_right h]
  rcases t.covers_record pos label with hlt | ⟨_, hmem⟩
  · rw [hpos] at hlt
    exact absurd hlt (Int.lt_irrefl _)
  · exact hmem

theorem Recorded.pos_le_of_misses (h : Recorded miss t u) (hpos : t.pos ≤ pos)
    (hmiss : ∀ label place, miss label place → place ≤ pos) : u.pos ≤ pos := by
  rcases h.place with hsame | ⟨label, hnew⟩
  · rwa [hsame]
  · exact hmiss label _ hnew

def recordAll (t : Tracker) (records : List (Int × String)) : Tracker :=
  records.foldl (fun t r => t.record r.1 r.2) t

@[simp] theorem recordAll_nil (t : Tracker) : t.recordAll [] = t := rfl

@[simp] theorem recordAll_cons (t : Tracker) (r : Int × String) (records : List (Int × String)) :
    t.recordAll (r :: records) = (t.record r.1 r.2).recordAll records := rfl

theorem recordAll_append (t : Tracker) (earlier later : List (Int × String)) :
    t.recordAll (earlier ++ later) = (t.recordAll earlier).recordAll later := List.foldl_append

theorem Covers.recordAll (h : t.Covers label pos) (records : List (Int × String)) :
    (t.recordAll records).Covers label pos := by
  induction records generalizing t with
  | nil => exact h
  | cons r records ih => exact ih (h.record r.1 r.2)

theorem covers_recordAll {records : List (Int × String)} (h : (pos, label) ∈ records) (t : Tracker) :
    (t.recordAll records).Covers label pos := by
  obtain ⟨earlier, later, rfl⟩ := List.append_of_mem h
  rw [recordAll_append, recordAll_cons]
  exact (covers_record _ pos label).recordAll later

theorem recordAll_of_covers {records : List (Int × String)} (h : ∀ r ∈ records, t.Covers r.2 r.1) :
    t.recordAll records = t := by
  induction records with
  | nil => rfl
  | cons r records ih =>
    rw [recordAll_cons, record_of_covers (h r List.mem_cons_self)]
    exact ih fun r hr => h r (List.mem_cons_of_mem _ hr)

/-- Nothing is recorded, or something is at a position. -/
def Sound (t : Tracker) : Prop := t = .fresh ∨ 0 ≤ t.pos ∧ t.expected ≠ []

theorem Sound.record (h : t.Sound) (hpos : 0 ≤ pos) (label : String) :
    (t.record pos label).Sound := by
  unfold Tracker.record
  split
  · exact .inr ⟨hpos, by simp⟩
  · split
    · rename_i hadded
      exact .inr ⟨hadded.1 ▸ hpos, by simp⟩
    · exact h

end Tracker

end PegMatcher
