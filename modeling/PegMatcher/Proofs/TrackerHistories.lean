import Mathlib.Data.List.DropRight
import Mathlib.Order.Bounds.Basic
import PegMatcher.Proofs.Definitions
import PegMatcher.Proofs.Records

/-!
# Histories of a tracker

What a tracker holds after any commands: the furthest position recorded since it was last reset, and the
labels recorded there in the order of their first recording. Which labels were recorded elsewhere, and in
which order, does not matter.
-/

namespace PegMatcher

set_option autoImplicit false

namespace Tracker

variable {pos : Int} {label : String}

theorem pos_recordAll (t : Tracker) (records : List (Int × String)) :
    (t.recordAll records).pos = t.pos ∨ ∃ label, ((t.recordAll records).pos, label) ∈ records := by
  induction records generalizing t with
  | nil => exact .inl rfl
  | cons r records ih =>
    rw [recordAll_cons]
    rcases ih (t.record r.1 r.2) with hsame | ⟨label, hmem⟩
    · rw [hsame, pos_record]
      rcases Int.le_total t.pos r.1 with hle | hle
      · rw [max_eq_right hle]
        exact .inr ⟨r.2, List.mem_cons_self⟩
      · exact .inl (max_eq_left hle)
    · exact .inr ⟨label, List.mem_cons_of_mem _ hmem⟩

theorem le_pos_recordAll (t : Tracker) (records : List (Int × String)) :
    t.pos ≤ (t.recordAll records).pos := by
  induction records generalizing t with
  | nil => exact Int.le_refl _
  | cons r records ih => exact Int.le_trans (le_record t r.1 r.2).1 (ih _)

theorem le_recordAll {records : List (Int × String)} {r : Int × String} (h : r ∈ records) (t : Tracker) :
    r.1 ≤ (t.recordAll records).pos :=
  (covers_recordAll h t).le_pos

theorem pos_recordAll_mono {records others : List (Int × String)} (h : records ⊆ others) (t : Tracker) :
    (t.recordAll records).pos ≤ (t.recordAll others).pos := by
  rcases pos_recordAll t records with hsame | ⟨label, hmem⟩
  · rw [hsame]
    exact le_pos_recordAll t others
  · exact le_recordAll (h hmem) t

def labelsAt (records : List (Int × String)) (pos : Int) : List String :=
  (records.filter fun r => r.1 = pos).map Prod.snd

theorem mem_labelsAt {records : List (Int × String)} :
    label ∈ labelsAt records pos ↔ (pos, label) ∈ records := by
  simp [labelsAt]

theorem labelsAt_concat_self (records : List (Int × String)) (pos : Int) (label : String) :
    labelsAt (records ++ [(pos, label)]) pos = labelsAt records pos ++ [label] := by
  simp [labelsAt]

theorem labelsAt_concat_of_ne (records : List (Int × String)) {pos pos' : Int} (h : pos ≠ pos')
    (label : String) : labelsAt (records ++ [(pos, label)]) pos' = labelsAt records pos' := by
  simp [labelsAt, h]

theorem labelsAt_of_beyond {records : List (Int × String)} (h : ∀ r ∈ records, r.1 < pos) :
    labelsAt records pos = [] := by
  rw [labelsAt, List.map_eq_nil_iff, List.filter_eq_nil_iff]
  intro r hr
  have hlt := h r hr
  simp only [decide_eq_true_eq]
  omega

theorem expected_record {t : Tracker} {records : List (Int × String)} (hreach : ∀ r ∈ records, r.1 ≤ t.pos)
    (h : t.expected = (labelsAt records t.pos).eraseDups) (pos : Int) (label : String) :
    (t.record pos label).expected =
      (labelsAt (records ++ [(pos, label)]) (t.record pos label).pos).eraseDups := by
  unfold record
  by_cases hfurther : t.pos < pos
  · have hnone : labelsAt records pos = [] :=
      labelsAt_of_beyond fun r hr => Int.lt_of_le_of_lt (hreach r hr) hfurther
    rw [if_pos hfurther, labelsAt_concat_self, hnone]
    rfl
  · rw [if_neg hfurther]
    by_cases hsame : pos = t.pos
    · subst hsame
      by_cases hmem : label ∈ t.expected
      · have hold : label ∈ labelsAt records t.pos := by rwa [h, List.mem_eraseDups] at hmem
        rw [if_neg (fun h => h.2 hmem), labelsAt_concat_self, eraseDups_concat, if_pos hold, h]
      · have hnew : label ∉ labelsAt records t.pos := by rwa [h, List.mem_eraseDups] at hmem
        rw [if_pos ⟨rfl, hmem⟩, labelsAt_concat_self, eraseDups_concat, if_neg hnew, h]
    · rw [if_neg (fun h => hsame h.1), labelsAt_concat_of_ne records hsame, h]

theorem expected_recordAll (records : List (Int × String)) :
    (fresh.recordAll records).expected =
      (labelsAt records (fresh.recordAll records).pos).eraseDups := by
  induction records using List.reverseRecOn with
  | nil => rfl
  | append_singleton records r ih =>
    rw [recordAll_append, recordAll_cons, recordAll_nil]
    exact expected_record (fun r hr => le_recordAll hr fresh) ih r.1 r.2

theorem isGreatest_recordAll {records : List (Int × String)} (hne : records ≠ [])
    (hpos : ∀ r ∈ records, 0 ≤ r.1) :
    IsGreatest {pos | ∃ label, (pos, label) ∈ records} (fresh.recordAll records).pos := by
  refine ⟨?_, fun pos ⟨label, hmem⟩ => le_recordAll hmem fresh⟩
  rcases pos_recordAll fresh records with hfresh | hrecorded
  · obtain ⟨r, hr⟩ := List.exists_mem_of_ne_nil records hne
    have hle := le_recordAll hr fresh
    have hnonneg := hpos r hr
    have hminus : (fresh.recordAll records).pos = -1 := hfresh
    omega
  · exact hrecorded

/-- The order of records has no part in the furthest position, nor in which labels are listed. -/
theorem recordAll_of_same {records others : List (Int × String)} (h : ∀ r, r ∈ others ↔ r ∈ records) :
    (fresh.recordAll others).pos = (fresh.recordAll records).pos ∧
      ∀ label, label ∈ (fresh.recordAll others).expected ↔ label ∈ (fresh.recordAll records).expected := by
  have hplace : (fresh.recordAll others).pos = (fresh.recordAll records).pos :=
    Int.le_antisymm (pos_recordAll_mono (fun r => (h r).mp) fresh)
      (pos_recordAll_mono (fun r => (h r).mpr) fresh)
  refine ⟨hplace, fun label => ?_⟩
  rw [expected_recordAll, expected_recordAll, hplace, List.mem_eraseDups, List.mem_eraseDups,
    mem_labelsAt, mem_labelsAt, h]

end Tracker

namespace TrackerCommand

def onTracker : TrackerCommand → Tracker → Tracker
  | .record pos label, t => t.record pos label
  | .reset, _ => .fresh
  | .show, t | .report _ _, t => t

def isReset : TrackerCommand → Bool
  | .reset => true
  | _ => false

def recorded? : TrackerCommand → Option (Int × String)
  | .record pos label => some (pos, label)
  | _ => none

/-- The records behind the last reset, in their order. -/
def sinceReset (history : List TrackerCommand) : List (Int × String) :=
  (history.rtakeWhile fun c => !c.isReset).filterMap recorded?

theorem sinceReset_concat_reset (history : List TrackerCommand) : sinceReset (history ++ [.reset]) = [] := by
  rw [sinceReset, List.rtakeWhile_concat_neg]
  · rfl
  · exact Bool.false_ne_true

theorem sinceReset_concat {c : TrackerCommand} (h : c.isReset = false) (history : List TrackerCommand) :
    sinceReset (history ++ [c]) = sinceReset history ++ c.recorded?.toList := by
  rw [sinceReset, List.rtakeWhile_concat_pos, List.filterMap_append]
  · cases hc : c.recorded? with
    | none => simp [hc, sinceReset]
    | some r => simp [hc, sinceReset]
  · rw [h]
    rfl

/-- A new tracker holds after any commands what the records behind the last reset make of one. -/
theorem onTracker_fresh (history : List TrackerCommand) :
    history.foldl (fun t c => c.onTracker t) .fresh = Tracker.recordAll .fresh (sinceReset history) := by
  induction history using List.reverseRecOn with
  | nil => rfl
  | append_singleton history c ih =>
    rw [List.foldl_append, List.foldl_cons, List.foldl_nil, ih]
    cases c with
    | record pos label =>
      rw [sinceReset_concat rfl, Tracker.recordAll_append]
      rfl
    | reset =>
      rw [sinceReset_concat_reset]
      rfl
    | «show» | report =>
      rw [sinceReset_concat rfl, Tracker.recordAll_append]
      rfl

end TrackerCommand

namespace Session

open Tracker TrackerCommand

/-- The session after commands to one of its trackers, each of which is answered or refused. -/
def commanded (s : Session) (name : String) (history : List TrackerCommand) : Session :=
  history.foldl (fun s c => s.behind (performOnTracker name c)) s

theorem tracker_behind_command (s : Session) (name : String) (c : TrackerCommand) :
    (s.behind (performOnTracker name c)).journal.trackers.get name =
      c.onTracker (s.journal.trackers.get name) := by
  cases c with
  | record pos label => exact Trackers.get_modify_self _ _ _
  | reset => exact Trackers.get_modify_self _ _ _
  | «show» => rfl
  | report subject key =>
    rw [performOnTracker, behind_bind_ok (run_get s)]
    cases Subject.ofValue subject with
    | error f => rfl
    | ok subject => cases key <;> rfl

theorem tracker_commanded (s : Session) (name : String) (history : List TrackerCommand) :
    (s.commanded name history).journal.trackers.get name =
      history.foldl (fun t c => c.onTracker t) (s.journal.trackers.get name) := by
  induction history generalizing s with
  | nil => rfl
  | cons c history ih =>
    rw [List.foldl_cons, ← tracker_behind_command]
    exact ih (s.behind (performOnTracker name c))

/-- After any commands a new tracker stands at the greatest position recorded since its last reset and lists the
labels recorded there in the order of their first recording. -/
theorem tracker_tells_records {s : Session} {name : String} (hnew : s.journal.trackers.get name = .fresh)
    (history : List TrackerCommand) (hpos : ∀ r ∈ sinceReset history, 0 ≤ r.1) :
    let tracker (history : List TrackerCommand) := (s.commanded name history).journal.trackers.get name
    let records := sinceReset history
    let t := tracker history
    (records = [] → t.pos = -1 ∧ t.expected = []) ∧
      (records ≠ [] → IsGreatest {pos | ∃ label, (pos, label) ∈ records} t.pos ∧
        t.expected = (labelsAt records t.pos).eraseDups) ∧
      (∀ other, (∀ r, r ∈ sinceReset other ↔ r ∈ records) →
        (tracker other).pos = t.pos ∧ ∀ label, label ∈ (tracker other).expected ↔ label ∈ t.expected) ∧
      ∀ pos label, (pos, label) ∈ records → tracker (history ++ [.record pos label]) = t := by
  have htracker : ∀ history, (s.commanded name history).journal.trackers.get name =
      Tracker.recordAll .fresh (sinceReset history) := fun history => by
    rw [tracker_commanded, hnew, onTracker_fresh]
  simp only [htracker]
  refine ⟨fun hnone => ?_, fun hsome => ?_, fun other hsame => ?_, fun pos label hmem => ?_⟩
  · rw [hnone]
    exact ⟨rfl, rfl⟩
  · exact ⟨isGreatest_recordAll hsome hpos, expected_recordAll _⟩
  · exact recordAll_of_same hsame
  · rw [sinceReset_concat rfl, Tracker.recordAll_append]
    exact record_of_covers (covers_recordAll hmem .fresh)

/-- Labels recorded before the reset, or behind the furthest position, are not listed. -/
theorem tracker_tells_records_reset :
    let s : Session := {}
    let history : List TrackerCommand := [.record 7 "digit", .reset, .record 2 "sign", .record 3 "letter",
      .show, .record 3 "digit", .record 2 "space", .record 3 "letter"]
    let t := (s.commanded "t" history).journal.trackers.get "t"
    s.journal.trackers.get "t" = .fresh ∧ (∀ r ∈ sinceReset history, 0 ≤ r.1) ∧
      IsGreatest {pos | ∃ label, (pos, label) ∈ sinceReset history} t.pos ∧ t.pos = 3 ∧
      t.expected = ["letter", "digit"] ∧
      (s.commanded "t" (history ++ [.record 2 "sign"])).journal.trackers.get "t" = t := by
  intro s history t
  have hnew : s.journal.trackers.get "t" = .fresh := rfl
  have hpos : ∀ r ∈ sinceReset history, 0 ≤ r.1 := by decide
  obtain ⟨_, hlast, _, hagain⟩ := tracker_tells_records hnew history hpos
  obtain ⟨hgreatest, hexpected⟩ := hlast (by decide)
  have hthree : t.pos = 3 := rfl
  refine ⟨hnew, hpos, hgreatest, hthree, ?_, hagain 2 "sign" (by decide)⟩
  exact hexpected.trans (by decide)

end Session

end PegMatcher
