import PegMatcher.Proofs.Answers
import PegMatcher.Proofs.Furthest
import PegMatcher.Proofs.Preservation

/-!
# What a parse reports

A parse that refuses its input reports the furthest misses of its own run, whatever its tracker held
before. Where the parser matched, but not up to the end, the missing end is one more of them.
-/

namespace PegMatcher

set_option autoImplicit false

namespace ParseOptions

variable {o : ParseOptions} {env : Environment} {e : Expr} {c : Cursor} {v : Value} {s : State}

/-- A parser that is watched on the tracker of the parse does not match in its run. -/
def Misses (o : ParseOptions) (env : Environment) (e : Expr) (c : Cursor) (label : String)
    (pos : Int) : Prop :=
  ∃ name, o.tracker = some name ∧ e.Misses env c.setting c.blank name label pos

theorem recorded_held (o : ParseOptions) (hr : e.parser env c.setting c.blank = .returned v s) :
    Tracker.Recorded (o.Misses env e c) .fresh (o.held .fresh s.trackers) := by
  unfold held
  cases ho : o.tracker with
  | none => exact .refl
  | some name =>
    have haccount := e.accounts env c.setting name c.blank
    rw [Expr.Accounts, hr] at haccount
    exact haccount.mono fun label pos hmiss => ⟨name, ho, hmiss⟩

theorem furthest_held (o : ParseOptions) (hr : e.parser env c.setting c.blank = .returned v s) :
    let held := o.held .fresh s.trackers
    (∀ label, label ∈ held.expected ↔ o.Misses env e c label held.pos) ∧
      ∀ label pos, o.Misses env e c label pos → pos ≤ held.pos := by
  unfold held
  cases ho : o.tracker with
  | none => simp [Misses, ho, Tracker.fresh]
  | some name =>
    have hfresh : c.blank.trackers.get name = .fresh := rfl
    have hfurthest := Expr.furthest_misses hfresh hr
    simp only [Misses, ho, Option.some.injEq, exists_eq_left']
    exact hfurthest

theorem exists_run_of_mismatch {src : Source} {r : Reply} {m : Mismatch}
    (h : o.verdict src r = .error (.mismatch m)) :
    ∃ v s, r = .returned v s ∧
      m = (if v.truthy then (o.held .fresh s.trackers).record s.pos endLabel
        else o.held .fresh s.trackers).mismatch (.ofSource src) ∧
      (v.truthy = true → o.full = true ∧ s.pos < src.size) := by
  cases r with
  | raised f s => cases h
  | returned v s =>
    refine ⟨v, s, rfl, ?_⟩
    unfold verdict at h
    by_cases hv : v.truthy = true
    · simp only [hv, if_true] at h
      split at h
      · cases h
      · rename_i hshort
        cases h
        rw [not_or, not_not] at hshort
        exact ⟨by rw [if_pos hv], fun _ => ⟨hshort.1, Int.not_le.mp hshort.2⟩⟩
    · simp only [hv, Bool.false_eq_true, if_false] at h
      cases h
      exact ⟨by rw [if_neg hv], fun htrue => absurd htrue hv⟩

end ParseOptions

theorem exists_verdict_of_mismatch {env : Environment} {limit : Int} {p : Operand} {input : Input}
    {o : ParseOptions} {j : Journal} {m : Mismatch}
    (h : (parse env limit p input o).answer j = .error (.mismatch m)) :
    ∃ c notice? e, Cursor.start limit input o.pos o.maxDepth = .ok (c, notice?) ∧ p.convert = .ok e ∧
      o.verdict c.source (e.parser env c.setting c.blank) = .error (.mismatch m) := by
  rw [answer_parse] at h
  cases hc : Cursor.start limit input o.pos o.maxDepth with
  | error f =>
    rw [hc] at h
    cases h
  | ok placed =>
    cases hp : p.convert with
    | error f =>
      rw [hc, hp] at h
      cases h
    | ok e =>
      rw [hc, hp] at h
      exact ⟨placed.1, placed.2, e, rfl, rfl, h⟩

def Invariant.soundTrackers (src : Source) : Invariant (.inside src) where
  holds s := (0 ≤ s.pos ∧ s.pos ≤ src.size) ∧ ∀ name, (s.trackers.get name).Sound
  place_pos h := h.1
  moveTo hpos h := ⟨hpos, h.2⟩
  record {s tracker} label _ h := by
    refine ⟨h.1, fun name => ?_⟩
    by_cases hname : name = tracker
    · subst hname
      simp only [State.record, Trackers.get_modify_self]
      exact (h.2 name).record h.1.1 label
    · simp only [State.record, Trackers.get_modify_of_ne _ _ hname]
      exact h.2 name
  observe _ h := h
  count _ h := h

theorem ParseOptions.sound_held {o : ParseOptions} {env : Environment} {e : Expr} {c : Cursor} {v : Value}
    {s : State} (he : e.StaysIn c.source) (henv : env.StaysIn c.source)
    (hpos : 0 ≤ c.pos ∧ c.pos ≤ c.source.size)
    (hr : e.parser env c.setting c.blank = .returned v s) :
    0 ≤ s.pos ∧ (o.held .fresh s.trackers).Sound := by
  have hkept := (Invariant.soundTrackers c.source).kept_run henv he c.maxDepth c.blank
    ⟨hpos, fun _ => .inl rfl⟩
  have hrun : e.parser env ⟨c.source, c.maxDepth⟩ c.blank = .returned v s := hr
  rw [hrun] at hkept
  refine ⟨hkept.1.1, ?_⟩
  unfold held
  cases o.tracker with
  | none => exact .inl rfl
  | some name => exact hkept.2 name

/-- A parse answers the same whatever the journal holds. What it reports is the furthest of what its own run
missed, with the missing end where the parser matched. -/
theorem parse_reports_furthest (env : Environment) (limit : Int) (p : Operand) (input : Input)
    (o : ParseOptions) :
    (∀ j k, (parse env limit p input o).answer j = (parse env limit p input o).answer k) ∧
    ∀ j m, (parse env limit p input o).answer j = .error (.mismatch m) →
      ∃ c notice? e v s, Cursor.start limit input o.pos o.maxDepth = .ok (c, notice?) ∧
        p.convert = .ok e ∧ e.parser env c.setting c.blank = .returned v s ∧
        let held := o.held .fresh s.trackers
        let t := if v.truthy then held.record s.pos endLabel else held
        (m.expected = t.expected ∧ m.pos = if t.pos = -1 then 0 else t.pos) ∧
        ((∀ label, label ∈ held.expected ↔ o.Misses env e c label held.pos) ∧
          ∀ label pos, o.Misses env e c label pos → pos ≤ held.pos) ∧
        (v.truthy = true → o.full = true ∧ s.pos < c.source.size ∧ s.pos ≤ m.pos ∧
          (held.pos ≤ s.pos → endLabel ∈ m.expected) ∧
          (0 ≤ s.pos → (∀ label pos, o.Misses env e c label pos → pos ≤ s.pos) →
            endLabel ∈ m.expected)) ∧
        (e.StaysIn c.source → env.StaysIn c.source → 0 ≤ s.pos ∧ t.Sound) := by
  constructor
  · intro j k
    rw [answer_parse, answer_parse]
  · intro j m hm
    obtain ⟨c, notice?, e, hc, hp, hverdict⟩ := exists_verdict_of_mismatch hm
    obtain ⟨v, s, hr, rfl, hfull⟩ := ParseOptions.exists_run_of_mismatch hverdict
    refine ⟨c, notice?, e, v, s, hc, hp, hr, ?_⟩
    intro held t
    have hrecorded := o.recorded_held hr
    have hlow : -1 ≤ t.pos := by
      have hheld : -1 ≤ held.pos := hrecorded.pos_le
      simp only [t]
      split
      · exact Int.le_trans hheld (held.le_record _ _).1
      · exact hheld
    have hmax : max t.pos 0 = if t.pos = -1 then 0 else t.pos := by
      split <;> omega
    refine ⟨⟨rfl, hmax⟩, o.furthest_held hr, ?_, ?_⟩
    · intro hv
      obtain ⟨ho, hshort⟩ := hfull hv
      have hreached : t = held.record s.pos endLabel := if_pos hv
      have hend : s.pos ≤ t.pos := by
        rw [hreached]
        exact (held.le_record _ _).2
      have hlabel : held.pos ≤ s.pos → endLabel ∈ t.expected := by
        intro hle
        rw [hreached]
        exact Tracker.mem_record_of_le hle _
      refine ⟨ho, hshort, Int.le_trans hend (Int.le_max_left _ _), hlabel, fun h0 hnone => hlabel ?_⟩
      have hfresh : Tracker.fresh.pos ≤ s.pos := Int.le_trans (by decide) h0
      exact hrecorded.pos_le_of_misses hfresh hnone
    · intro he henv
      obtain ⟨_, h0, h1, _⟩ := Cursor.start_bounds hc
      obtain ⟨hs, hsound⟩ := o.sound_held he henv ⟨h0, h1⟩ hr
      refine ⟨hs, ?_⟩
      simp only [t]
      split
      · exact hsound.record hs _
      · exact hsound

/-- An `a` matches where a `b` and the end are missed; what the tracker held further on is forgotten. -/
theorem parse_reports_furthest_stale :
    let e : Expr := .seq [.primitive (.element (.char 'a')),
      .opt (.expect "t" "b" (.primitive (.element (.char 'b'))))]
    let input : Input := .value (.text ['a', 'c'])
    let o : ParseOptions := { tracker := some "t" }
    let stale : Journal := { trackers := [("t", ⟨9, ["old"]⟩)] }
    let answer := (parse (fun _ => {}) 1000 (.parser e) input o).answer
    answer stale = answer {} ∧
      ∃ m, answer stale = .error (.mismatch m) ∧ m.pos = 1 ∧ m.expected = ["b", endLabel] := by
  intro e input o stale answer
  have h := parse_reports_furthest (fun _ => {}) 1000 (.parser e) input o
  let m := (⟨1, ["b", endLabel]⟩ : Tracker).mismatch (.ofSource (.text #['a', 'c']))
  have hm : answer stale = .error (.mismatch m) := rfl
  obtain ⟨c, notice?, e', v, s, hc, hp, hr, ⟨hexpected, hpos⟩, _⟩ := h.2 stale m hm
  cases hc
  cases hp
  have hrun : e.parser (fun _ => {}) ⟨.text #['a', 'c'], 100⟩ ⟨0, 0, [], #[]⟩ =
      .returned (.bool true) ⟨1, 0, [("t", ⟨1, ["b"]⟩)], #[]⟩ := rfl
  cases hr.symm.trans hrun
  exact ⟨h.1 stale {}, m, hm, hpos, hexpected⟩

end PegMatcher
