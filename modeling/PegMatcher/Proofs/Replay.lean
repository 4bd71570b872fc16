import PegMatcher.Proofs.Likeness
import PegMatcher.Proofs.Records

/-!
# Running again

Two runs of an expression from one place make the same records in the same order, whatever the trackers
hold. So a run that is repeated where its records are known already answers as before and leaves every
tracker as it is.
-/

namespace PegMatcher

set_option autoImplicit false

/-- Runs at one place, compared by what they have recorded on trackers that held different things before. -/
def Likeness.recording (ctx : Setting) (d : Nat) (ts us : Trackers) : Likeness where
  left := ctx
  right := ctx
  shift := 0
  place _ := True
  states s t := s.pos = t.pos ∧ s.depth = d ∧ t.depth = d ∧ ∀ name, ∃ records,
    s.trackers.get name = (ts.get name).recordAll records ∧
    t.trackers.get name = (us.get name).recordAll records
  values := Eq
  excused _ := False
  pos_eq h := by rw [h.1, Int.add_zero]
  place_pos _ := trivial
  moveTo _ h := ⟨(Int.add_zero _).symm, h.2⟩
  record {s t} tracker label h := by
    refine ⟨h.1, h.2.1, h.2.2.1, fun name => ?_⟩
    obtain ⟨records, hs, ht⟩ := h.2.2.2 name
    simp only [State.record]
    by_cases heq : name = tracker
    · subst heq
      refine ⟨records ++ [(s.pos, label)], ?_, ?_⟩
      · rw [Trackers.get_modify_self, Tracker.recordAll_append, ← hs]
        rfl
      · rw [Trackers.get_modify_self, Tracker.recordAll_append, ← ht, h.1]
        rfl
    · rw [Trackers.get_modify_of_ne _ _ heq, Trackers.get_modify_of_ne _ _ heq]
      exact ⟨records, hs, ht⟩
  observe _ _ _ _ h := h
  refl := Eq.refl
  truthy_eq := @Value.truthy_congr

namespace Likeness

variable {ctx : Setting} {d : Nat} {ts us : Trackers}

theorem whole_recording : (recording ctx d ts us).Whole := ⟨rfl, rfl, fun _ => trivial⟩

theorem inside_recording : (recording ctx d ts us).Inside (recording ctx (d + 1) ts us) := by
  refine .of_depth_eq rfl rfl id id rfl (fun h => h.2.2.1.trans h.2.1.symm) ?_ ?_
  · rintro s t ⟨hp, hs, ht, hrecords⟩
    exact ⟨hp, by rw [← hs], by rw [← ht], hrecords⟩
  · rintro s t ⟨hp, hs, ht, hrecords⟩
    exact ⟨hp, by simp only [hs]; omega, by simp only [ht]; omega, hrecords⟩

end Likeness

theorem Expr.recording (env : Environment) (e : Expr) (ctx : Setting) {s t : State}
    (hpos : s.pos = t.pos) (hdepth : s.depth = t.depth) :
    (Likeness.recording ctx s.depth s.trackers t.trackers).Replies (e.parser env ctx s)
      (e.parser env ctx t) := by
  have hrules := Likeness.alike_invoke
    (L := fun d => Likeness.recording ctx d s.trackers t.trackers)
    (fun _ => Likeness.whole_recording) (fun _ => Likeness.inside_recording) env
    (ctx.maxDepth - s.depth) s.depth
  have hrun := Likeness.alike_expr Likeness.whole_recording hrules e s t
    ⟨hpos, rfl, hdepth.symm, fun _ => ⟨[], rfl, rfl⟩⟩
  rw [Expr.parser, Expr.parser, ← hdepth]
  exact hrun

/-- The states are the same to every parser: one place, and the same on each tracker. -/
structure State.Same (s t : State) : Prop where
  pos_eq : s.pos = t.pos
  depth_eq : s.depth = t.depth
  trackers_eq : ∀ name, s.trackers.get name = t.trackers.get name

theorem State.Same.refl (s : State) : s.Same s := ⟨rfl, rfl, fun _ => rfl⟩

theorem State.Same.symm {s t : State} (h : s.Same t) : t.Same s :=
  ⟨h.pos_eq.symm, h.depth_eq.symm, fun name => (h.trackers_eq name).symm⟩

theorem State.Same.moveTo {s t : State} (h : s.Same t) (pos : Int) : (s.moveTo pos).Same (t.moveTo pos) :=
  ⟨rfl, h.depth_eq, h.trackers_eq⟩

inductive Reply.Same : Reply → Reply → Prop where
  | returned {v : Value} {s t : State} : s.Same t → Same (.returned v s) (.returned v t)
  | raised {f : Fault} {s t : State} : s.Same t → Same (.raised f s) (.raised f t)

theorem Reply.Same.refl (r : Reply) : r.Same r := by
  cases r with
  | returned v s => exact .returned (.refl s)
  | raised f s => exact .raised (.refl s)

theorem Expr.same (env : Environment) (e : Expr) (ctx : Setting) {s t : State} (h : s.Same t) :
    (e.parser env ctx s).Same (e.parser env ctx t) := by
  have hstates : ∀ {s' t'}, (Likeness.recording ctx s.depth s.trackers t.trackers).states s' t' →
      s'.Same t' := fun {s' t'} hs => by
    refine ⟨hs.1, hs.2.1.trans hs.2.2.1.symm, fun name => ?_⟩
    obtain ⟨records, hleft, hright⟩ := hs.2.2.2 name
    rw [hleft, hright, h.trackers_eq name]
  have hrecorded := e.recording env ctx h.pos_eq h.depth_eq
  generalize e.parser env ctx s = r at hrecorded ⊢
  generalize e.parser env ctx t = r' at hrecorded ⊢
  cases hrecorded with
  | returned hv hs =>
    cases hv
    exact .returned (hstates hs)
  | raised hs => exact .raised (hstates hs)
  | excused hf => exact hf.elim

/-- The trackers of the first state know of all that those of the second know of. -/
def State.Knows (t s : State) : Prop :=
  ∀ name label pos, (s.trackers.get name).Covers label pos → (t.trackers.get name).Covers label pos

namespace Expr

variable {env : Environment} {e : Expr} {ctx : Setting} {s s' t : State} {v : Value}

theorem knows (env : Environment) (e : Expr) (ctx : Setting) (s : State) :
    (e.parser env ctx s).state.Knows s := by
  intro name label pos hcovers
  have hstates := (e.recording env ctx (s := s) (t := s) rfl rfl).states fun _ => id
  obtain ⟨records, hrecords, _⟩ := hstates.2.2.2 name
  rw [hrecords]
  exact hcovers.recordAll records

/-- A run that is repeated where its records are known answers as before and records nothing. -/
theorem replay (hr : e.parser env ctx s = .returned v s') (hpos : t.pos = s.pos)
    (hdepth : t.depth = s.depth) (hknows : t.Knows s') :
    ∃ t', e.parser env ctx t = .returned v t' ∧ t'.Same (t.moveTo s'.pos) := by
  have hrecorded := e.recording env ctx hpos.symm hdepth.symm
  rw [hr] at hrecorded
  obtain ⟨w, t', hrun, rfl, hs⟩ := hrecorded.of_returned
  refine ⟨t', hrun, hs.1.symm, hs.2.2.1.trans hdepth.symm, fun name => ?_⟩
  obtain ⟨records, hfirst, hagain⟩ := hs.2.2.2 name
  refine hagain.trans (Tracker.recordAll_of_covers fun r hr => hknows name r.2 r.1 ?_)
  rw [hfirst]
  exact Tracker.covers_recordAll hr _

end Expr

end PegMatcher
