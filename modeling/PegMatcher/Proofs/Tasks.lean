import PegMatcher.Matching

/-!
# Runs of tasks

What a task answers is apart from the journal that it leaves. Tasks are taken apart at their binds: where
the first part answers, the rest goes on with the journal that it left, and where it fails, the whole does.
-/

namespace PegMatcher

set_option autoImplicit false

/-- What a task answers, apart from the journal it leaves. -/
def Task.answer {α : Type} (task : Task α) (j : Journal) : Except Failure α :=
  match task.run j with
  | .ok a _ => .ok a
  | .error failure _ => .error failure

/-- The end of a match, if the reply is one. -/
def Reply.stop? : Reply → Except Failure (Option Int)
  | .returned v s => .ok (if v.truthy then some s.pos else none)
  | .raised f _ => .error (.fault f)

namespace Task

variable {α β : Type} {task : Task α} {next : α → Task β} {j j' : Journal}

theorem answer_bind_ok {a : α} (h : task.run j = .ok a j') :
    (task >>= next).answer j = (next a).answer j' := by
  simp only [EStateM.run] at h
  simp only [answer, bind, EStateM.bind, EStateM.run, h]

theorem answer_bind_error {failure : Failure} (h : task.run j = .error failure j') :
    (task >>= next).answer j = .error failure := by
  simp only [EStateM.run] at h
  simp only [answer, bind, EStateM.bind, EStateM.run, h]

theorem answer_bind_return (task : Task α) (f : α → β) (j : Journal) :
    (do return f (← task)).answer j = (task.answer j).map f := by
  simp only [answer, bind, EStateM.bind, EStateM.run, pure, EStateM.pure]
  cases task j <;> rfl

theorem run_ofExcept_ok (a : α) : (ofExcept (.ok a)).run j = .ok a j := rfl

theorem run_ofExcept_error (f : Fault) :
    (ofExcept (.error f) : Task α).run j = .error (.fault f) j := rfl

end Task

namespace Cursor

variable {limit pos maxDepth : Int} {input : Input} {c : Cursor} {notice? : Option Notice} {f : Fault}

theorem run_place (h : start limit input pos maxDepth = .ok (c, notice?)) (j : Journal) :
    ∃ notices, (place limit input pos maxDepth).run j = .ok c { j with notices } := by
  simp only [place, h, Task.ofExcept]
  cases notice? with
  | none => exact ⟨j.notices, rfl⟩
  | some notice => exact ⟨j.notices.push notice, rfl⟩

theorem run_place_fault (h : start limit input pos maxDepth = .error f) (j : Journal) :
    (place limit input pos maxDepth).run j = .error (.fault f) j := by
  simp only [place, h, Task.ofExcept]
  rfl

theorem exists_start_of_place {j j' : Journal}
    (h : (place limit input pos maxDepth).run j = .ok c j') :
    ∃ notice?, start limit input pos maxDepth = .ok (c, notice?) := by
  cases hstart : start limit input pos maxDepth with
  | error f =>
    rw [run_place_fault hstart] at h
    cases h
  | ok made =>
    obtain ⟨notices, hrun⟩ := run_place hstart j
    rw [hrun] at h
    cases h
    exact ⟨made.2, rfl⟩

/-- A new cursor is at the position asked for, in the source, and outside of all rules. -/
theorem start_inv (h : start limit input pos maxDepth = .ok (c, notice?)) :
    input.source = .ok c.source ∧ c.pos = pos ∧ 0 ≤ c.pos ∧ c.pos ≤ c.source.size ∧ c.depth = 0 := by
  unfold start at h
  cases hsrc : input.source with
  | error f =>
    simp only [hsrc, bind, Except.bind] at h
    cases h
  | ok src =>
    simp only [hsrc, bind, Except.bind] at h
    split at h
    · cases h
    · rename_i hpos
      split at h
      · cases h
      · cases h
        obtain ⟨h0, h1⟩ := Decidable.not_not.mp hpos
        exact ⟨rfl, rfl, h0, h1, rfl⟩

theorem start_bounds (h : start limit input pos maxDepth = .ok (c, notice?)) :
    c.pos = pos ∧ 0 ≤ c.pos ∧ c.pos ≤ c.source.size ∧ c.depth = 0 := (start_inv h).2

/-- A new cursor on a text, with whatever bound on its depth is left of the one asked for. -/
theorem eq_of_start_text {chars : List Char} {p : Nat}
    (h : start limit (.value (.text chars)) p maxDepth = .ok (c, notice?)) :
    p ≤ chars.length ∧ c = ⟨.text chars.toArray, p, c.maxDepth, 0⟩ := by
  obtain ⟨hsource, hpos, -, hle, hdepth⟩ := start_inv h
  obtain ⟨source, pos, depthBound, depth⟩ := c
  simp only at hpos hle hdepth
  obtain rfl : source = .text chars.toArray := (Except.ok.inj hsource).symm
  subst hpos hdepth
  exact ⟨Int.ofNat_le.mp hle, rfl⟩

section Run

variable {env : Environment} {e : Expr} {j : Journal} {s : State}

theorem run_of_returned {v : Value}
    (h : e.parser env c.setting ⟨c.pos, c.depth, j.trackers, j.trace⟩ = .returned v s) :
    c.run env e j = (.ok v, { c with pos := s.pos, depth := s.depth },
      { j with trackers := s.trackers, trace := s.trace }) := by
  rw [run, h, Reply.state]

theorem run_of_raised
    (h : e.parser env c.setting ⟨c.pos, c.depth, j.trackers, j.trace⟩ = .raised f s) :
    c.run env e j = (.error f, { c with pos := s.pos, depth := s.depth },
      { j with trackers := s.trackers, trace := s.trace }) := by
  rw [run, h, Reply.state]

end Run

theorem run_match? (env : Environment) (c : Cursor) (e : Expr) (j : Journal) :
    (c.match? env e).run j =
      match e.parser env c.setting ⟨c.pos, c.depth, j.trackers, j.trace⟩ with
      | .returned v s =>
        .ok (if v.truthy then some s.pos else none) { j with trackers := s.trackers, trace := s.trace }
      | .raised f s => .error (.fault f) { j with trackers := s.trackers, trace := s.trace } := by
  have hrun : (c.match? env e).run j = (do
      let v ← Task.ofExcept (c.run env e j).1
      return if v.truthy then some (c.run env e j).2.1.pos else none : Task (Option Int)).run
        (c.run env e j).2.2 := rfl
  simp only [hrun, run]
  cases e.parser env c.setting ⟨c.pos, c.depth, j.trackers, j.trace⟩ <;> rfl

theorem answer_match? (env : Environment) (c : Cursor) (e : Expr) (j : Journal) :
    (c.match? env e).answer j =
      (e.parser env c.setting ⟨c.pos, c.depth, j.trackers, j.trace⟩).stop? := by
  rw [Task.answer, run_match?]
  cases e.parser env c.setting ⟨c.pos, c.depth, j.trackers, j.trace⟩ <;> rfl

end Cursor

end PegMatcher
