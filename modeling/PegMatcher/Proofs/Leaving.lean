import Mathlib.Logic.ExistsUnique
import PegMatcher.Block

/-!
# Leaving checkpoint blocks

A block is left at its end, by an answer from whatever depth of nested blocks, or by a fault. `LeftAt` says
at which moment: how far the cursor is then, and which checkpoints are open, with their marks. From there
on all open blocks are closed, the inner ones first, and each may move the cursor back to its own start.
What comes of that is decided by the outermost checkpoint alone.
-/

namespace PegMatcher

set_option autoImplicit false

inductive Exit where
  | offEnd
  | answered (value : Value)
  | faulted (fault : Fault)

namespace Exit

def isFault : Exit → Bool
  | .faulted _ => true
  | _ => false

def reply : Exit → State → Reply
  | .offEnd, s => .returned (.bool true) s
  | .answered v, s => .returned v s
  | .faulted f, s => .raised f s

def flow : Exit → Frame → State → Flow
  | .offEnd, frame, s => .done frame s
  | .answered v, frame, s => .left v frame s
  | .faulted f, _, s => .raised f s

end Exit

@[simp] theorem State.moveTo_moveTo (s : State) (p q : Int) : (s.moveTo p).moveTo q = s.moveTo q := rfl

@[simp] theorem State.moveTo_pos (s : State) : s.moveTo s.pos = s := rfl

/-- The checkpoint of the flow, if it still has one, is at the position. -/
def Flow.Stays (pos : Int) : Flow → Prop
  | .done frame _ => frame.pos = pos
  | .left _ frame _ => frame.pos = pos
  | .raised _ _ => True

theorem Frame.isCommitted_eq (frame : Frame) (outer : List Frame) :
    frame.isCommitted outer = (frame :: outer).any Frame.committed := rfl

namespace Block

variable {ctx : Setting} {outer opened : List Frame} {frame : Frame} {a : Action Parser}
  {as body : List (Action Parser)} {s t : State} {exit : Exit}

/-- Performed from `s`, the actions are left when the state is `t` and the checkpoints `opened` are open, the
innermost first. -/
inductive LeftAt (ctx : Setting) :
    List Frame → Frame → List (Action Parser) → State → Exit → List Frame → State → Prop where
  | offEnd {outer : List Frame} {frame : Frame} {s : State} :
      LeftAt ctx outer frame [] s .offEnd (frame :: outer) s
  | answered {outer : List Frame} {frame frame' : Frame} {a : Action Parser}
      {as : List (Action Parser)} {s t : State} {v : Value} :
      (∀ body, a ≠ .sub body) → act outer frame a ctx s = .left v frame' t →
      LeftAt ctx outer frame (a :: as) s (.answered v) (frame' :: outer) t
  | faulted {outer : List Frame} {frame : Frame} {a : Action Parser} {as : List (Action Parser)}
      {s t : State} {f : Fault} :
      (∀ body, a ≠ .sub body) → act outer frame a ctx s = .raised f t →
      LeftAt ctx outer frame (a :: as) s (.faulted f) (frame :: outer) t
  | inside {outer opened : List Frame} {frame : Frame} {as body : List (Action Parser)} {s t : State}
      {exit : Exit} :
      LeftAt ctx (frame :: outer) (.openAt s) body s exit opened t → exit ≠ .offEnd →
      LeftAt ctx outer frame (.sub body :: as) s exit opened t
  | next {outer opened : List Frame} {frame frame' : Frame} {a : Action Parser}
      {as : List (Action Parser)} {s s' t : State} {exit : Exit} :
      act outer frame a ctx s = .done frame' s' → LeftAt ctx outer frame' as s' exit opened t →
      LeftAt ctx outer frame (a :: as) s exit opened t

theorem act_stays (outer : List Frame) (frame : Frame) (a : Action Parser) (ctx : Setting) (s : State) :
    (act outer frame a ctx s).Stays frame.pos := by
  cases a with
  | need p =>
    simp only [act]
    split
    · split <;> rfl
    · trivial
  | attempt p =>
    simp only [act]
    split
    · rfl
    · trivial
  | advance =>
    simp only [act]
    split
    · trivial
    · rfl
  | sub body =>
    simp only [act]
    split
    · rfl
    · rfl
    · trivial
  | raise text => trivial
  | commit | uncommit | rollback | rollbackUncommitted | succeed | fail | give v => rfl

/-- Inner blocks have moved the cursor at most if nothing around them is committed, or if a fault passes. -/
theorem LeftAt.perform_eq (h : LeftAt ctx outer frame as s exit opened t) :
    ∃ inner frame' pos, opened = inner ++ frame' :: outer ∧ frame'.pos = frame.pos ∧
      (exit = .offEnd → inner = [] ∧ pos = t.pos) ∧
      (exit.isFault = false → (frame' :: outer).any Frame.committed = true → pos = t.pos) ∧
      perform outer frame as ctx s = exit.flow frame' (t.moveTo pos) := by
  induction h with
  | @offEnd outer frame s =>
    refine ⟨[], frame, s.pos, rfl, rfl, fun _ => ⟨rfl, rfl⟩, fun _ _ => rfl, ?_⟩
    rw [perform, State.moveTo_pos]
    rfl
  | @answered outer frame frame' a as s t v _ hact =>
    have hpos := act_stays outer frame a ctx s
    rw [hact] at hpos
    refine ⟨[], frame', t.pos, rfl, hpos, nofun, fun _ _ => rfl, ?_⟩
    rw [perform, hact, State.moveTo_pos]
    rfl
  | @faulted outer frame a as s t f _ hact =>
    refine ⟨[], frame, t.pos, rfl, rfl, nofun, nofun, ?_⟩
    rw [perform, hact, State.moveTo_pos]
    rfl
  | @inside outer opened frame as body s t exit _ hexit ih =>
    obtain ⟨inner, frame', pos, rfl, _, _, hkept, hbody⟩ := ih
    cases exit with
    | offEnd => exact absurd rfl hexit
    | faulted f =>
      refine ⟨inner ++ [frame'], frame, s.pos, by simp, rfl, nofun, nofun, ?_⟩
      simp only [perform, act, hbody, Exit.flow, Flow.leave, State.moveTo_moveTo]
    | answered v =>
      have hact : act outer frame (.sub body) ctx s =
          .left v frame (frame'.settle (frame :: outer) (t.moveTo pos)) := by
        simp only [act, hbody, Exit.flow, Flow.leave]
      by_cases hmark : (frame' :: frame :: outer).any Frame.committed = true
      · refine ⟨inner ++ [frame'], frame, pos, by simp, rfl, nofun, fun _ _ => hkept rfl hmark, ?_⟩
        rw [perform, hact, Frame.settle, Frame.isCommitted_eq, if_pos hmark]
        rfl
      · have hmarks : (frame :: outer).any Frame.committed ≠ true := fun hany =>
          hmark (by rw [List.any_cons, hany, Bool.or_true])
        refine ⟨inner ++ [frame'], frame, frame'.pos, by simp, rfl, nofun,
          fun _ hany => absurd hany hmarks, ?_⟩
        rw [perform, hact, Frame.settle, Frame.isCommitted_eq, if_neg hmark]
        rfl
  | @next outer opened frame frame' a as s s' t exit hact _ ih =>
    obtain ⟨inner, frame'', pos, hopened, hpos, hoff, hkept, hrest⟩ := ih
    have hstays := act_stays outer frame a ctx s
    rw [hact] at hstays
    refine ⟨inner, frame'', pos, hopened, hpos.trans hstays, hoff, hkept, ?_⟩
    rw [perform, hact]
    exact hrest

theorem LeftAt.act_sub_eq (h : LeftAt ctx (frame :: outer) (.openAt s) body s .offEnd opened t) :
    act outer frame (.sub body) ctx s =
      .done frame (if opened.any Frame.committed then t else t.moveTo s.pos) := by
  obtain ⟨inner, frame', pos, rfl, hpos, hoff, _, hbody⟩ := h.perform_eq
  obtain ⟨rfl, rfl⟩ := hoff rfl
  have hstart : frame'.pos = s.pos := hpos
  simp only [act, hbody, Exit.flow, Flow.leave, State.moveTo_pos, Frame.settle, Frame.isCommitted_eq,
    hstart, List.nil_append]

theorem exists_leftAt (ctx : Setting) (outer : List Frame) (frame : Frame) (as : List (Action Parser))
    (s : State) : ∃ exit opened t, LeftAt ctx outer frame as s exit opened t := by
  match as with
  | [] => exact ⟨_, _, _, .offEnd⟩
  | a :: as =>
    by_cases hsub : ∃ body, a = .sub body
    · obtain ⟨body, hbody⟩ := hsub
      obtain ⟨exit, opened, t, hleft⟩ := exists_leftAt ctx (frame :: outer) (.openAt s) body s
      rw [hbody]
      cases exit with
      | offEnd =>
        obtain ⟨exit, opened, t, hrest⟩ := exists_leftAt ctx outer frame as _
        exact ⟨exit, opened, t, .next hleft.act_sub_eq hrest⟩
      | answered v => exact ⟨.answered v, opened, t, .inside hleft nofun⟩
      | faulted f => exact ⟨.faulted f, opened, t, .inside hleft nofun⟩
    · have hplain : ∀ body, a ≠ .sub body := fun body h => hsub ⟨body, h⟩
      cases hact : act outer frame a ctx s with
      | done frame' s' =>
        obtain ⟨exit, opened, t, hrest⟩ := exists_leftAt ctx outer frame' as s'
        exact ⟨exit, opened, t, .next hact hrest⟩
      | left v frame' t => exact ⟨.answered v, _, t, .answered hplain hact⟩
      | raised f t => exact ⟨.faulted f, _, t, .faulted hplain hact⟩
termination_by sizeOf as
decreasing_by all_goals simp_all <;> omega

theorem LeftAt.act_sub_ne_done (h : LeftAt ctx (frame :: outer) (.openAt s) body s exit opened t)
    (hexit : exit ≠ .offEnd) (frame' : Frame) (s' : State) :
    act outer frame (.sub body) ctx s ≠ .done frame' s' := by
  obtain ⟨_, _, _, _, _, _, _, hbody⟩ := h.perform_eq
  cases exit with
  | offEnd => exact absurd rfl hexit
  | answered v | faulted f => simp [act, hbody, Exit.flow, Flow.leave]

/-- Actions are left at one moment only. -/
theorem LeftAt.unique {exit' : Exit} {opened' : List Frame} {t' : State}
    (h : LeftAt ctx outer frame as s exit opened t) (h' : LeftAt ctx outer frame as s exit' opened' t') :
    exit' = exit ∧ opened' = opened ∧ t' = t := by
  induction h with
  | offEnd =>
    cases h'
    exact ⟨rfl, rfl, rfl⟩
  | answered hplain hact =>
    cases h' with
    | answered _ hact' =>
      cases hact.symm.trans hact'
      exact ⟨rfl, rfl, rfl⟩
    | faulted _ hact' | next hact' _ => cases hact.symm.trans hact'
    | inside => exact absurd rfl (hplain _)
  | faulted hplain hact =>
    cases h' with
    | faulted _ hact' =>
      cases hact.symm.trans hact'
      exact ⟨rfl, rfl, rfl⟩
    | answered _ hact' | next hact' _ => cases hact.symm.trans hact'
    | inside => exact absurd rfl (hplain _)
  | inside hbody hexit ih =>
    cases h' with
    | answered hplain | faulted hplain => exact absurd rfl (hplain _)
    | inside hbody' => exact ih hbody'
    | next hact => exact absurd hact (hbody.act_sub_ne_done hexit _ _)
  | next hact _ ih =>
    cases h' with
    | answered _ hact' | faulted _ hact' => cases hact.symm.trans hact'
    | inside hbody hexit => exact absurd hact (hbody.act_sub_ne_done hexit _ _)
    | next hact' hrest =>
      cases hact.symm.trans hact'
      exact ih hrest

end Block

/-- A fault takes the cursor back to where the parser began. Otherwise the cursor stays where it is at the moment
of leaving exactly if the outermost checkpoint is committed then. -/
theorem leaving_blocks (actions : List (Action Parser)) (ctx : Setting) (s : State) :
    (∃! moment : Exit × List Frame × State,
      Block.LeftAt ctx [] (.openAt s) actions s moment.1 moment.2.1 moment.2.2) ∧
    (∀ exit opened t, Block.LeftAt ctx [] (.openAt s) actions s exit opened t →
      ∃ outermost, opened.getLast? = some outermost ∧ outermost.pos = s.pos ∧
        Parser.block actions ctx s =
          exit.reply (if exit.isFault = false ∧ outermost.committed then t else t.moveTo s.pos)) ∧
    ∀ outer frame body s opened t, Block.LeftAt ctx (frame :: outer) (.openAt s) body s .offEnd opened t →
      ∃ own, opened = own :: frame :: outer ∧ own.pos = s.pos ∧
        Block.act outer frame (.sub body) ctx s =
          .done frame (if own.isCommitted (frame :: outer) then t else t.moveTo s.pos) := by
  refine ⟨?_, fun exit opened t h => ?_, fun outer frame body s opened t h => ?_⟩
  · obtain ⟨exit, opened, t, h⟩ := Block.exists_leftAt ctx [] (.openAt s) actions s
    refine ⟨(exit, opened, t), h, fun moment h' => ?_⟩
    obtain ⟨hexit, hopened, ht⟩ := h.unique h'
    exact Prod.ext hexit (Prod.ext hopened ht)
  · obtain ⟨inner, outermost, pos, rfl, hpos, _, hkept, hperform⟩ := h.perform_eq
    have hstart : outermost.pos = s.pos := hpos
    refine ⟨outermost, by simp, hstart, ?_⟩
    cases exit with
    | faulted f => simp [Parser.block, hperform, Exit.flow, Flow.leave, Exit.reply, Exit.isFault]
    | offEnd | answered v =>
      cases hmark : outermost.committed with
      | true =>
        have hpos : pos = t.pos := hkept rfl (by simp [hmark])
        simp [Parser.block, hperform, Exit.flow, Flow.leave, Exit.reply, Exit.isFault, Frame.settle,
          Frame.isCommitted, hmark, hpos]
      | false =>
        simp [Parser.block, hperform, Exit.flow, Flow.leave, Exit.reply, Exit.isFault, Frame.settle,
          Frame.isCommitted, hmark, hstart]
  · obtain ⟨inner, own, pos, hopened, hpos, hoff, _⟩ := h.perform_eq
    obtain ⟨rfl, -⟩ := hoff rfl
    refine ⟨own, hopened, hpos, ?_⟩
    rw [h.act_sub_eq, hopened]
    rfl

/-- The inner block answers when it is committed and the one around it is not. -/
theorem leaving_blocks_uncommitted :
    let ctx : Setting := ⟨.text #['a', 'b', 'c'], 1⟩
    let start : State := ⟨0, 0, [], #[]⟩
    let body : List (Action Parser) := [.advance, .sub [.commit, .advance, .succeed]]
    Block.LeftAt ctx [] (.openAt start) body start (.answered (.bool true)) [⟨1, true⟩, ⟨0, false⟩]
        ⟨2, 0, [], #[]⟩ ∧
      Parser.block body ctx start = .returned (.bool true) start := by
  intro ctx start body
  have hleft : Block.LeftAt ctx [] (.openAt start) body start (.answered (.bool true))
      [⟨1, true⟩, ⟨0, false⟩] ⟨2, 0, [], #[]⟩ :=
    .next rfl (.inside (.next rfl (.next rfl (.answered nofun rfl))) nofun)
  obtain ⟨outermost, hlast, _, hreply⟩ := (leaving_blocks body ctx start).2.1 _ _ _ hleft
  cases hlast
  exact ⟨hleft, hreply⟩

end PegMatcher
