import PegMatcher.Matching
import PegMatcher.Proofs.Nesting

/-!
# The count of running rules

`Within env ctx k e s e' t` says that while `e` runs from `s`, the expression `e'` is run from `t` with
`k` more rules around it. The state counts these rules exactly: a run, whatever it does and however it
ends, gives the count back, and inside a rule it lies between one and the bound. So a cursor that was
used before runs a parser as a new one does.
-/

namespace PegMatcher

set_option autoImplicit false

variable {env : Environment} {ctx : Setting}

/-- Performing actions from a state, inside some checkpoints, runs an expression from another state. -/
inductive Block.Reaches (env : Environment) (ctx : Setting) :
    List Frame → Frame → List (Action Expr) → State → Expr → State → Prop where
  | need {outer : List Frame} {frame : Frame} {e : Expr} {as : List (Action Expr)} {s : State} :
      Reaches env ctx outer frame (.need e :: as) s e s
  | attempt {outer : List Frame} {frame : Frame} {e : Expr} {as : List (Action Expr)} {s : State} :
      Reaches env ctx outer frame (.attempt e :: as) s e s
  | sub {outer : List Frame} {frame : Frame} {body as : List (Action Expr)} {s t : State} {e : Expr} :
      Reaches env ctx (frame :: outer) (.openAt s) body s e t →
      Reaches env ctx outer frame (.sub body :: as) s e t
  | next {outer : List Frame} {frame frame' : Frame} {a : Action Expr} {as : List (Action Expr)}
      {s s' t : State} {e : Expr} :
      Block.act outer frame (Expr.runAction (invoke env (ctx.maxDepth - s.depth)) a) ctx s =
        .done frame' s' →
      Reaches env ctx outer frame' as s' e t → Reaches env ctx outer frame (a :: as) s e t

namespace Expr

/-- Running an expression runs one of its parts, other than the body of a rule, from another state. -/
inductive Starts (env : Environment) (ctx : Setting) : Expr → State → Expr → State → Prop where
  | seqHead {e : Expr} {es : List Expr} {s : State} : Starts env ctx (.seq (e :: es)) s e s
  | seqNext {e e' : Expr} {es : List Expr} {s s' t : State} {v : Value} :
      e.parser env ctx s = .returned v s' → v.truthy = true →
      Starts env ctx (.seq es) s' e' t → Starts env ctx (.seq (e :: es)) s e' t
  | choiceHead {e : Expr} {es : List Expr} {s : State} : Starts env ctx (.choice (e :: es)) s e s
  | choiceNext {e e' : Expr} {es : List Expr} {s s' t : State} {v : Value} :
      e.parser env ctx s = .returned v s' → v.truthy = false →
      Starts env ctx (.choice es) s' e' t → Starts env ctx (.choice (e :: es)) s e' t
  | starHead {e : Expr} {s : State} : Starts env ctx (.star e) s e s
  | starNext {e e' : Expr} {s s' t : State} {v : Value} :
      e.parser env ctx s = .returned v s' → v.truthy = true → s'.pos ≠ s.pos →
      Starts env ctx (.star e) s' e' t → Starts env ctx (.star e) s e' t
  | plusHead {e : Expr} {s : State} : Starts env ctx (.plus e) s e s
  | plusNext {e : Expr} {s s' : State} {v : Value} :
      e.parser env ctx s = .returned v s' → v.truthy = true → s'.pos ≠ s.pos →
      Starts env ctx (.plus e) s (.star e) s'
  | opt {e : Expr} {s : State} : Starts env ctx (.opt e) s e s
  | ahead {e : Expr} {s : State} : Starts env ctx (.ahead e) s e s
  | notAhead {e : Expr} {s : State} : Starts env ctx (.notAhead e) s e s
  | expect {tracker label : String} {e : Expr} {s : State} :
      Starts env ctx (.expect tracker label e) s e s
  | traced {tag : Value} {e : Expr} {s : State} : Starts env ctx (.traced tag e) s e s
  | block {actions : List (Action Expr)} {s t : State} {e : Expr} :
      Block.Reaches env ctx [] (.openAt s) actions s e t → Starts env ctx (.block actions) s e t
  | look {next : Source → Int → Routine Expr} {s t : State} {e : Expr} :
      Starts env ctx (.routine (next ctx.source s.pos)) s e t →
      Starts env ctx (.routine (.look next)) s e t
  | moveTo {pos : Int} {r : Routine Expr} {s t : State} {e : Expr} :
      Starts env ctx (.routine r) (s.moveTo pos) e t →
      Starts env ctx (.routine (.moveTo pos r)) s e t
  | runHead {e : Expr} {next : Bool → Routine Expr} {s : State} :
      Starts env ctx (.routine (.run e next)) s e s
  | runNext {e e' : Expr} {next : Bool → Routine Expr} {s s' t : State} {v : Value} :
      e.parser env ctx s = .returned v s' → Starts env ctx (.routine (next v.truthy)) s' e' t →
      Starts env ctx (.routine (.run e next)) s e' t

inductive Within (env : Environment) (ctx : Setting) :
    Nat → Expr → State → Expr → State → Prop where
  | self {e : Expr} {s : State} : Within env ctx 0 e s e s
  | part {k : Nat} {e e' e'' : Expr} {s s' t : State} : Starts env ctx e s e' s' →
      Within env ctx k e' s' e'' t → Within env ctx k e s e'' t
  | body {k : Nat} {id : RuleId} {body e : Expr} {s t : State} : (env id).body = some body →
      s.depth < ctx.maxDepth → Within env ctx k body { s with depth := s.depth + 1 } e t →
      Within env ctx (k + 1) (.rule id) s e t

theorem Within.of_starts {k : Nat} {e e' e'' : Expr} {s t u : State} (h : Within env ctx k e' t e'' u)
    (hself : e' ≠ e'') (hrule : ∀ id, e' ≠ .rule id)
    (hstarts : ∀ e'' u, Starts env ctx e' t e'' u → Starts env ctx e s e'' u) :
    Within env ctx k e s e'' u := by
  cases h with
  | self => exact absurd rfl hself
  | part hpart hwithin => exact .part (hstarts _ _ hpart) hwithin
  | body _ _ _ => exact absurd rfl (hrule _)

end Expr

theorem Block.act_depth {outer : List Frame} {frame frame' : Frame} {a : Action Expr} {n : Nat}
    {s s' : State}
    (h : Block.act outer frame (Expr.runAction (invoke env n) a) ctx s = .done frame' s') :
    s'.depth = s.depth := by
  have hf : (Likeness.level ctx s.depth True).Flows
      (Block.act outer frame (Expr.runAction (invoke env n) a) ctx s)
      (Block.act outer frame (Expr.runAction (invoke env n) a) ctx s) :=
    Likeness.alike_action Likeness.whole_level (Likeness.level_invoke env n s.depth) a outer frame s s
      ⟨rfl, rfl, rfl, fun _ => rfl⟩
  rw [h] at hf
  cases hf with
  | done hs => exact hs.2.1

theorem Expr.returned_depth {e : Expr} {s s' : State} {v : Value}
    (h : e.parser env ctx s = .returned v s') : s'.depth = s.depth := by
  have hd := e.parser_depth env ctx s
  rwa [h] at hd

theorem Block.Reaches.depth_eq {outer : List Frame} {frame : Frame} {as : List (Action Expr)}
    {s t : State} {e : Expr} (h : Block.Reaches env ctx outer frame as s e t) :
    t.depth = s.depth := by
  induction h with
  | need => rfl
  | attempt => rfl
  | sub _ ih => exact ih
  | next hact _ ih => rw [ih, Block.act_depth hact]

theorem Expr.Starts.depth_eq {e e' : Expr} {s t : State} (h : Starts env ctx e s e' t) :
    t.depth = s.depth := by
  induction h with
  | seqNext hr _ _ ih => rw [ih, returned_depth hr]
  | choiceNext hr _ _ ih => rw [ih, returned_depth hr]
  | starNext hr _ _ _ ih => rw [ih, returned_depth hr]
  | plusNext hr _ _ => exact returned_depth hr
  | block h => exact h.depth_eq
  | look _ ih => exact ih
  | moveTo _ ih => exact ih
  | runNext hr _ ih => rw [ih, returned_depth hr]
  | _ => rfl

theorem Expr.Within.depth_eq {k : Nat} {e e' : Expr} {s t : State}
    (h : Within env ctx k e s e' t) :
    t.depth = s.depth + k ∧ (0 < k → t.depth ≤ ctx.maxDepth) := by
  induction h with
  | self => exact ⟨rfl, fun h => absurd h (by omega)⟩
  | part h _ ih =>
    rw [h.depth_eq] at ih
    exact ih
  | @body k id body e s t _ hlt _ ih =>
    obtain ⟨hd, hk⟩ := ih
    simp only at hd
    refine ⟨by omega, fun _ => ?_⟩
    rcases Nat.eq_zero_or_pos k with rfl | hpos
    · omega
    · exact hk hpos

namespace Cursor

/-- A cursor after any calls, which may have raised faults, and any moves. -/
inductive Used (c : Cursor) : Cursor → Prop where
  | new : Used c c
  | called {c' : Cursor} (env : Environment) (e : Expr) (j : Journal) : Used c c' →
      Used c (c'.run env e j).2.1
  | moved {c' : Cursor} (pos : Int) : Used c c' → Used c { c' with pos }

theorem Used.eq_moved {c c' : Cursor} (h : Used c c') : c' = { c with pos := c'.pos } := by
  induction h with
  | new => rfl
  | @called c' env e j _ ih =>
    have hd := e.parser_depth env c'.setting ⟨c'.pos, c'.depth, j.trackers, j.trace⟩
    simp only [run, hd]
    rw [ih]
  | moved pos _ ih => rw [ih]

theorem run_journal (c : Cursor) (e : Expr) (j k : Journal) :
    (c.run env e j).1 = (c.run env e k).1 ∧ (c.run env e j).2.1 = (c.run env e k).2.1 := by
  have h : (Likeness.level c.setting c.depth False).Replies
      (e.parser env c.setting ⟨c.pos, c.depth, j.trackers, j.trace⟩)
      (e.parser env c.setting ⟨c.pos, c.depth, k.trackers, k.trace⟩) :=
    Likeness.level_run env (c.setting.maxDepth - c.depth) e _ _
      ⟨rfl, rfl, rfl, False.elim⟩
  simp only [run]
  generalize e.parser env c.setting ⟨c.pos, c.depth, j.trackers, j.trace⟩ = a at h ⊢
  generalize e.parser env c.setting ⟨c.pos, c.depth, k.trackers, k.trace⟩ = b at h ⊢
  cases h with
  | returned hv hs => exact ⟨by rw [hv], by simp only [Reply.state, hs.1, hs.2.1, hs.2.2.1]⟩
  | raised hs => exact ⟨rfl, by simp only [Reply.state, hs.1, hs.2.1, hs.2.2.1]⟩
  | excused hf => exact hf.elim

end Cursor

/-- A call gives the count of running rules back, inside it the count is exact and bounded, and a cursor that
was used before answers as a new one. -/
theorem depth_discipline (env : Environment) (e : Expr) :
    (∀ ctx s, (e.parser env ctx s).state.depth = s.depth) ∧
    (∀ ctx k s e' t, e.Within env ctx k s e' t →
      t.depth = s.depth + k ∧ (0 < k → 1 ≤ t.depth ∧ t.depth ≤ ctx.maxDepth)) ∧
    (∀ src start maxDepth c, Cursor.Used ⟨src, start, maxDepth, 0⟩ c → ∀ j k,
      (c.run env e j).1 = (Cursor.run env e ⟨src, c.pos, maxDepth, 0⟩ k).1 ∧
      (c.run env e j).2.1 = (Cursor.run env e ⟨src, c.pos, maxDepth, 0⟩ k).2.1) := by
  refine ⟨e.parser_depth env, ?_, ?_⟩
  · intro ctx k s e' t h
    obtain ⟨hd, hk⟩ := h.depth_eq
    exact ⟨hd, fun hpos => ⟨by omega, hk hpos⟩⟩
  · intro src start maxDepth c h j k
    rw [h.eq_moved]
    exact Cursor.run_journal _ e j k

def endlessRules : Environment := fun _ =>
  ⟨some "r", some (.seq [.primitive .any, .rule (.loose 0)])⟩

/-- Where two levels are allowed, the third rule is refused; the cursor then answers as a new one. -/
theorem depth_discipline_refused :
    let e : Expr := .rule (.loose 0)
    let src : Source := .text #['a', 'a', 'a']
    let t : State := ⟨0, 1, [], #[]⟩
    let c := (Cursor.run endlessRules e ⟨src, 0, 2, 0⟩ {}).2.1
    e.Within endlessRules ⟨src, 2⟩ 1 ⟨0, 0, [], #[]⟩ (.seq [.primitive .any, e]) t ∧
    (1 ≤ t.depth ∧ t.depth ≤ 2) ∧
    (Cursor.run endlessRules e ⟨src, 0, 2, 0⟩ {}).1 = .error (.depthExceeded 2 (some "r")) ∧
    (c.run endlessRules e {}).1 = (Cursor.run endlessRules e ⟨src, c.pos, 2, 0⟩ {}).1 := by
  intro e src t c
  have h := depth_discipline endlessRules e
  have hw : e.Within endlessRules ⟨src, 2⟩ 1 ⟨0, 0, [], #[]⟩ (.seq [.primitive .any, e]) t :=
    .body rfl (by decide) .self
  refine ⟨hw, (h.2.1 _ _ _ _ _ hw).2 (by decide), rfl, ?_⟩
  exact (h.2.2 src 0 2 c (.called endlessRules e {} .new) {} {}).1

end PegMatcher
