import PegMatcher.Proofs.Depth
import PegMatcher.Proofs.Outcomes
import PegMatcher.Proofs.Records

/-!
# What trackers tell of a run

A watched parser that does not match is recorded where it leaves the cursor, and nothing else in a run
touches a tracker. So what a tracker holds behind a run comes of what it held before, by recording parsers
watched on it that failed within this run. A composite run records only in its parts, one after another.
-/

namespace PegMatcher

set_option autoImplicit false

variable {env : Environment} {ctx : Setting} {tracker : String} {d : Nat}

namespace Expr

variable {e e' : Expr} {es : List Expr} {s s' t u w : State}

/-- While `e` runs from `s`, a parser watched on the tracker does not match and leaves the cursor at `pos`. -/
def Misses (env : Environment) (ctx : Setting) (e : Expr) (s : State) (tracker label : String)
    (pos : Int) : Prop :=
  ∃ k body t v t', e.Within env ctx k s (.expect tracker label body) t ∧
    body.parser env ctx t = .returned v t' ∧ v.truthy = false ∧ t'.pos = pos

/-- What the tracker holds at `u` comes of what it held at `t`, by recording misses of the run of `e` from `s`. -/
def Accounts (env : Environment) (ctx : Setting) (tracker : String) (e : Expr) (s t u : State) : Prop :=
  Tracker.Recorded (e.Misses env ctx s tracker) (t.trackers.get tracker) (u.trackers.get tracker)

theorem Accounts.of_same (h : u.trackers = t.trackers) : Accounts env ctx tracker e s t u := by
  rw [Accounts, h]
  exact .refl

theorem Accounts.of_start (hstart : Starts env ctx e s e' s')
    (h : Accounts env ctx tracker e' s' t u) : Accounts env ctx tracker e s t u := by
  apply h.mono
  rintro label pos ⟨k, body, w, v, w', hwithin, hrun⟩
  exact ⟨k, body, w, v, w', .part hstart hwithin, hrun⟩

theorem Accounts.of_starts (h : Accounts env ctx tracker e' s' t u) (hrule : ∀ id, e' ≠ .rule id)
    (hexpect : ∀ label body, e' ≠ .expect tracker label body)
    (hstarts : ∀ e'' w, Starts env ctx e' s' e'' w → Starts env ctx e s e'' w) :
    Accounts env ctx tracker e s t u := by
  apply h.mono
  rintro label pos ⟨k, body, w, v, w', hwithin, hrun⟩
  exact ⟨k, body, w, v, w', hwithin.of_starts (hexpect label body) hrule hstarts, hrun⟩

def Accounted (env : Environment) (ctx : Setting) (tracker : String) (d : Nat) (e : Expr) : Prop :=
  ∀ s, s.depth = d → Accounts env ctx tracker e s s (e.parser env ctx s).state

/-- A part of a run accounts for what is done up to its end. -/
theorem Accounted.part (h : Accounted env ctx tracker d e') (hs : s.depth = d)
    (hstart : Starts env ctx e s e' t) (hpart : (e'.parser env ctx t).state = u) :
    Accounts env ctx tracker e s t u := by
  have hrun := h t (hstart.depth_eq.trans hs)
  rw [hpart] at hrun
  exact hrun.of_start hstart

theorem Accounted.unary (h : Accounted env ctx tracker d e) (hstart : ∀ s, Starts env ctx e' s e s)
    (hsame : ∀ s, (e'.parser env ctx s).state.trackers = (e.parser env ctx s).state.trackers) :
    Accounted env ctx tracker d e' := by
  intro s hs
  exact (h.part hs (hstart s) rfl).trans (Accounts.of_same (hsame s))

theorem accounted_primitive (m : Primitive) : Accounted env ctx tracker d (.primitive m) := by
  intro s _
  refine .of_same ?_
  simp only [parser, run, Parser.ofPrimitive]
  split
  · rfl
  · rfl
  · rfl

theorem accounted_seq (h : ∀ e ∈ es, Accounted env ctx tracker d e) :
    Accounted env ctx tracker d (.seq es) := by
  induction es with
  | nil =>
    intro s _
    refine .of_same ?_
    rw [parser_seq]
    rfl
  | cons e es ih =>
    intro s hs
    have hhead := h e (by simp)
    rw [parser_seq, List.map_cons, Parser.seq_cons, ← parser_seq]
    cases hr : e.parser env ctx s with
    | raised f t => exact hhead.part hs .seqHead (congrArg Reply.state hr)
    | returned v t =>
      have hfirst : Accounts env ctx tracker (.seq (e :: es)) s s t :=
        hhead.part hs .seqHead (congrArg Reply.state hr)
      by_cases hv : v.truthy = true
      · have hrest := ih (fun e' he' => h e' (by simp [he'])) t ((returned_depth hr).trans hs)
        have hrest' : Accounts env ctx tracker (.seq (e :: es)) s t
            ((seq es).parser env ctx t).state :=
          hrest.of_starts nofun nofun fun _ _ => .seqNext hr hv
        simp only [hv, if_true]
        apply (hfirst.trans hrest').trans
        apply Accounts.of_same
        cases (seq es).parser env ctx t with
        | raised f u => rfl
        | returned v' u => cases hv' : v'.truthy <;> simp [hv', Reply.state, State.moveTo]
      · simp only [hv, Bool.false_eq_true, if_false]
        exact hfirst.trans (Accounts.of_same rfl)

theorem accounted_choice (h : ∀ e ∈ es, Accounted env ctx tracker d e) :
    Accounted env ctx tracker d (.choice es) := by
  induction es with
  | nil =>
    intro s _
    refine .of_same ?_
    rw [parser_choice]
    rfl
  | cons e es ih =>
    intro s hs
    have hhead := h e (by simp)
    rw [parser_choice, List.map_cons, Parser.choice, ← parser_choice]
    cases hr : e.parser env ctx s with
    | raised f t => exact hhead.part hs .choiceHead (congrArg Reply.state hr)
    | returned v t =>
      have hfirst : Accounts env ctx tracker (.choice (e :: es)) s s t :=
        hhead.part hs .choiceHead (congrArg Reply.state hr)
      by_cases hv : v.truthy = true
      · simp only [hv, if_true]
        exact hfirst
      · have hv' : v.truthy = false := by simpa using hv
        have hrest := ih (fun e' he' => h e' (by simp [he'])) t ((returned_depth hr).trans hs)
        simp only [hv, Bool.false_eq_true, if_false]
        exact hfirst.trans (hrest.of_starts (by simp) (by simp) fun _ _ => .choiceNext hr hv')

theorem accounts_rounds (h : Accounted env ctx tracker d e) {n : Nat} {r : Reply}
    (hr : Parser.Rounds (e.parser env) ctx s n r) (hs : s.depth = d) :
    Accounts env ctx tracker (.star e) s s r.state := by
  induction hr with
  | failed run _ => exact h.part hs .starHead (by rw [run]; rfl)
  | stayed run _ _ => exact h.part hs .starHead (by rw [run]; rfl)
  | raised run => exact h.part hs .starHead (congrArg Reply.state run)
  | @again s t v n r run hv hne _ ih =>
    have hfirst : Accounts env ctx tracker (.star e) s s t := h.part hs .starHead (congrArg Reply.state run)
    have hrest := ih ((returned_depth run).trans hs)
    exact hfirst.trans (hrest.of_starts nofun nofun fun _ _ => .starNext run hv hne)

theorem accounted_star (h : Accounted env ctx tracker d e) : Accounted env ctx tracker d (.star e) := by
  intro s hs
  rw [parser_star]
  cases hrep : Parser.repeated (e.parser env) ctx s with
  | none =>
    rw [Parser.star_of_endless hrep]
    exact .of_same rfl
  | some r =>
    rw [Parser.star_of_repeated hrep]
    obtain ⟨n, hn⟩ := Parser.exists_rounds hrep
    exact accounts_rounds h hn hs

theorem accounted_plus (h : Accounted env ctx tracker d e) : Accounted env ctx tracker d (.plus e) := by
  intro s hs
  simp only [parser_plus, Parser.plus]
  cases hr : e.parser env ctx s with
  | raised f t => exact h.part hs .plusHead (congrArg Reply.state hr)
  | returned v t =>
    have hfirst : Accounts env ctx tracker (.plus e) s s t := h.part hs .plusHead (congrArg Reply.state hr)
    dsimp only
    split
    · rename_i hv
      split
      · exact hfirst
      · rename_i hne
        have hrest := (accounted_star h).part hs (.plusNext hr hv hne) rfl
        rw [parser_star] at hrest
        apply (hfirst.trans hrest).trans
        apply Accounts.of_same
        cases Parser.star (e.parser env) ctx t <;> rfl
    · exact hfirst

theorem accounted_opt (h : Accounted env ctx tracker d e) : Accounted env ctx tracker d (.opt e) :=
  h.unary (fun _ => .opt) fun s => by
    simp only [parser_opt, Parser.opt]
    cases e.parser env ctx s <;> rfl

theorem accounted_ahead (h : Accounted env ctx tracker d e) :
    Accounted env ctx tracker d (.ahead e) :=
  h.unary (fun _ => .ahead) fun s => by
    simp only [parser_ahead, Parser.ahead]
    cases e.parser env ctx s <;> rfl

theorem accounted_notAhead (h : Accounted env ctx tracker d e) :
    Accounted env ctx tracker d (.notAhead e) :=
  h.unary (fun _ => .notAhead) fun s => by
    simp only [parser_notAhead, Parser.notAhead]
    cases e.parser env ctx s <;> rfl

theorem accounted_traced {tag : Value} (h : Accounted env ctx tracker d e) :
    Accounted env ctx tracker d (.traced tag e) :=
  h.unary (fun _ => .traced) fun s => by
    simp only [parser_traced, Parser.traced]
    cases e.parser env ctx s <;> rfl

/-- The only place where something is recorded. -/
theorem accounted_expect {watch label : String} (h : Accounted env ctx tracker d e) :
    Accounted env ctx tracker d (.expect watch label e) := by
  intro s hs
  have hstart : Starts env ctx (.expect watch label e) s e s := .expect
  have hbody := h.part hs hstart rfl
  simp only [parser_expect, Parser.expect]
  cases hr : e.parser env ctx s with
  | raised f t =>
    rw [hr] at hbody
    exact hbody
  | returned v t =>
    rw [hr] at hbody
    by_cases hv : v.truthy = true
    · simp only [hv, if_true]
      exact hbody
    · have hv' : v.truthy = false := by simpa using hv
      simp only [hv, Bool.false_eq_true, if_false]
      apply hbody.trans
      by_cases hwatch : tracker = watch
      · subst hwatch
        simp only [Reply.state, State.record, Trackers.get_modify_self]
        exact .record .refl ⟨0, e, s, v, t, .self, hr, hv', rfl⟩
      · simp only [Reply.state, State.record, Trackers.get_modify_of_ne _ _ hwatch]
        exact .refl

end Expr

namespace Flow

def state : Flow → State
  | .done _ s => s
  | .left _ _ s => s
  | .raised _ s => s

theorem trackers_settle (frame : Frame) (outer : List Frame) (s : State) :
    (frame.settle outer s).trackers = s.trackers := by
  unfold Frame.settle
  split <;> rfl

theorem trackers_leave (flow : Flow) (start : Int) (outer : List Frame) :
    (flow.leave start outer).state.trackers = flow.state.trackers := by
  cases flow with
  | done frame s => exact trackers_settle frame outer s
  | left v frame s => exact trackers_settle frame outer s
  | raised f s => rfl

end Flow

namespace Block

variable {outer : List Frame} {frame : Frame} {s : State}

theorem state_need (p : Parser) : (act outer frame (.need p) ctx s).state = (p ctx s).state := by
  unfold act
  cases p ctx s with
  | raised f t => rfl
  | returned v t =>
    dsimp only
    split <;> rfl

theorem state_attempt (p : Parser) :
    (act outer frame (.attempt p) ctx s).state = (p ctx s).state := by
  unfold act
  cases p ctx s <;> rfl

theorem trackers_sub (body : List (Action Parser)) :
    (act outer frame (.sub body) ctx s).state.trackers =
      (perform (frame :: outer) (.openAt s) body ctx s).state.trackers := by
  rw [← Flow.trackers_leave (perform (frame :: outer) (.openAt s) body ctx s) s.pos (frame :: outer)]
  unfold act
  cases (perform (frame :: outer) (.openAt s) body ctx s).leave s.pos (frame :: outer) <;> rfl

theorem trackers_block (body : List (Action Parser)) :
    (Parser.block body ctx s).state.trackers =
      (perform [] (.openAt s) body ctx s).state.trackers := by
  rw [← Flow.trackers_leave (perform [] (.openAt s) body ctx s) s.pos []]
  unfold Parser.block
  cases (perform [] (.openAt s) body ctx s).leave s.pos [] <;> rfl

end Block

namespace Expr

variable {a : Action Expr} {as : List (Action Expr)} {e : Expr} {s t u : State} {outer : List Frame}
  {frame : Frame}

def ActionsMiss (env : Environment) (ctx : Setting) (outer : List Frame) (frame : Frame)
    (as : List (Action Expr)) (s : State) (tracker label : String) (pos : Int) : Prop :=
  ∃ e s', Block.Reaches env ctx outer frame as s e s' ∧ e.Misses env ctx s' tracker label pos

def ActionsAccount (env : Environment) (ctx : Setting) (tracker : String) (outer : List Frame)
    (frame : Frame) (as : List (Action Expr)) (s t u : State) : Prop :=
  Tracker.Recorded (ActionsMiss env ctx outer frame as s tracker) (t.trackers.get tracker)
    (u.trackers.get tracker)

def ActionsAccounted (env : Environment) (ctx : Setting) (tracker : String) (d : Nat)
    (as : List (Action Expr)) : Prop :=
  ∀ outer frame s, s.depth = d → ActionsAccount env ctx tracker outer frame as s s
    (Block.perform outer frame (runActions (invoke env (ctx.maxDepth - d)) as) ctx s).state

/-- One action accounts for what is done up to its end, whatever follows it. -/
def ActionAccounted (env : Environment) (ctx : Setting) (tracker : String) (d : Nat)
    (a : Action Expr) : Prop :=
  ∀ outer frame as s, s.depth = d → ActionsAccount env ctx tracker outer frame (a :: as) s s
    (Block.act outer frame (runAction (invoke env (ctx.maxDepth - d)) a) ctx s).state

theorem ActionsAccount.of_same (h : u.trackers = t.trackers) :
    ActionsAccount env ctx tracker outer frame as s t u := by
  rw [ActionsAccount, h]
  exact .refl

theorem ActionsAccount.of_reaches (hreach : Block.Reaches env ctx outer frame as s e s)
    (h : Accounts env ctx tracker e s t u) : ActionsAccount env ctx tracker outer frame as s t u :=
  h.mono fun _ _ hmiss => ⟨e, s, hreach, hmiss⟩

theorem accounted_need (h : Accounted env ctx tracker d e) :
    ActionAccounted env ctx tracker d (.need e) := by
  rintro outer frame as s rfl
  rw [runAction, Block.state_need]
  exact .of_reaches .need (h s rfl)

theorem accounted_attempt (h : Accounted env ctx tracker d e) :
    ActionAccounted env ctx tracker d (.attempt e) := by
  rintro outer frame as s rfl
  rw [runAction, Block.state_attempt]
  exact .of_reaches .attempt (h s rfl)

theorem accounted_sub (h : ActionsAccounted env ctx tracker d as) :
    ActionAccounted env ctx tracker d (.sub as) := by
  intro outer frame rest s hs
  have hbody := h (frame :: outer) (.openAt s) s hs
  rw [ActionsAccount, runAction, Block.trackers_sub]
  apply hbody.mono
  rintro label pos ⟨e, s', hreach, hmiss⟩
  exact ⟨e, s', .sub hreach, hmiss⟩

theorem accounted_idle (hneed : ∀ e, a ≠ .need e) (hattempt : ∀ e, a ≠ .attempt e)
    (hsub : ∀ body, a ≠ .sub body) : ActionAccounted env ctx tracker d a := by
  intro outer frame as s hs
  apply ActionsAccount.of_same
  cases a with
  | need e => exact absurd rfl (hneed e)
  | attempt e => exact absurd rfl (hattempt e)
  | sub body => exact absurd rfl (hsub body)
  | advance =>
    simp only [runAction, Block.act]
    split <;> rfl
  | rollbackUncommitted => exact Flow.trackers_settle frame outer s
  | _ => rfl

theorem accounted_cons (ha : ActionAccounted env ctx tracker d a)
    (has : ActionsAccounted env ctx tracker d as) : ActionsAccounted env ctx tracker d (a :: as) := by
  intro outer frame s hs
  have hfirst := ha outer frame as s hs
  simp only [runActions, Block.perform]
  cases hact : Block.act outer frame (runAction (invoke env (ctx.maxDepth - d)) a) ctx s with
  | left v frame' t =>
    rw [hact] at hfirst
    exact hfirst
  | raised f t =>
    rw [hact] at hfirst
    exact hfirst
  | done frame' t =>
    rw [hact] at hfirst
    subst hs
    have hrest := has outer frame' t (Block.act_depth hact)
    apply hfirst.trans
    apply hrest.mono
    rintro label pos ⟨e, s', hreach, hmiss⟩
    exact ⟨e, s', .next hact hreach, hmiss⟩

theorem accounted_block (h : ActionsAccounted env ctx tracker d as) :
    Accounted env ctx tracker d (.block as) := by
  intro s hs
  have hbody := h [] (.openAt s) s hs
  subst hs
  rw [Accounts, parser, run, Block.trackers_block]
  apply hbody.mono
  rintro label pos ⟨e, s', hreach, k, body, t, v, t', hwithin, hmiss⟩
  exact ⟨k, body, t, v, t', .part (.block hreach) hwithin, hmiss⟩

theorem accounted_look {next : Source → Int → Routine Expr}
    (h : ∀ src pos, Accounted env ctx tracker d (.routine (next src pos))) :
    Accounted env ctx tracker d (.routine (.look next)) := by
  intro s hs
  rw [parser_look]
  exact (h _ _ s hs).of_starts nofun nofun fun _ _ => .look

theorem accounted_moveTo {pos : Int} {r : Routine Expr}
    (h : Accounted env ctx tracker d (.routine r)) :
    Accounted env ctx tracker d (.routine (.moveTo pos r)) := by
  intro s hs
  rw [parser_moveTo]
  exact (h (s.moveTo pos) hs).of_starts nofun nofun fun _ _ => .moveTo

theorem accounted_run {next : Bool → Routine Expr} (h : Accounted env ctx tracker d e)
    (hnext : ∀ matched, Accounted env ctx tracker d (.routine (next matched))) :
    Accounted env ctx tracker d (.routine (.run e next)) := by
  intro s hs
  rw [parser_run]
  cases hr : e.parser env ctx s with
  | raised f t => exact h.part hs .runHead (congrArg Reply.state hr)
  | returned v t =>
    have hfirst : Accounts env ctx tracker (.routine (.run e next)) s s t :=
      h.part hs .runHead (congrArg Reply.state hr)
    have hrest := hnext v.truthy t ((returned_depth hr).trans hs)
    exact hfirst.trans (hrest.of_starts nofun nofun fun _ _ => .runNext hr)

mutual

theorem accounted_expr (hrules : ∀ id, Accounted env ctx tracker d (.rule id)) :
    ∀ e : Expr, Accounted env ctx tracker d e
  | .primitive m => accounted_primitive m
  | .seq parts => accounted_seq (accounted_parts hrules parts)
  | .choice options => accounted_choice (accounted_parts hrules options)
  | .star body => accounted_star (accounted_expr hrules body)
  | .plus body => accounted_plus (accounted_expr hrules body)
  | .opt body => accounted_opt (accounted_expr hrules body)
  | .ahead body => accounted_ahead (accounted_expr hrules body)
  | .notAhead body => accounted_notAhead (accounted_expr hrules body)
  | .rule id => hrules id
  | .expect _ _ body => accounted_expect (accounted_expr hrules body)
  | .traced _ body => accounted_traced (accounted_expr hrules body)
  | .block actions => accounted_block (accounted_actions hrules actions)
  | .routine r => accounted_routine hrules r

theorem accounted_parts (hrules : ∀ id, Accounted env ctx tracker d (.rule id)) :
    ∀ es : List Expr, ∀ e ∈ es, Accounted env ctx tracker d e
  | [] => nofun
  | e :: es => List.forall_mem_cons.mpr ⟨accounted_expr hrules e, accounted_parts hrules es⟩

theorem accounted_actions (hrules : ∀ id, Accounted env ctx tracker d (.rule id)) :
    ∀ as : List (Action Expr), ActionsAccounted env ctx tracker d as
  | [] => fun _ _ _ _ => .of_same rfl
  | a :: as => accounted_cons (accounted_action hrules a) (accounted_actions hrules as)

theorem accounted_action (hrules : ∀ id, Accounted env ctx tracker d (.rule id)) :
    ∀ a : Action Expr, ActionAccounted env ctx tracker d a
  | .need e => accounted_need (accounted_expr hrules e)
  | .attempt e => accounted_attempt (accounted_expr hrules e)
  | .sub body => accounted_sub (accounted_actions hrules body)
  | .advance => accounted_idle nofun nofun nofun
  | .commit => accounted_idle nofun nofun nofun
  | .uncommit => accounted_idle nofun nofun nofun
  | .rollback => accounted_idle nofun nofun nofun
  | .rollbackUncommitted => accounted_idle nofun nofun nofun
  | .raise _ => accounted_idle nofun nofun nofun
  | .succeed => accounted_idle nofun nofun nofun
  | .fail => accounted_idle nofun nofun nofun
  | .give _ => accounted_idle nofun nofun nofun

theorem accounted_routine (hrules : ∀ id, Accounted env ctx tracker d (.rule id)) :
    ∀ r : Routine Expr, Accounted env ctx tracker d (.routine r)
  | .answer _ => fun _ _ => .of_same rfl
  | .raise _ _ => fun _ _ => .of_same rfl
  | .look next => accounted_look fun src pos => accounted_routine hrules (next src pos)
  | .moveTo _ next => accounted_moveTo (accounted_routine hrules next)
  | .run e next => accounted_run (accounted_expr hrules e) fun matched =>
      accounted_routine hrules (next matched)

end

/-- The bodies of rules run deeper, and there are only so many levels. -/
theorem accounted_rule : ∀ d id, Accounted env ctx tracker d (.rule id) := by
  intro d
  induction hn : ctx.maxDepth - d using Nat.strongRecOn generalizing d with
  | ind n ih =>
    intro id s hs
    rw [parser_rule, Rule.parser]
    cases hbody : (env id).body with
    | none => exact .of_same rfl
    | some body =>
      simp only [Parser.nested]
      split
      · exact .of_same rfl
      · rename_i hfree
        have hdeeper := accounted_expr (ih _ (by omega) (d + 1) rfl) body
        have hrun := hdeeper { s with depth := s.depth + 1 } (by simp only [hs])
        have hrule : Accounts env ctx tracker (.rule id) s s
            (body.parser env ctx { s with depth := s.depth + 1 }).state := by
          apply hrun.mono
          rintro label pos ⟨k, e, t, v, t', hwithin, hmiss⟩
          exact ⟨k + 1, e, t, v, t', .body hbody (by omega) hwithin, hmiss⟩
        apply hrule.trans
        apply Accounts.of_same
        cases body.parser env ctx { s with depth := s.depth + 1 } <;> rfl

/-- However a run ends, what a tracker then holds comes of what it held before, by recording parsers watched on
it that failed within the run. -/
theorem accounts (env : Environment) (ctx : Setting) (tracker : String) (e : Expr) (s : State) :
    Accounts env ctx tracker e s s (e.parser env ctx s).state :=
  accounted_expr (accounted_rule s.depth) e s rfl

end Expr

end PegMatcher
