import PegMatcher.Proofs.Library
import PegMatcher.Proofs.Nesting
import PegMatcher.Proofs.Outcomes
import PegMatcher.Proofs.Recognition
import PegMatcher.Proofs.Replay
import PegMatcher.Proofs.Tasks

/-!
# What the ways of matching answer

Whatever the journal of a task holds before, the answer is that of one run at a cursor of its own, with
nothing on any tracker. Trackers have no part in a match, and the one that a parse reports from is reset
before the parse begins.
-/

namespace PegMatcher

set_option autoImplicit false

def Likeness.tracked (ctx : Setting) (d : Nat) (names : String → Prop) : Likeness where
  left := ctx
  right := ctx
  shift := 0
  place _ := True
  states s t := s.pos = t.pos ∧ s.depth = d ∧ t.depth = d ∧
    ∀ name, names name → s.trackers.get name = t.trackers.get name
  values := Eq
  excused _ := False
  pos_eq h := by rw [h.1, Int.add_zero]
  place_pos _ := trivial
  moveTo _ h := ⟨(Int.add_zero _).symm, h.2⟩
  record {s t} tracker label h := by
    refine ⟨h.1, h.2.1, h.2.2.1, fun name hname => ?_⟩
    have hold := h.2.2.2 name hname
    simp only [State.record]
    by_cases heq : name = tracker
    · subst heq
      rw [Trackers.get_modify_self, Trackers.get_modify_self, h.1, hold]
    · rwa [Trackers.get_modify_of_ne _ _ heq, Trackers.get_modify_of_ne _ _ heq]
  observe _ _ _ _ h := h
  refl := Eq.refl
  truthy_eq := @Value.truthy_congr

theorem Likeness.Replies.tracked {ctx : Setting} {d : Nat} {ts us : Trackers} {names : String → Prop}
    {r r' : Reply} (h : (recording ctx d ts us).Replies r r')
    (hsame : ∀ name, names name → ts.get name = us.get name) :
    (Likeness.tracked ctx d names).Replies r r' := by
  have hstates : ∀ {s t}, (recording ctx d ts us).states s t →
      (Likeness.tracked ctx d names).states s t := fun {s t} hs => by
    refine ⟨hs.1, hs.2.1, hs.2.2.1, fun name hname => ?_⟩
    obtain ⟨records, hleft, hright⟩ := hs.2.2.2 name
    rw [hleft, hright, hsame name hname]
  cases h with
  | returned hv hs => exact .returned hv (hstates hs)
  | raised hs => exact .raised (hstates hs)
  | excused hf => exact hf.elim

theorem Expr.tracked (env : Environment) (e : Expr) (ctx : Setting) (names : String → Prop)
    {s t : State} (hpos : s.pos = t.pos) (hdepth : s.depth = t.depth)
    (h : ∀ name, names name → s.trackers.get name = t.trackers.get name) :
    (Likeness.tracked ctx s.depth names).Replies (e.parser env ctx s) (e.parser env ctx t) :=
  (e.recording env ctx hpos hdepth).tracked h

namespace Cursor

/-- Where a run at the cursor begins if nothing was recorded before. -/
def blank (c : Cursor) : State := ⟨c.pos, c.depth, [], #[]⟩

def answer (env : Environment) (e : Expr) (c : Cursor) : Except Failure (Option Int) :=
  (e.parser env c.setting c.blank).stop?

theorem answer_match?_eq (env : Environment) (c : Cursor) (e : Expr) (j : Journal) :
    (c.match? env e).answer j = c.answer env e := by
  have hsame := e.tracked env c.setting (fun _ => False)
    (s := ⟨c.pos, c.depth, j.trackers, j.trace⟩) (t := c.blank) rfl rfl nofun
  rw [answer_match?, answer]
  generalize e.parser env c.setting ⟨c.pos, c.depth, j.trackers, j.trace⟩ = r at hsame ⊢
  generalize e.parser env c.setting c.blank = r' at hsame ⊢
  cases hsame with
  | returned hv hs =>
    cases hv
    simp only [Reply.stop?, hs.1]
  | raised hs => rfl
  | excused hf => exact hf.elim

/-- A match that has to be followed by the end is one that reaches it. -/
theorem answer_seq_end (env : Environment) (e : Expr) (c : Cursor) :
    c.answer env (.seq [e, .primitive .endOfInput]) =
      (c.answer env e).map (Option.filter fun stop => decide ((c.source.size : Int) ≤ stop)) := by
  rw [answer, answer, Expr.parser_seq, List.map_cons, List.map_cons, List.map_nil, Parser.seq_cons]
  cases e.parser env c.setting c.blank with
  | raised f s => rfl
  | returned v s =>
    cases hv : v.truthy with
    | false => simp only [hv, Reply.stop?, Except.map]; rfl
    | true =>
      have hseq := Parser.seq_cons ((Expr.primitive .endOfInput).parser env) [] c.setting s
      have hend : (Expr.primitive .endOfInput).parser env c.setting s =
          .returned (.bool (decide ((c.source.size : Int) ≤ s.pos))) s := Expr.parser_endOfInput env c.setting s
      rw [hend] at hseq
      by_cases hle : (c.source.size : Int) ≤ s.pos
      · rw [decide_eq_true hle] at hseq
        simp only [hv, Reply.stop?, Except.map, hseq, if_true, Option.filter, hle, decide_true]
        rfl
      · rw [decide_eq_false hle] at hseq
        simp only [hv, Reply.stop?, Except.map, hseq, if_true, Option.filter, hle, decide_false]
        rfl

end Cursor

namespace Cursor

/-- A run at a cursor matches and moves it to the end of the match, or fails and leaves it as it was. -/
inductive ComesTo (env : Environment) (e : Expr) (c : Cursor) (j : Journal) : Outcome → Prop where
  | ok {v : Value} {j' : Journal} {q : Nat} : c.run env e j = (.ok v, { c with pos := q }, j') →
      v.truthy = true → ComesTo env e c j (.ok q)
  | fail {v : Value} {j' : Journal} : c.run env e j = (.ok v, c, j') → v.truthy = false →
      ComesTo env e c j .fail

variable {env : Environment} {e : Expr} {c c' : Cursor} {j j' : Journal} {v : Value} {o o' : Outcome} {p : Nat}

theorem ComesTo.exists_run (h : c.ComesTo env e j o) : ∃ v c' j', c.run env e j = (.ok v, c', j') := by
  cases h with
  | ok hrun _ => exact ⟨_, _, _, hrun⟩
  | fail hrun _ => exact ⟨_, _, _, hrun⟩

theorem ComesTo.eq_of_run (h : c.ComesTo env e j o) (hrun : c.run env e j = (.ok v, c', j')) :
    o = if v.truthy then .ok c'.pos.toNat else .fail := by
  cases h with
  | ok hrun' hv =>
    cases hrun'.symm.trans hrun
    rw [if_pos hv]
    rfl
  | fail hrun' hv =>
    cases hrun'.symm.trans hrun
    rw [hv]
    rfl

theorem ComesTo.unique (h : c.ComesTo env e j o) (h' : c.ComesTo env e j o') : o = o' := by
  obtain ⟨v, c', j', hrun⟩ := h.exists_run
  exact (h.eq_of_run hrun).trans (h'.eq_of_run hrun).symm

theorem comesTo_of_tells {s : State} (hs : s = ⟨c.pos, c.depth, j.trackers, j.trace⟩)
    (h : (e.parser env c.setting s).Tells c.source s o) : c.ComesTo env e j o := by
  subst hs
  generalize hr : e.parser env c.setting _ = r at h
  cases h with
  | ok hv ht hq => exact .ok ((run_of_returned hr).trans (by rw [hq, ht.depth_eq])) hv
  | fail hv ht hq => exact .fail ((run_of_returned hr).trans (by rw [hq, ht.depth_eq])) hv

theorem comesTo_of_derives {n : Nat} (h : Expr.Derives env c.source n e p o) (hp : c.pos = p)
    (hle : p ≤ c.source.size) (hn : n ≤ c.maxDepth - c.depth) : c.ComesTo env e j o := by
  let s : State := ⟨c.pos, c.depth, j.trackers, j.trace⟩
  have hs : s.At c.source c.depth := ⟨by simp only [s]; omega, by simp only [s]; omega, rfl⟩
  have h : Expr.Derives env c.setting.source n e p o := h
  exact comesTo_of_tells rfl (h.tells s c.depth hs hp hn)

theorem exists_comesTo (hb : env.Plain) (he : e.Plain) (hp : c.pos = p) (hle : p ≤ c.source.size)
    (hrun : c.run env e j = (.ok v, c', j')) :
    ∃ o, Expr.Derives env c.source (c.maxDepth - c.depth) e p o ∧ c.ComesTo env e j o := by
  let s : State := ⟨c.pos, c.depth, j.trackers, j.trace⟩
  have hs : s.At c.source c.depth := ⟨by simp only [s]; omega, by simp only [s]; omega, rfl⟩
  cases hr : e.parser env c.setting s with
  | raised f t => cases hrun.symm.trans (run_of_raised hr)
  | returned w t =>
    have hfollows : Expr.Follows env c.setting c.depth (c.maxDepth - c.depth) e :=
      Expr.Built.follows hb c.depth e he
    obtain ⟨o, ho⟩ := hfollows s p w t hs hp hr
    exact ⟨o, ho, comesTo_of_derives ho hp hle (Nat.le_refl _)⟩

/-- What runs come to is what expressions stand for. -/
theorem comesTo_iff (hb : env.Plain) (he : e.Plain) (hp : c.pos = p) (hle : p ≤ c.source.size) :
    c.ComesTo env e j o ↔ Expr.Derives env c.source (c.maxDepth - c.depth) e p o := by
  refine ⟨fun h => ?_, fun h => comesTo_of_derives h hp hle (Nat.le_refl _)⟩
  obtain ⟨v, c', j', hrun⟩ := h.exists_run
  obtain ⟨o', ho', h'⟩ := exists_comesTo hb he hp hle hrun
  exact h.unique h' ▸ ho'

end Cursor

section EntryPoints

variable {limit pos maxDepth : Int} {input : Input} {c : Cursor} {notice? : Option Notice}
  {env : Environment} {p : Operand} {e : Expr}

theorem answer_matchAt_of_start (hc : Cursor.start limit input pos defaultMaxDepth = .ok (c, notice?))
    (hp : p.convert = .ok e) (j : Journal) :
    (matchAt env limit p input pos).answer j = c.answer env e := by
  obtain ⟨notices, hplace⟩ := Cursor.run_place hc j
  rw [matchAt, Task.answer_bind_ok hplace, hp, Task.answer_bind_ok (Task.run_ofExcept_ok e)]
  exact Cursor.answer_match?_eq env c e _

theorem Grammar.answer_matchAt {g : Grammar} {id : Nat} {name : String} (hname : g.contains name)
    (hc : Cursor.start limit input pos maxDepth = .ok (c, notice?)) (j : Journal) :
    (g.matchAt id env limit name input pos maxDepth).answer j =
      c.answer env (.rule (.slot id name)) := by
  obtain ⟨notices, hplace⟩ := Cursor.run_place hc j
  have hknown : ¬ ¬ g.contains name := Decidable.not_not.mpr hname
  rw [matchAt, if_neg hknown, Task.answer_bind_ok hplace]
  exact Cursor.answer_match?_eq env c _ _

theorem answer_matchesWhole_of_start (hp : p.convert = .ok e)
    (hc : Cursor.start limit input 0 defaultMaxDepth = .ok (c, notice?)) (j : Journal) :
    (matchesWhole env limit p input).answer j =
      (c.answer env e).map (Option.any fun stop => decide ((c.source.size : Int) ≤ stop)) := by
  obtain ⟨notices, hplace⟩ := Cursor.run_place hc j
  have hseq : Factory.seq [p, .parser (.primitive .endOfInput)] =
      .ok (.seq [e, .primitive .endOfInput]) := by
    simp only [Factory.seq, Operand.convertAll, hp]
    rfl
  have hmatch := Cursor.answer_match?_eq env c (.seq [e, .primitive .endOfInput]) { j with notices }
  rw [Cursor.answer_seq_end] at hmatch
  rw [matchesWhole, hseq, Task.answer_bind_ok (Task.run_ofExcept_ok _), Task.answer_bind_ok hplace,
    Task.answer_bind_return, hmatch]
  cases c.answer env e with
  | error failure => rfl
  | ok stop? => simp only [Except.map, Option.isSome_filter]

end EntryPoints

namespace ParseOptions

variable {o : ParseOptions} {j : Journal}

/-- What the tracker of a parse holds; `own` is what one without a name holds. -/
def held (o : ParseOptions) (own : Tracker) (ts : Trackers) : Tracker :=
  match o.tracker with
  | some name => ts.get name
  | none => own

/-- The answer that a parse makes of the reply of its run. -/
def verdict (o : ParseOptions) (src : Source) : Reply → Except Failure Int
  | .raised f _ => .error (.fault f)
  | .returned v s =>
    let t := o.held .fresh s.trackers
    if v.truthy then
      if ¬ o.full ∨ (src.size : Int) ≤ s.pos then .ok s.pos
      else .error (.mismatch ((t.record s.pos endLabel).mismatch (.ofSource src)))
    else .error (.mismatch (t.mismatch (.ofSource src)))

theorem run_onTracker (o : ParseOptions) (change : Tracker → Tracker) (j : Journal) :
    ∃ ts, (o.onTracker change).run j = .ok () { j with trackers := ts } ∧
      ∀ own, o.held (change own) ts = change (o.held own j.trackers) := by
  unfold onTracker held
  cases o.tracker with
  | none => exact ⟨j.trackers, rfl, fun _ => rfl⟩
  | some name => exact ⟨_, rfl, fun _ => Trackers.get_modify_self _ _ _⟩

theorem answer_report {α : Type} (o : ParseOptions) (own : Tracker) (src : Source) (j : Journal) :
    (do throw (.mismatch (← o.report own src)) : Task α).answer j =
      .error (.mismatch ((o.held own j.trackers).mismatch (.ofSource src))) := by
  unfold report held
  cases o.tracker with
  | none => rfl
  | some name => rfl

theorem verdict_eq_of_tracked {ctx : Setting} {d : Nat} {r r' : Reply} (src : Source)
    (h : (Likeness.tracked ctx d fun name => o.tracker = some name).Replies r r') :
    o.verdict src r = o.verdict src r' := by
  cases h with
  | raised hs => rfl
  | excused hf => exact hf.elim
  | @returned v w s t hv hs =>
    have hheld : o.held .fresh s.trackers = o.held .fresh t.trackers := by
      unfold held
      cases ho : o.tracker with
      | none => rfl
      | some name => exact hs.2.2.2 name ho
    cases hv
    simp only [verdict, hs.1, hheld]

end ParseOptions

section Parse

variable {limit : Int} {input : Input} {o : ParseOptions} {c : Cursor} {notice? : Option Notice}
  {env : Environment} {p : Operand} {e : Expr}

theorem answer_parse_of_start (hc : Cursor.start limit input o.pos o.maxDepth = .ok (c, notice?))
    (hp : p.convert = .ok e) (j : Journal) :
    (parse env limit p input o).answer j =
      o.verdict c.source (e.parser env c.setting c.blank) := by
  obtain ⟨ts, hreset, hts⟩ := o.run_onTracker (fun _ => .fresh) j
  obtain ⟨notices, hplace⟩ := Cursor.run_place hc { j with trackers := ts }
  have hsame := e.tracked env c.setting (fun name => o.tracker = some name)
    (s := ⟨c.pos, c.depth, ts, j.trace⟩) (t := c.blank) rfl rfl <| by
      intro name hname
      have hfresh := hts .fresh
      simp only [ParseOptions.held, hname] at hfresh
      rw [hfresh]
      rfl
  have hmatch := Cursor.run_match? env c e { j with trackers := ts, notices }
  rw [← o.verdict_eq_of_tracked c.source hsame, parse, Task.answer_bind_ok hreset,
    Task.answer_bind_ok hplace, hp, Task.answer_bind_ok (Task.run_ofExcept_ok e)]
  generalize e.parser env c.setting ⟨c.pos, c.depth, ts, j.trace⟩ = r at hmatch ⊢
  cases r with
  | raised f s => exact Task.answer_bind_error hmatch
  | returned v s =>
    rw [Task.answer_bind_ok hmatch, ParseOptions.verdict]
    by_cases hv : v.truthy = true
    · rw [if_pos hv, if_pos hv]
      by_cases hstop : ¬ o.full = true ∨ (c.source.size : Int) ≤ s.pos
      · simp only [if_pos hstop]
        rfl
      · obtain ⟨us, hrecord, hus⟩ := o.run_onTracker (fun t => t.record s.pos endLabel)
          ⟨s.trackers, s.trace, notices⟩
        simp only [if_neg hstop]
        rw [Task.answer_bind_ok hrecord, o.answer_report, hus]
    · rw [if_neg hv, if_neg hv]
      exact o.answer_report .fresh c.source _

/-- A parse answers the verdict on its run, whatever the journal holds before. -/
theorem answer_parse (env : Environment) (limit : Int) (p : Operand) (input : Input) (o : ParseOptions)
    (j : Journal) :
    (parse env limit p input o).answer j =
      match Cursor.start limit input o.pos o.maxDepth, p.convert with
      | .ok (c, _), .ok e => o.verdict c.source (e.parser env c.setting c.blank)
      | .ok _, .error f => .error (.fault f)
      | .error f, _ => .error (.fault f) := by
  obtain ⟨ts, hreset, _⟩ := o.run_onTracker (fun _ => .fresh) j
  cases hc : Cursor.start limit input o.pos o.maxDepth with
  | error f =>
    rw [parse, Task.answer_bind_ok hreset, Task.answer_bind_error (Cursor.run_place_fault hc _)]
  | ok placed =>
    obtain ⟨c, notice?⟩ := placed
    cases hp : p.convert with
    | ok e => exact answer_parse_of_start hc hp j
    | error f =>
      obtain ⟨notices, hplace⟩ := Cursor.run_place hc { j with trackers := ts }
      rw [parse, Task.answer_bind_ok hreset, Task.answer_bind_ok hplace, hp,
        Task.answer_bind_error (Task.run_ofExcept_error f)]

end Parse

end PegMatcher
