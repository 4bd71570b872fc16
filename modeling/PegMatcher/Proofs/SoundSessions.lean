import PegMatcher.Proofs.Confinement
import PegMatcher.Proofs.Nesting
import PegMatcher.Proofs.Tasks
import PegMatcher.Session.Command

/-!
# Sound sessions

In a sound session every cursor is in its source and outside of all rules, every mark is a position in the
source of its cursor, names refer to what there is, and all stored parsers are confined. One session leads
to another if cursors keep their sources and marks their positions; a computation may move the cursors that
it touches, and no others. What a session is made of does both, whether it answers or fails.
-/

namespace PegMatcher

set_option autoImplicit false

structure Cursor.Sound (c : Cursor) : Prop where
  nonneg : 0 ≤ c.pos
  le_size : c.pos ≤ c.source.size
  depth_eq : c.depth = 0

theorem Cursor.Sound.advance {c c' : Cursor} (h : c.Sound) (hc : c.advance = .ok c') :
    c'.Sound ∧ c'.source = c.source := by
  unfold Cursor.advance at hc
  split at hc
  · cases hc
  · rename_i hend
    cases hc
    have hlt : c.pos < c.source.size := by simpa [atEnd] using hend
    have h0 := h.nonneg
    exact ⟨⟨by dsimp only; omega, by dsimp only; omega, h.depth_eq⟩, rfl⟩

theorem Cursor.sound_of_start {limit pos maxDepth : Int} {input : Input} {c : Cursor}
    {notice? : Option Notice} (h : start limit input pos maxDepth = .ok (c, notice?)) : c.Sound := by
  obtain ⟨_, h0, h1, hd⟩ := start_bounds h
  exact ⟨h0, h1, hd⟩

namespace Session

/-- The position is one in the source of a cursor of the session. -/
def Places (s : Session) (cursor : Nat) (pos : Int) : Prop :=
  ∃ c, s.cursors[cursor]? = some c ∧ 0 ≤ pos ∧ pos ≤ c.source.size

def Marks (s : Session) : Mark → Prop
  | .savepoint index => index < s.savepoints.size
  | .checkpoint index => index < s.checkpoints.size

structure Sound (s : Session) : Prop where
  cursors : ∀ c ∈ s.cursors, c.Sound
  savepoints : ∀ p ∈ s.savepoints, s.Places p.cursor p.pos
  checkpoints : ∀ p ∈ s.checkpoints, s.Places p.cursor p.pos
  cursorNames : ∀ entry ∈ s.cursorNames, entry.2 < s.cursors.size
  markNames : ∀ entry ∈ s.markNames, s.Marks entry.2
  rules : ∀ rule ∈ s.rules, ∀ body, rule.body = some body → body.Confined
  grammars : ∀ g ∈ s.grammars, g.Confined
  parsers : ∀ entry ∈ s.parsers, entry.2.Confined

/-- Cursors keep their sources, and their places unless they are touched; marks keep their positions. -/
structure Leads (touched : Nat → Prop) (s t : Session) : Prop where
  cursors : ∀ (i : Nat) (c : Cursor), s.cursors[i]? = some c →
    ∃ c', t.cursors[i]? = some c' ∧ c'.source = c.source ∧ (¬ touched i → c' = c)
  savepoints : ∀ (i : Nat) (p : Savepoint), s.savepoints[i]? = some p → t.savepoints[i]? = some p
  checkpoints : ∀ (i : Nat) (p : Checkpoint), s.checkpoints[i]? = some p →
    ∃ committed, t.checkpoints[i]? = some { p with committed }

variable {touched : Nat → Prop} {s t u : Session}

theorem Leads.of_same (hcursors : t.cursors = s.cursors) (hsavepoints : t.savepoints = s.savepoints)
    (hcheckpoints : t.checkpoints = s.checkpoints) : s.Leads touched t where
  cursors _ c h := ⟨c, hcursors ▸ h, rfl, fun _ => rfl⟩
  savepoints _ _ h := hsavepoints ▸ h
  checkpoints _ p h := ⟨p.committed, hcheckpoints ▸ h⟩

theorem Leads.refl (s : Session) : s.Leads touched s := .of_same rfl rfl rfl

theorem Leads.trans (h : s.Leads touched t) (h' : t.Leads touched u) : s.Leads touched u where
  cursors i c hc := by
    obtain ⟨c₁, hc₁, hsource₁, hsame₁⟩ := h.cursors i c hc
    obtain ⟨c₂, hc₂, hsource₂, hsame₂⟩ := h'.cursors i c₁ hc₁
    exact ⟨c₂, hc₂, hsource₂.trans hsource₁, fun hi => (hsame₂ hi).trans (hsame₁ hi)⟩
  savepoints i p hp := h'.savepoints i p (h.savepoints i p hp)
  checkpoints i p hp := by
    obtain ⟨committed₁, hp₁⟩ := h.checkpoints i p hp
    obtain ⟨committed₂, hp₂⟩ := h'.checkpoints i _ hp₁
    exact ⟨committed₂, hp₂⟩

theorem Leads.places (h : s.Leads touched t) {cursor : Nat} {pos : Int} (hp : s.Places cursor pos) :
    t.Places cursor pos := by
  obtain ⟨c, hc, h0, h1⟩ := hp
  obtain ⟨c', hc', hsource, _⟩ := h.cursors cursor c hc
  exact ⟨c', hc', h0, hsource ▸ h1⟩

theorem Sound.sound_empty (limit : Int) : Sound { limit } := by
  constructor <;> simp

theorem cursorAt_eq {i : Nat} {c : Cursor} (h : s.cursors[i]? = some c) : s.cursorAt i = c := by
  rw [cursorAt, h]
  rfl

theorem Sound.exists_cursor {i : Nat} (h : s.Sound) (hi : i < s.cursors.size) :
    s.cursors[i]? = some (s.cursorAt i) ∧ (s.cursorAt i).Sound := by
  have hc : s.cursors[i]? = some s.cursors[i] := Array.getElem?_eq_getElem hi
  rw [cursorAt_eq hc]
  exact ⟨hc, h.cursors _ (Array.getElem_mem hi)⟩

theorem Sound.places_cursorAt {i : Nat} (h : s.Sound) (hi : i < s.cursors.size) :
    s.Places i (s.cursorAt i).pos := by
  obtain ⟨hc, hsound⟩ := h.exists_cursor hi
  exact ⟨_, hc, hsound.nonneg, hsound.le_size⟩

theorem Places.lt_size {cursor : Nat} {pos : Int} (h : s.Places cursor pos) :
    cursor < s.cursors.size := by
  obtain ⟨c, hc, _⟩ := h
  exact (Array.getElem?_eq_some_iff.mp hc).1

theorem Sound.places_markedPlace {mark : Mark} (h : s.Sound) (hm : s.Marks mark) :
    s.Places (s.markedPlace mark).1 (s.markedPlace mark).2 := by
  cases mark with
  | savepoint i =>
    have hp : s.savepoints[i]? = some s.savepoints[i] := Array.getElem?_eq_getElem hm
    simp only [markedPlace, savepointAt, hp, Option.getD_some]
    exact h.savepoints _ (Array.getElem_mem hm)
  | checkpoint i =>
    have hp : s.checkpoints[i]? = some s.checkpoints[i] := Array.getElem?_eq_getElem hm
    simp only [markedPlace, checkpointAt, hp, Option.getD_some]
    exact h.checkpoints _ (Array.getElem_mem hm)

theorem Sound.environment (h : s.Sound) (src : Source) : s.environment.StaysIn src := by
  intro id body hb
  cases id with
  | loose i =>
    simp only [Session.environment] at hb
    cases hr : s.rules[i]? with
    | none =>
      rw [hr] at hb
      cases hb
    | some rule =>
      rw [hr] at hb
      exact h.rules rule (Array.mem_of_getElem? hr) body hb src
  | slot i name =>
    simp only [Session.environment, Grammar.rule] at hb
    cases hg : s.grammars[i]? with
    | none =>
      rw [hg] at hb
      exact Grammar.confined_empty.body hb src
    | some g =>
      rw [hg] at hb
      exact (h.grammars g (Array.mem_of_getElem? hg)).body hb src

/-- The computation keeps the session sound and leads on from it, and its answer is as claimed. -/
def Goes {α : Type} (touched : Nat → Prop) (m : SessionM α) (s : Session) (post : α → Session → Prop) :
    Prop :=
  match m.run s with
  | .ok a t => t.Sound ∧ s.Leads touched t ∧ post a t
  | .error _ t => t.Sound ∧ s.Leads touched t

section Computations

variable {α β : Type} {m : SessionM α} {next : α → SessionM β} {post post' : α → Session → Prop}
  {post₂ : β → Session → Prop}

theorem Goes.bind (h : Goes touched m s post)
    (hnext : ∀ a t, t.Sound → s.Leads touched t → post a t → Goes touched (next a) t post₂) :
    Goes touched (m >>= next) s post₂ := by
  unfold Goes at h ⊢
  simp only [EStateM.run, Bind.bind, EStateM.bind] at h ⊢
  cases hm : m s with
  | error e t =>
    rw [hm] at h
    exact h
  | ok a t =>
    rw [hm] at h
    obtain ⟨hsound, hleads, hpost⟩ := h
    have hgo := hnext a t hsound hleads hpost
    unfold Goes at hgo
    simp only [EStateM.run] at hgo
    dsimp only
    cases hn : next a t with
    | error e u =>
      rw [hn] at hgo
      exact ⟨hgo.1, hleads.trans hgo.2⟩
    | ok b u =>
      rw [hn] at hgo
      exact ⟨hgo.1, hleads.trans hgo.2.1, hgo.2.2⟩

theorem Goes.mono (h : Goes touched m s post) (hpost : ∀ a t, post a t → post' a t) :
    Goes touched m s post' := by
  unfold Goes at h ⊢
  split at h
  · exact ⟨h.1, h.2.1, hpost _ _ h.2.2⟩
  · exact h

theorem goes_pure {a : α} (hs : s.Sound) (h : post a s) : Goes touched (pure a) s post :=
  ⟨hs, .refl s, h⟩

theorem Goes.returns (h : Goes touched m s post) (f : α → β) :
    Goes touched (m >>= fun a => pure (f a)) s fun _ _ => True :=
  h.bind fun _ _ ht _ _ => goes_pure ht trivial

theorem goes_get_bind {next : Session → SessionM β} (h : Goes touched (next s) s post₂) :
    Goes touched (get >>= next) s post₂ := h

theorem goes_raise (f : Fault) (hs : s.Sound) : Goes touched (raise f) s post := ⟨hs, .refl s⟩

theorem goes_ofExcept (x : Except Fault α) (hs : s.Sound) :
    Goes touched (ofExcept x) s fun a t => x = .ok a ∧ t = s := by
  cases x with
  | error f => exact goes_raise f hs
  | ok a => exact goes_pure hs ⟨rfl, rfl⟩

theorem goes_named (table : List (String × α)) (name : String) (hs : s.Sound) :
    Goes touched (named table name) s fun a t => table.lookup name = some a ∧ t = s := by
  unfold named
  cases ha : table.lookup name with
  | none => exact goes_raise _ hs
  | some a => exact goes_pure hs ⟨rfl, rfl⟩

theorem goes_modify {change : Session → Session} (hs : (change s).Sound)
    (hl : s.Leads touched (change s)) : Goes touched (modify change) s fun _ _ => True :=
  ⟨hs, hl, trivial⟩

theorem goes_set (ht : t.Sound) (hl : s.Leads touched t) :
    Goes touched (set t) s fun _ u => u = t := ⟨ht, hl, rfl⟩

/-- Of a session only the journal has a part in a task. -/
theorem goes_task (task : Task α) (hs : s.Sound) :
    Goes touched (Session.task task) s fun a _ => ∃ j, task.run s.journal = .ok a j := by
  apply goes_get_bind
  cases ht : task.run s.journal with
  | error e j => exact ⟨{ hs with }, .of_same rfl rfl rfl⟩
  | ok a j => exact ⟨{ hs with }, .of_same rfl rfl rfl, j, rfl⟩

end Computations

theorem leads_setCursor {i : Nat} {c c' : Cursor} (hold : s.cursors[i]? = some c)
    (hsource : c'.source = c.source) (ht : touched i) :
    s.Leads touched { s with cursors := s.cursors.setIfInBounds i c' } where
  savepoints _ _ h := h
  checkpoints _ p h := ⟨p.committed, h⟩
  cursors j d hd := by
    have hi : i < s.cursors.size := (Array.getElem?_eq_some_iff.mp hold).1
    by_cases hij : i = j
    · subst hij
      obtain rfl := Option.some.inj (hold.symm.trans hd)
      refine ⟨c', ?_, hsource, fun h => absurd ht h⟩
      simp [hi]
    · exact ⟨d, by simpa [Array.getElem?_setIfInBounds, hij] using hd, rfl, fun _ => rfl⟩

theorem goes_setCursor {i : Nat} {c c' : Cursor} (hs : s.Sound) (hold : s.cursors[i]? = some c)
    (hsource : c'.source = c.source) (hc : c'.Sound) (ht : touched i) :
    Goes touched (setCursor i c') s fun _ _ => True := by
  have hleads := leads_setCursor hold hsource ht
  refine goes_modify { hs with
    cursors := ?_
    savepoints := fun p hp => hleads.places (hs.savepoints p hp)
    checkpoints := fun p hp => hleads.places (hs.checkpoints p hp)
    cursorNames := ?_ } hleads
  · intro d hd
    rcases Array.mem_or_eq_of_mem_setIfInBounds hd with hd | rfl
    · exact hs.cursors d hd
    · exact hc
  · rw [Array.size_setIfInBounds]
    exact hs.cursorNames

theorem goes_moveCursor {i : Nat} {pos : Int} (hs : s.Sound) (hp : s.Places i pos) (ht : touched i) :
    Goes touched (moveCursor i pos) s fun _ _ => True := by
  obtain ⟨c, hc, h0, h1⟩ := hp
  have hd := (hs.cursors c (Array.mem_of_getElem? hc)).depth_eq
  apply goes_get_bind
  rw [cursorAt_eq hc]
  exact goes_setCursor hs hc rfl ⟨h0, h1, hd⟩ ht

theorem goes_rollBack {mark : Mark} (hs : s.Sound) (hm : s.Marks mark)
    (ht : touched (s.markedPlace mark).1) : Goes touched (rollBack mark) s fun _ _ => True :=
  goes_get_bind (goes_moveCursor hs (hs.places_markedPlace hm) ht)

theorem getElem?_push_of_some {α : Type} {xs : Array α} {i : Nat} {x : α} (h : xs[i]? = some x)
    (y : α) : (xs.push y)[i]? = some x := by
  obtain ⟨hi, hx⟩ := Array.getElem?_eq_some_iff.mp h
  rw [Array.getElem?_push_lt hi, hx]

theorem goes_addCursor {c : Cursor} (key : String) (hs : s.Sound) (hc : c.Sound) :
    Goes touched (addCursor key c) s fun _ _ => True := by
  have hleads : s.Leads touched { s with
      cursors := s.cursors.push c, cursorNames := (key, s.cursors.size) :: s.cursorNames } :=
    ⟨fun _ d hd => ⟨d, getElem?_push_of_some hd c, rfl, fun _ => rfl⟩, fun _ _ h => h,
      fun _ p h => ⟨p.committed, h⟩⟩
  refine goes_modify { hs with
    cursors := Array.forall_mem_push.mpr ⟨hc, hs.cursors⟩
    savepoints := fun p hp => hleads.places (hs.savepoints p hp)
    checkpoints := fun p hp => hleads.places (hs.checkpoints p hp)
    cursorNames := ?_ } hleads
  rw [Array.size_push]
  refine List.forall_mem_cons.mpr ⟨Nat.lt_succ_self _, fun entry he => ?_⟩
  exact Nat.lt_succ_of_lt (hs.cursorNames entry he)

/-- A run moves its cursor only in the source, and gives the count of running rules back. -/
theorem goes_runAt {i : Nat} {e : Expr} (hs : s.Sound) (hi : i < s.cursors.size) (he : e.Confined)
    (ht : touched i) : Goes touched (runAt i e) s fun _ _ => True := by
  obtain ⟨hc, h0, h1, hdepth⟩ := hs.exists_cursor hi
  have hbounds := (he (s.cursorAt i).source).pos_bounds (s.cursorAt i).setting
    ⟨(s.cursorAt i).pos, (s.cursorAt i).depth, s.journal.trackers, s.journal.trace⟩
    (hs.environment _) h0 h1
  have hcount := e.parser_depth s.environment (s.cursorAt i).setting
    ⟨(s.cursorAt i).pos, (s.cursorAt i).depth, s.journal.trackers, s.journal.trace⟩
  have hrun : ((s.cursorAt i).run s.environment e s.journal).2.1.Sound :=
    ⟨hbounds.1, hbounds.2, hcount.trans hdepth⟩
  have hjournal : ∀ j, Goes touched (set { s with journal := j }) s fun _ t => t = { s with journal := j } :=
    fun _ => goes_set { hs with } (.of_same rfl rfl rfl)
  apply goes_get_bind
  apply (hjournal _).bind
  intro _ t ht' _ hset
  subst hset
  have hsource : ((s.cursorAt i).run s.environment e s.journal).2.1.source = (s.cursorAt i).source := rfl
  apply (goes_setCursor ht' hc hsource hrun ht).bind
  intro _ u hu _ _
  exact (goes_ofExcept _ hu).mono fun _ _ _ => trivial

theorem Marks.mono {mark : Mark} (h : s.Marks mark) (hsavepoints : s.savepoints.size ≤ t.savepoints.size)
    (hcheckpoints : s.checkpoints.size ≤ t.checkpoints.size) : t.Marks mark := by
  cases mark with
  | savepoint i => exact Nat.lt_of_lt_of_le h hsavepoints
  | checkpoint i => exact Nat.lt_of_lt_of_le h hcheckpoints

theorem goes_addSavepoint {p : Savepoint} (key : String) (hs : s.Sound) (hp : s.Places p.cursor p.pos) :
    Goes touched (addSavepoint key p) s fun _ _ => True := by
  refine goes_modify { hs with
    savepoints := Array.forall_mem_push.mpr ⟨hp, hs.savepoints⟩
    markNames := List.forall_mem_cons.mpr ⟨?_, fun entry he => ?_⟩ } ?_
  · simp [Marks]
  · exact (hs.markNames entry he).mono (by simp) (Nat.le_refl _)
  · exact ⟨fun _ c hc => ⟨c, hc, rfl, fun _ => rfl⟩, fun _ q hq => getElem?_push_of_some hq p,
      fun _ q hq => ⟨q.committed, hq⟩⟩

theorem goes_addCheckpoint {p : Checkpoint} (key : String) (hs : s.Sound)
    (hp : s.Places p.cursor p.pos) : Goes touched (addCheckpoint key p) s fun _ _ => True := by
  refine goes_modify { hs with
    checkpoints := Array.forall_mem_push.mpr ⟨hp, hs.checkpoints⟩
    markNames := List.forall_mem_cons.mpr ⟨?_, fun entry he => ?_⟩ } ?_
  · simp [Marks]
  · exact (hs.markNames entry he).mono (Nat.le_refl _) (by simp)
  · exact ⟨fun _ c hc => ⟨c, hc, rfl, fun _ => rfl⟩, fun _ q hq => hq,
      fun _ q hq => ⟨q.committed, getElem?_push_of_some hq p⟩⟩

theorem goes_setCommitted {i : Nat} (committed : Bool) (hs : s.Sound) (hi : i < s.checkpoints.size) :
    Goes touched (setCommitted i committed) s fun _ _ => True := by
  have hold : s.checkpoints[i]? = some s.checkpoints[i] := Array.getElem?_eq_getElem hi
  have hat : s.checkpointAt i = s.checkpoints[i] := by
    rw [checkpointAt, hold]
    rfl
  refine goes_modify { hs with
    checkpoints := ?_
    markNames := fun entry he => ?_ } ⟨fun _ c hc => ⟨c, hc, rfl, fun _ => rfl⟩, fun _ _ hq => hq, ?_⟩
  · intro q hq
    rcases Array.mem_or_eq_of_mem_setIfInBounds hq with hq | rfl
    · exact hs.checkpoints q hq
    · have hplace := hs.checkpoints _ (Array.getElem_mem hi)
      rw [hat]
      exact hplace
  · exact (hs.markNames entry he).mono (Nat.le_refl _) (by simp)
  · intro j q hq
    by_cases hij : i = j
    · subst hij
      obtain rfl := Option.some.inj (hold.symm.trans hq)
      exact ⟨committed, by rw [hat, Array.getElem?_setIfInBounds_self_of_lt hi]⟩
    · exact ⟨q.committed, by rwa [Array.getElem?_setIfInBounds_ne hij]⟩

end Session

end PegMatcher
