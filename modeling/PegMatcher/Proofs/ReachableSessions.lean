import PegMatcher.Proofs.SoundBuilding

/-!
# Reachable sessions

Commands stay in the source if they assign no positions and the parsers that they bring move the cursor by
its operations. Every such command keeps a session sound, touches no cursor but the one that it is given
to, or to whose mark it is given, and leaves all marks where they are.
-/

namespace PegMatcher

set_option autoImplicit false

def CursorCommand.Stays : CursorCommand → Prop
  | .moveTo _ => False
  | .call parser => parser.Stays
  | _ => True

def GrammarCommand.Stays : GrammarCommand → Prop
  | .replace pairs => ∀ pair ∈ pairs, pair.2.Stays
  | .define _ body => body.Stays
  | .assign _ body => body.Stays
  | _ => True

namespace Command

def Stays : Command → Prop
  | .matchAt parser _ _ => parser.Stays
  | .matchesWhole parser _ => parser.Stays
  | .parse parser _ _ => parser.Stays
  | .onCursor _ command => command.Stays
  | .store _ parser => parser.Stays
  | .defineRule _ body => body.Stays
  | .onGrammar _ command => command.Stays
  | _ => True

/-- The cursor that a command is given to, or to whose mark it is given. -/
def target? (s : Session) : Command → Option Nat
  | .onCursor name _ => s.cursorNames.lookup name
  | .onMark name _ => (s.markNames.lookup name).map fun mark => (s.markedPlace mark).1
  | _ => none

end Command

namespace Session

variable {touched : Nat → Prop} {s t : Session}

theorem Leads.lt_size {i : Nat} (h : s.Leads touched t) (hi : i < s.cursors.size) :
    i < t.cursors.size := by
  obtain ⟨c, hc, _⟩ := h.cursors i _ (Array.getElem?_eq_getElem hi)
  exact (Array.getElem?_eq_some_iff.mp hc).1

theorem goes_performOnCursor {i : Nat} (hs : s.Sound) (hi : i < s.cursors.size) (ht : touched i) :
    ∀ command : CursorCommand, command.Stays →
      Goes touched (performOnCursor i command) s fun _ _ => True := by
  obtain ⟨hc, hsound⟩ := hs.exists_cursor hi
  have hplace := hs.places_cursorAt hi
  intro command hstays
  cases command with
  | peek | index v | stride start stop step => exact goes_get_bind ((goes_ofExcept _ hs).returns _)
  | rest | isAtEnd | hasMore | size | describe => exact goes_get_bind (goes_pure hs trivial)
  | advance =>
    apply goes_get_bind
    apply (goes_ofExcept _ hs).bind
    intro c u hu _ hadvance
    obtain ⟨hadvance, rfl⟩ := hadvance
    obtain ⟨hsound', hsource⟩ := hsound.advance hadvance
    exact (goes_setCursor hu hc hsource hsound' ht).returns _
  | moveTo pos => exact hstays.elim
  | save key => exact goes_get_bind ((goes_addSavepoint key hs hplace).returns _)
  | restore mark =>
    apply goes_get_bind
    apply (goes_named _ mark hs).bind
    intro m u hu _ hm
    obtain ⟨hm, rfl⟩ := hm
    have hmarked := hs.places_markedPlace (hs.markNames _ (mem_of_lookup hm))
    dsimp only
    split
    · rename_i heq
      rw [heq] at hmarked
      exact (goes_moveCursor hs hmarked ht).returns _
    · exact goes_raise _ hs
  | checkpoint key => exact goes_get_bind ((goes_addCheckpoint key hs hplace).returns _)
  | call parser =>
    apply (goes_build parser hs hstays).bind
    intro p t₁ h₁ hleads₁ hp
    apply (goes_ofExcept _ h₁).bind
    intro e t₂ h₂ hleads₂ he
    have hi₂ := hleads₂.lt_size (hleads₁.lt_size hi)
    exact (goes_runAt h₂ hi₂ (hp.convert he.1) ht).returns _

theorem goes_performOnCheckpoint {i : Nat} (hs : s.Sound) (hi : i < s.checkpoints.size)
    (ht : touched (s.checkpointAt i).cursor) (command : CheckpointCommand) :
    Goes touched (performOnCheckpoint i command) s fun _ _ => True := by
  have hm : s.Marks (.checkpoint i) := hi
  have hback : Goes touched (rollBack (.checkpoint i)) s fun _ _ => True := goes_rollBack hs hm ht
  cases command with
  | commit | uncommit | succeed | fail => exact (goes_setCommitted _ hs hi).returns _
  | rollBackUncommitted | leave faulted =>
    apply goes_get_bind
    split
    · exact hback.returns _
    · exact goes_pure hs trivial
  | isCommitted => exact goes_get_bind (goes_pure hs trivial)
  | enter => exact goes_pure hs trivial
  | sub key =>
    have hcursor : (s.checkpointAt i).cursor < s.cursors.size := (hs.places_markedPlace hm).lt_size
    apply goes_get_bind
    exact (goes_addCheckpoint key hs (hs.places_cursorAt hcursor)).returns _

theorem goes_performOnMark {mark : Mark} (hs : s.Sound) (hm : s.Marks mark)
    (ht : touched (s.markedPlace mark).1) (command : MarkCommand) :
    Goes touched (performOnMark mark command) s fun _ _ => True := by
  have hback : Goes touched (rollBack mark) s fun _ _ => True := goes_rollBack hs hm ht
  cases command with
  | range | slice => exact goes_get_bind (goes_pure hs trivial)
  | rollBack | rollBackInline v => exact hback.returns _
  | guard v =>
    rw [performOnMark]
    split
    · exact hback.returns _
    · exact goes_pure hs trivial
  | onCheckpoint command =>
    cases mark with
    | savepoint i => exact goes_raise _ hs
    | checkpoint i => exact goes_performOnCheckpoint hs hm ht command

theorem goes_buildPairs : ∀ (pairs : List (String × Blueprint)) {s : Session}, s.Sound →
    (∀ pair ∈ pairs, pair.2.Stays) →
    Goes touched (buildPairs pairs) s fun built _ => ∀ pair ∈ built, pair.2.Confined
  | [], s, hs, _ => goes_pure hs nofun
  | (name, body) :: rest, s, hs, h => by
    rw [List.forall_mem_cons] at h
    unfold buildPairs
    apply (goes_build body hs h.1).bind
    intro p t ht _ hp
    apply (goes_buildPairs rest ht h.2).bind
    intro ps u hu _ hps
    exact goes_pure hu (List.forall_mem_cons.mpr ⟨hp, hps⟩)

theorem goes_definePairs : ∀ (pairs : List (String × Operand)) {g : Grammar} {s : Session}, s.Sound →
    g.Confined → (∀ pair ∈ pairs, pair.2.Confined) →
    Goes touched (definePairs g pairs) s fun g' _ => g'.Confined
  | [], g, s, hs, hg, _ => goes_pure hs hg
  | (name, body) :: rest, g, s, hs, hg, h => by
    rw [List.forall_mem_cons] at h
    unfold definePairs
    apply (goes_ofExcept _ hs).bind
    intro _ t ht _ _
    apply (goes_note _ ht).bind
    intro _ u hu _ _
    exact goes_definePairs rest hu (hg.define name h.1) h.2

theorem goes_performOnGrammar (key : String) (hs : s.Sound) : ∀ command : GrammarCommand,
    command.Stays → Goes touched (performOnGrammar key command) s fun _ _ => True := by
  intro command hstays
  have hindex : Goes touched (grammarIndex key) s fun _ _ => True := goes_grammarIndex key hs
  cases command with
  | replace pairs =>
    apply (goes_buildPairs pairs hs hstays).bind
    intro ps t ht _ hps
    apply (goes_definePairs ps ht Grammar.confined_empty hps).bind
    intro g u hu _ hg
    exact Goes.returns (goes_modify (hu.pushGrammar hg _) (.of_same rfl rfl rfl)) _
  | define name body =>
    apply hindex.bind
    intro index t ht _ _
    apply (goes_build body ht hstays).bind
    intro p u hu _ hp
    apply (goes_defineSlot index name hu hp).bind
    intro _ v hv _ _
    exact goes_get_bind (goes_pure hv trivial)
  | assign name body =>
    apply hindex.bind
    intro index t ht _ _
    apply (goes_build body ht hstays).bind
    intro p u hu _ hp
    exact (goes_defineSlot index name hu hp).returns _
  | mention name =>
    apply hindex.bind
    intro index t ht _ _
    apply (goes_mentionSlot index name ht).bind
    intro _ u hu _ _
    exact goes_get_bind (goes_pure hu trivial)
  | same a b =>
    apply hindex.bind
    intro index t ht _ _
    apply (goes_mentionSlot index a ht).bind
    intro _ u hu _ _
    exact (goes_mentionSlot index b hu).returns _
  | contains v =>
    apply hindex.bind
    intro index t ht _ _
    apply goes_get_bind
    dsimp only
    split <;> exact goes_pure ht trivial
  | list => exact hindex.bind fun index t ht _ _ => goes_get_bind (goes_pure ht trivial)
  | matchAt name input pos maxDepth =>
    apply hindex.bind
    intro index t ht _ _
    apply goes_get_bind
    exact (goes_task _ ht).returns _

theorem goes_modifyTracker (name : String) (change : Tracker → Tracker) (hs : s.Sound) :
    Goes touched (modifyTracker name change) s fun _ _ => True :=
  goes_modify { hs with } (.of_same rfl rfl rfl)

theorem goes_keepReport (key : Option String) (m : Mismatch) (hs : s.Sound) :
    Goes touched (keepReport key m) s fun _ _ => True := by
  unfold keepReport
  split
  · exact Goes.returns (goes_modify { hs with } (.of_same rfl rfl rfl)) _
  · exact goes_pure hs trivial

theorem goes_performOnTracker (name : String) (hs : s.Sound) : ∀ command : TrackerCommand,
    Goes touched (performOnTracker name command) s fun _ _ => True
  | .record _ _ => (goes_modifyTracker name _ hs).bind fun _ _ ht _ _ =>
    goes_get_bind (goes_pure ht trivial)
  | .reset => (goes_modifyTracker name _ hs).bind fun _ _ ht _ _ =>
    goes_get_bind (goes_pure ht trivial)
  | .show => goes_get_bind (goes_pure hs trivial)
  | .report _ key => goes_get_bind ((goes_ofExcept _ hs).bind fun _ _ ht _ _ =>
    goes_keepReport key _ ht)

theorem goes_perform (command : Command) (hs : s.Sound) (hstays : command.Stays) :
    Goes (fun i => command.target? s = some i) (perform command) s fun _ _ => True := by
  cases command with
  | matchAt parser _ _ | matchesWhole parser _ | parse parser _ _ =>
    apply (goes_build parser hs hstays).bind
    intro p t ht _ _
    apply goes_get_bind
    exact (goes_task _ ht).returns _
  | clampDepth requested reserve => exact goes_get_bind ((goes_task _ hs).returns _)
  | cursor key input pos maxDepth =>
    apply goes_get_bind
    apply (goes_task _ hs).bind
    intro c t ht _ hplace
    obtain ⟨j, hplace⟩ := hplace
    obtain ⟨notice?, hstart⟩ := Cursor.exists_start_of_place hplace
    exact (goes_addCursor key ht (Cursor.sound_of_start hstart)).returns _
  | onCursor name command =>
    apply goes_get_bind
    apply (goes_named _ name hs).bind
    intro i t ht _ hi
    obtain ⟨hi, rfl⟩ := hi
    exact goes_performOnCursor hs (hs.cursorNames _ (mem_of_lookup hi)) hi command hstays
  | onMark name command =>
    apply goes_get_bind
    apply (goes_named _ name hs).bind
    intro mark t ht _ hm
    obtain ⟨hm, rfl⟩ := hm
    have htarget : (Command.onMark name command).target? t = some (t.markedPlace mark).1 := by
      rw [Command.target?, hm]
      rfl
    exact goes_performOnMark hs (hs.markNames _ (mem_of_lookup hm)) htarget command
  | store key parser =>
    apply (goes_build parser hs hstays).bind
    intro p t ht _ hp
    apply (goes_ofExcept _ ht).bind
    intro e u hu _ he
    have hparsers : ∀ entry ∈ (key, e) :: u.parsers, entry.2.Confined :=
      List.forall_mem_cons.mpr ⟨hp.convert he.1, hu.parsers⟩
    exact Goes.returns (goes_modify { hu with parsers := hparsers } (.of_same rfl rfl rfl)) _
  | addRule key name => exact (goes_addRule key name hs).returns _
  | defineRule name body =>
    apply (goes_ruleIndex name hs).bind
    intro index t ht _ _
    apply (goes_build body ht hstays).bind
    intro p u hu _ hp
    exact (goes_defineRule index hu hp).returns _
  | isDefined rule | describeRule rule =>
    apply (goes_ruleIndex rule hs).bind
    intro index t ht _ _
    exact goes_get_bind (goes_pure ht trivial)
  | onGrammar name command => exact goes_performOnGrammar name hs command hstays
  | onTracker name command => exact goes_performOnTracker name hs command
  | report subject pos message expected key =>
    apply (goes_ofExcept _ hs).bind
    intro subject t ht _ _
    exact goes_keepReport key _ ht
  | addNote key pos message =>
    apply goes_get_bind
    apply (goes_named _ key hs).bind
    intro m t ht _ _
    exact goes_keepReport _ _ ht

/-- The session behind a command, whether it answers or fails. -/
def step (s : Session) (command : Command) : Session :=
  match (perform command).run s with
  | .ok _ t => t
  | .error _ t => t

def after (s : Session) (commands : List Command) : Session := commands.foldl step s

theorem Sound.step {command : Command} (hs : s.Sound) (hstays : command.Stays) :
    (s.step command).Sound ∧ s.Leads (fun i => command.target? s = some i) (s.step command) := by
  have h := goes_perform command hs hstays
  unfold Goes at h
  unfold Session.step
  cases hrun : (perform command).run s with
  | error failure t =>
    rw [hrun] at h
    exact h
  | ok answer t =>
    rw [hrun] at h
    exact ⟨h.1, h.2.1⟩

theorem Leads.mono {touched' : Nat → Prop} (h : s.Leads touched t)
    (htouched : ∀ i, touched i → touched' i) : s.Leads touched' t where
  savepoints := h.savepoints
  checkpoints := h.checkpoints
  cursors i c hc := by
    obtain ⟨c', hc', hsource, hsame⟩ := h.cursors i c hc
    exact ⟨c', hc', hsource, fun hi => hsame fun ht => hi (htouched i ht)⟩

theorem Sound.after {commands : List Command} (hs : s.Sound) (h : ∀ command ∈ commands, command.Stays) :
    (s.after commands).Sound ∧ s.Leads (fun _ => True) (s.after commands) := by
  induction commands generalizing s with
  | nil => exact ⟨hs, .refl s⟩
  | cons command commands ih =>
    rw [List.forall_mem_cons] at h
    obtain ⟨hsound, hleads⟩ := hs.step h.1
    obtain ⟨hsound', hleads'⟩ := ih hsound h.2
    exact ⟨hsound', (hleads.mono fun _ _ => trivial).trans hleads'⟩

/-- A mark of another cursor is refused before anything is done. -/
theorem run_restore_foreign {name key : String} {i : Nat} {mark : Mark}
    (hi : s.cursorNames.lookup name = some i) (hm : s.markNames.lookup key = some mark)
    (hforeign : (s.markedPlace mark).1 ≠ i) :
    (perform (.onCursor name (.restore key))).run s = .error (.fault .foreignSavepoint) s := by
  have hname : named s.cursorNames name = pure i := by rw [named, hi]
  have hkey : named s.markNames key = pure mark := by rw [named, hm]
  have hcommand : (perform (.onCursor name (.restore key))).run s =
      (named s.cursorNames name >>= fun j => performOnCursor j (.restore key)).run s := rfl
  have hrestore : (performOnCursor i (.restore key)).run s =
      (named s.markNames key >>= fun m =>
        if (s.markedPlace m).1 = i then do
          moveCursor i (s.markedPlace m).2
          return .nothing
        else raise .foreignSavepoint : SessionM Answer).run s := rfl
  rw [hcommand, hname, pure_bind, hrestore, hkey, pure_bind, if_neg hforeign]
  rfl

/-- Whatever is done in whatever order, cursors and marks are at places in their sources, a step moves no cursor
but its own, and a mark of another cursor is refused with nothing changed. -/
theorem reachable_invariant (limit : Int) (commands further : List Command)
    (hcommands : ∀ command ∈ commands, command.Stays)
    (hfurther : ∀ command ∈ further, command.Stays) :
    let s := after { limit } commands
    let t := s.after further
    (∀ c ∈ s.cursors, 0 ≤ c.pos ∧ c.pos ≤ c.source.size ∧ c.depth = 0) ∧
    (∀ (i : Nat) (p : Savepoint), s.savepoints[i]? = some p →
      s.Places p.cursor p.pos ∧ t.savepoints[i]? = some p) ∧
    (∀ (i : Nat) (p : Checkpoint), s.checkpoints[i]? = some p →
      s.Places p.cursor p.pos ∧ ∃ committed, t.checkpoints[i]? = some { p with committed }) ∧
    (∀ command : Command, command.Stays → ∀ (i : Nat) (c : Cursor), s.cursors[i]? = some c →
      command.target? s ≠ some i → (s.step command).cursors[i]? = some c) ∧
    (∀ name key i mark, s.cursorNames.lookup name = some i → s.markNames.lookup key = some mark →
      (s.markedPlace mark).1 ≠ i →
      (perform (.onCursor name (.restore key))).run s = .error (.fault .foreignSavepoint) s) := by
  intro s t
  have hs : s.Sound := ((Sound.sound_empty limit).after hcommands).1
  have hleads : s.Leads (fun _ => True) t := (hs.after hfurther).2
  refine ⟨?cursors, ?savepoints, ?checkpoints, ?others, ?foreign⟩
  case cursors =>
    intro c hc
    have hsound := hs.cursors c hc
    exact ⟨hsound.nonneg, hsound.le_size, hsound.depth_eq⟩
  case savepoints =>
    intro i p hp
    exact ⟨hs.savepoints p (Array.mem_of_getElem? hp), hleads.savepoints i p hp⟩
  case checkpoints =>
    intro i p hp
    exact ⟨hs.checkpoints p (Array.mem_of_getElem? hp), hleads.checkpoints i p hp⟩
  case others =>
    intro command hstays i c hc hother
    obtain ⟨c', hc', _, hsame⟩ := (hs.step hstays).2.cursors i c hc
    rwa [hsame hother] at hc'
  case foreign =>
    intro name key i mark hi hm hforeign
    exact run_restore_foreign hi hm hforeign

/-- Two cursors, a mark on the first, and a scanner that runs on to the end and fails there. -/
def twoCursors : List Command :=
  [.cursor "a" (.value (.text ['x', 'y', 'z'])) 0 defaultMaxDepth,
    .cursor "b" (.value (.text ['p', 'q'])) 1 defaultMaxDepth,
    .onCursor "a" .advance,
    .onCursor "a" (.save "m"),
    .onCursor "a" (.call (.ready (.scanner .drain)))]

theorem reachable_invariant_two_cursors :
    (∀ command ∈ twoCursors, command.Stays) ∧
    (∀ command ∈ [Command.onMark "m" .rollBack], command.Stays) ∧
    (after {} twoCursors).Places 0 1 ∧
    ((after {} twoCursors).after [.onMark "m" .rollBack]).savepoints[0]? = some ⟨0, 1⟩ ∧
    ((after {} twoCursors).step (.onMark "m" .rollBack)).cursors[1]? = (after {} twoCursors).cursors[1]? ∧
    (perform (.onCursor "b" (.restore "m"))).run (after {} twoCursors) =
      .error (.fault .foreignSavepoint) (after {} twoCursors) := by
  have hdrain : (Expr.scanner .drain).Operated := Scanner.Provided.drain.operated
  have hcommands : ∀ command ∈ twoCursors, command.Stays := by
    simp [twoCursors, Command.Stays, CursorCommand.Stays, Blueprint.Stays, hdrain]
  have hfurther : ∀ command ∈ [Command.onMark "m" .rollBack], command.Stays := by
    simp [Command.Stays]
  obtain ⟨_, hmarks, _, hothers, hforeign⟩ :=
    reachable_invariant 1000 twoCursors [.onMark "m" .rollBack] hcommands hfurther
  have hmark := hmarks 0 ⟨0, 1⟩ rfl
  have hother := hothers (.onMark "m" .rollBack) trivial 1 _ rfl (by decide)
  have hrefused := hforeign "b" "m" 1 (.savepoint 0) rfl rfl (by decide)
  exact ⟨hcommands, hfurther, hmark.1, hmark.2, hother, hrefused⟩

end Session

end PegMatcher
