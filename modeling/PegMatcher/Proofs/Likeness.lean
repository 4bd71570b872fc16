import Mathlib.Data.List.Forall2
import PegMatcher.Expr
import PegMatcher.Proofs.Repetition

/-!
# Two runs side by side

A `Likeness` says what two runs have to have in common, and which faults of the left run end the comparison.
The right run may be a fixed way further on. Every operator turns parsers that are alike into parsers that are
alike, whatever these parsers do; a rule is alike where its body is, compared `Inside` it.
-/

namespace PegMatcher

set_option autoImplicit false

theorem Value.truthy_congr {v w : Value} (h : v = w) : v.truthy = w.truthy := by rw [h]

structure Likeness where
  left : Setting
  right : Setting
  /-- How much further on the right run is. -/
  shift : Int
  /-- The positions of the left run at which the two are compared. -/
  place : Int → Prop
  states : State → State → Prop
  values : Value → Value → Prop
  /-- Faults of the left run behind which nothing is compared. -/
  excused : Fault → Prop
  pos_eq : ∀ {s t}, states s t → t.pos = s.pos + shift
  place_pos : ∀ {s t}, states s t → place s.pos
  moveTo : ∀ {s t pos}, place pos → states s t → states (s.moveTo pos) (t.moveTo (pos + shift))
  record : ∀ {s t} tracker label, states s t →
    states (s.record tracker label) (t.record tracker label)
  observe : ∀ {s t a b} tag start stop, Option.Rel values a b → states s t →
    states (s.observe ⟨tag, start, a, stop⟩) (t.observe ⟨tag, start + shift, b, stop + shift⟩)
  refl : ∀ v, values v v
  truthy_eq : ∀ {v w}, values v w → v.truthy = w.truthy

namespace Likeness

variable {L : Likeness}

theorem back (L : Likeness) {s t s' t' : State} (h : L.states s t) (h' : L.states s' t') :
    L.states (s'.moveTo s.pos) (t'.moveTo t.pos) := by
  rw [L.pos_eq h]
  exact L.moveTo (L.place_pos h) h'

theorem stayed_iff (L : Likeness) {s t s' t' : State} (h : L.states s t) (h' : L.states s' t') :
    t'.pos = t.pos ↔ s'.pos = s.pos := by
  rw [L.pos_eq h, L.pos_eq h']
  omega

inductive Replies (L : Likeness) : Reply → Reply → Prop where
  | returned {v w : Value} {s t : State} : L.values v w → L.states s t →
      L.Replies (.returned v s) (.returned w t)
  | raised {f : Fault} {s t : State} : L.states s t → L.Replies (.raised f s) (.raised f t)
  | excused {f : Fault} {s : State} {r : Reply} : L.excused f → L.Replies (.raised f s) r

/-- Started alike, the two parsers reply alike. -/
def Alike (L : Likeness) (p q : Parser) : Prop :=
  ∀ s t, L.states s t → L.Replies (p L.left s) (q L.right t)

theorem Replies.of_returned {v : Value} {s : State} {r : Reply} (h : L.Replies (.returned v s) r) :
    ∃ w t, r = .returned w t ∧ L.values v w ∧ L.states s t := by
  cases h with
  | returned hv hs => exact ⟨_, _, rfl, hv, hs⟩

theorem Replies.of_raised {f : Fault} {s : State} {r : Reply} (h : L.Replies (.raised f s) r) :
    L.excused f ∨ ∃ t, r = .raised f t ∧ L.states s t := by
  cases h with
  | raised hs => exact .inr ⟨_, rfl, hs⟩
  | excused hf => exact .inl hf

theorem Replies.states {r r' : Reply} (h : L.Replies r r') (hexcused : ∀ f, ¬ L.excused f) :
    L.states r.state r'.state := by
  cases h with
  | returned _ hs => exact hs
  | raised hs => exact hs
  | excused hf => exact absurd hf (hexcused _)

theorem Replies.andThen {a b : Reply} {k l : Value → State → Reply}
    (next : ∀ {v w s t}, L.values v w → L.states s t → L.Replies (k v s) (l w t)) :
    L.Replies a b → L.Replies
      (match a with | .returned v s => k v s | .raised f s => .raised f s)
      (match b with | .returned w t => l w t | .raised f t => .raised f t) := by
  intro h
  cases h with
  | returned hv hs => exact next hv hs
  | raised hs => exact .raised hs
  | excused hf => exact .excused hf

theorem alike_primitive {m : Primitive}
    (hscan : ∀ pos, L.place pos → m.scan L.right.source (pos + L.shift) =
      (m.scan L.left.source pos).map (Option.map (· + L.shift)))
    (hplace : ∀ pos next, L.place pos → m.scan L.left.source pos = .ok (some next) → L.place next) :
    L.Alike (.ofPrimitive m) (.ofPrimitive m) := by
  intro s t h
  have hpos := L.place_pos h
  simp only [Parser.ofPrimitive, L.pos_eq h, hscan _ hpos]
  cases hm : m.scan L.left.source s.pos with
  | error f => exact .raised h
  | ok found =>
    cases found with
    | none => exact .returned (L.refl _) h
    | some next => exact .returned (L.refl _) (L.moveTo (hplace _ _ hpos hm) h)

theorem alike_fault (f : Fault) : L.Alike (.fault f) (.fault f) := fun _ _ h => .raised h

section Operators

variable {p q : Parser} {ps qs : List Parser}

theorem Alike.guarded (hp : L.Alike p q) : L.Alike (.guarded p) (.guarded q) := by
  intro s t h
  refine .andThen (fun {v w s' t'} hv hs => ?_) (hp s t h)
  rw [L.truthy_eq hv]
  split
  · exact .returned hv hs
  · exact .returned hv (L.back h hs)

theorem alike_all (h : List.Forall₂ L.Alike ps qs) : L.Alike (.all ps) (.all qs) := by
  induction h with
  | nil => exact fun _ _ hs => .returned (L.refl _) hs
  | cons hp _ ih =>
    intro s t h
    refine .andThen (fun {v w s' t'} hv hs => ?_) (hp s t h)
    rw [L.truthy_eq hv]
    split
    · exact ih s' t' hs
    · exact .returned (L.refl _) hs

theorem alike_seq (h : List.Forall₂ L.Alike ps qs) : L.Alike (.seq ps) (.seq qs) :=
  (alike_all h).guarded

theorem alike_choice (h : List.Forall₂ L.Alike ps qs) : L.Alike (.choice ps) (.choice qs) := by
  induction h with
  | nil => exact fun _ _ hs => .returned (L.refl _) hs
  | cons hp _ ih =>
    intro s t h
    refine .andThen (fun {v w s' t'} hv hs => ?_) (hp s t h)
    rw [L.truthy_eq hv]
    split
    · exact .returned (L.refl _) hs
    · exact ih s' t' hs

/-- A repetition that ends on the left ends alike on the right, unless its fault is excused. -/
theorem Alike.rounds (hp : L.Alike p q) {s : State} {n : Nat} {r : Reply}
    (hr : Parser.Rounds p L.left s n r) : ∀ t, L.states s t →
      (∃ f s', r = .raised f s' ∧ L.excused f) ∨
        ∃ r', Parser.repeated q L.right t = some r' ∧ L.Replies r r' := by
  induction hr with
  | @failed s s' v run hv =>
    intro t h
    obtain ⟨w, t', run', hvw, hs⟩ := (run ▸ hp s t h).of_returned
    rw [L.truthy_eq hvw] at hv
    exact .inr ⟨_, (Parser.Rounds.failed run' hv).repeated_eq, .returned (L.refl _) hs⟩
  | @stayed s s' v run hv he =>
    intro t h
    obtain ⟨w, t', run', hvw, hs⟩ := (run ▸ hp s t h).of_returned
    rw [L.truthy_eq hvw] at hv
    rw [← L.stayed_iff h hs] at he
    exact .inr ⟨_, (Parser.Rounds.stayed run' hv he).repeated_eq, .returned (L.refl _) hs⟩
  | @raised s s' f run =>
    intro t h
    rcases (run ▸ hp s t h).of_raised with hf | ⟨t', run', hs⟩
    · exact .inl ⟨f, s', rfl, hf⟩
    · exact .inr ⟨_, (Parser.Rounds.raised run').repeated_eq, .raised hs⟩
  | @again s s' v n r run hv hne _ ih =>
    intro t h
    obtain ⟨w, t', run', hvw, hs⟩ := (run ▸ hp s t h).of_returned
    rw [L.truthy_eq hvw] at hv
    rw [ne_eq, ← L.stayed_iff h hs] at hne
    rw [Parser.repeated_of_moved run' hv hne]
    exact ih t' hs

theorem Alike.left_of_returned (hp : L.Alike p q) {s t t' : State} {w : Value}
    (h : L.states s t) (run : q L.right t = .returned w t') :
    (∃ f s', p L.left s = .raised f s') ∨
      ∃ v s', p L.left s = .returned v s' ∧ L.values v w ∧ L.states s' t' := by
  have hr := hp s t h
  rw [run] at hr
  generalize p L.left s = a at hr ⊢
  cases hr with
  | returned hv hs => exact .inr ⟨_, _, rfl, hv, hs⟩
  | excused _ => exact .inl ⟨_, _, rfl⟩

theorem Alike.rounds_left (hp : L.Alike p q) {t : State} {n : Nat} {r : Reply}
    (hr : Parser.Rounds q L.right t n r) : ∀ s, L.states s t →
      ∃ r', Parser.repeated p L.left s = some r' := by
  induction hr with
  | @failed t t' w run hw =>
    intro s h
    rcases hp.left_of_returned h run with ⟨f, s', run'⟩ | ⟨v, s', run', hvw, _⟩
    · exact ⟨_, (Parser.Rounds.raised run').repeated_eq⟩
    · rw [← L.truthy_eq hvw] at hw
      exact ⟨_, (Parser.Rounds.failed run' hw).repeated_eq⟩
  | @stayed t t' w run hw he =>
    intro s h
    rcases hp.left_of_returned h run with ⟨f, s', run'⟩ | ⟨v, s', run', hvw, hs⟩
    · exact ⟨_, (Parser.Rounds.raised run').repeated_eq⟩
    · rw [← L.truthy_eq hvw] at hw
      rw [L.stayed_iff h hs] at he
      exact ⟨_, (Parser.Rounds.stayed run' hw he).repeated_eq⟩
  | @raised t t' f run =>
    intro s h
    cases run' : p L.left s with
    | raised g s' => exact ⟨_, (Parser.Rounds.raised run').repeated_eq⟩
    | returned v s' =>
      obtain ⟨w, t'', heq, _⟩ := (run' ▸ hp s t h).of_returned
      cases run.symm.trans heq
  | @again t t' w n r run hw hne _ ih =>
    intro s h
    rcases hp.left_of_returned h run with ⟨f, s', run'⟩ | ⟨v, s', run', hvw, hs⟩
    · exact ⟨_, (Parser.Rounds.raised run').repeated_eq⟩
    · rw [← L.truthy_eq hvw] at hw
      rw [ne_eq, L.stayed_iff h hs] at hne
      rw [Parser.repeated_of_moved run' hw hne]
      exact ih s' hs

theorem Alike.star (hp : L.Alike p q) : L.Alike (.star p) (.star q) := by
  intro s t h
  cases hl : Parser.repeated p L.left s with
  | some r =>
    rw [Parser.star_of_repeated hl]
    obtain ⟨n, hr⟩ := Parser.exists_rounds hl
    rcases hp.rounds hr t h with ⟨f, s', rfl, hf⟩ | ⟨r', hq, hrr⟩
    · exact .excused hf
    · rwa [Parser.star_of_repeated hq]
  | none =>
    cases hr : Parser.repeated q L.right t with
    | none =>
      rw [Parser.star_of_endless hl, Parser.star_of_endless hr]
      exact .raised h
    | some r =>
      obtain ⟨n, hn⟩ := Parser.exists_rounds hr
      obtain ⟨r', hr'⟩ := hp.rounds_left hn s h
      rw [hl] at hr'
      cases hr'

theorem Alike.plus (hp : L.Alike p q) : L.Alike (.plus p) (.plus q) := by
  intro s t h
  refine .andThen (fun {v w s' t'} hv hs => ?_) (hp s t h)
  rw [L.truthy_eq hv]
  simp only [L.stayed_iff h hs]
  split
  · split
    · exact .returned (L.refl _) hs
    · exact .andThen (fun _ hs => .returned (L.refl _) hs) (hp.star s' t' hs)
  · exact .returned (L.refl _) hs

theorem Alike.opt (hp : L.Alike p q) : L.Alike (.opt p) (.opt q) := fun s t h =>
  .andThen (fun _ hs => .returned (L.refl _) hs) (hp s t h)

theorem Alike.ahead (hp : L.Alike p q) : L.Alike (.ahead p) (.ahead q) := by
  intro s t h
  refine .andThen (fun {v w s' t'} hv hs => ?_) (hp s t h)
  rw [L.truthy_eq hv]
  exact .returned (L.refl _) (L.back h hs)

theorem Alike.notAhead (hp : L.Alike p q) : L.Alike (.notAhead p) (.notAhead q) := by
  intro s t h
  refine .andThen (fun {v w s' t'} hv hs => ?_) (hp s t h)
  rw [L.truthy_eq hv]
  exact .returned (L.refl _) (L.back h hs)

theorem Alike.expect (tracker label : String) (hp : L.Alike p q) :
    L.Alike (.expect tracker label p) (.expect tracker label q) := by
  intro s t h
  refine .andThen (fun {v w s' t'} hv hs => ?_) (hp s t h)
  rw [L.truthy_eq hv]
  split
  · exact .returned (L.refl _) hs
  · exact .returned (L.refl _) (L.record _ _ hs)

theorem Alike.traced (tag : Value) (hp : L.Alike p q) :
    L.Alike (.traced tag p) (.traced tag q) := by
  intro s t h
  have hr := hp s t h
  simp only [Parser.traced]
  generalize p L.left s = a at hr ⊢
  generalize q L.right t = b at hr ⊢
  cases hr with
  | returned hv hs =>
    dsimp only
    rw [L.pos_eq h, L.pos_eq hs]
    exact .returned hv (L.observe _ _ _ (.some hv) hs)
  | raised hs =>
    dsimp only
    rw [L.pos_eq h, L.pos_eq hs]
    exact .raised (L.observe _ _ _ .none hs)
  | excused hf => exact .excused hf

end Operators

/-- Both runs see one source, at the same positions, wherever they are. -/
structure Whole (L : Likeness) : Prop where
  source_eq : L.left.source = L.right.source
  shift_eq : L.shift = 0
  place : ∀ pos, L.place pos

theorem Whole.pos_eq (hw : L.Whole) {s t : State} (h : L.states s t) : s.pos = t.pos := by
  have hpos := L.pos_eq h
  rw [hw.shift_eq] at hpos
  omega

theorem Whole.moveTo (hw : L.Whole) {s t : State} (pos : Int) (h : L.states s t) :
    L.states (s.moveTo pos) (t.moveTo pos) := by
  have hmoved := L.moveTo (hw.place pos) h
  rwa [hw.shift_eq, Int.add_zero] at hmoved

theorem Whole.primitive (hw : L.Whole) (m : Primitive) :
    L.Alike (.ofPrimitive m) (.ofPrimitive m) := by
  refine alike_primitive (fun pos _ => ?_) fun _ next _ _ => hw.place next
  rw [hw.shift_eq, hw.source_eq, Int.add_zero]
  cases m.scan L.right.source pos with
  | error f => rfl
  | ok found => simp [Except.map]

inductive Flows (L : Likeness) : Flow → Flow → Prop where
  | done {frame : Frame} {s t : State} : L.states s t → L.Flows (.done frame s) (.done frame t)
  | left {v w : Value} {frame : Frame} {s t : State} : L.values v w → L.states s t →
      L.Flows (.left v frame s) (.left w frame t)
  | raised {f : Fault} {s t : State} : L.states s t → L.Flows (.raised f s) (.raised f t)
  | excused {f : Fault} {s : State} {flow : Flow} : L.excused f → L.Flows (.raised f s) flow

def ActionAlike (L : Likeness) (a b : Action Parser) : Prop :=
  ∀ outer frame s t, L.states s t →
    L.Flows (Block.act outer frame a L.left s) (Block.act outer frame b L.right t)

def ActionsAlike (L : Likeness) (as bs : List (Action Parser)) : Prop :=
  ∀ outer frame s t, L.states s t →
    L.Flows (Block.perform outer frame as L.left s) (Block.perform outer frame bs L.right t)

theorem Whole.settle (hw : L.Whole) {s t : State} (frame : Frame) (outer : List Frame)
    (h : L.states s t) : L.states (frame.settle outer s) (frame.settle outer t) := by
  unfold Frame.settle
  split
  · exact h
  · exact hw.moveTo _ h

theorem Flows.leave (hw : L.Whole) {a b : Flow} (start : Int) (outer : List Frame)
    (h : L.Flows a b) : L.Flows (a.leave start outer) (b.leave start outer) := by
  cases h with
  | done hs => exact .done (hw.settle _ _ hs)
  | left hv hs => exact .left hv (hw.settle _ _ hs)
  | raised hs => exact .raised (hw.moveTo _ hs)
  | excused hf => exact .excused hf

section Blocks

variable {p q : Parser} {a b : Action Parser} {as bs : List (Action Parser)}

theorem actionAlike_need (hp : L.Alike p q) : L.ActionAlike (.need p) (.need q) := by
  intro outer frame s t h
  have hr := hp s t h
  simp only [Block.act]
  generalize p L.left s = x at hr ⊢
  generalize q L.right t = y at hr ⊢
  cases hr with
  | returned hv hs =>
    dsimp only
    rw [L.truthy_eq hv]
    split
    · exact .done hs
    · exact .left (L.refl _) hs
  | raised hs => exact .raised hs
  | excused hf => exact .excused hf

theorem actionAlike_attempt (hp : L.Alike p q) : L.ActionAlike (.attempt p) (.attempt q) := by
  intro outer frame s t h
  have hr := hp s t h
  simp only [Block.act]
  generalize p L.left s = x at hr ⊢
  generalize q L.right t = y at hr ⊢
  cases hr with
  | returned hv hs => exact .done hs
  | raised hs => exact .raised hs
  | excused hf => exact .excused hf

theorem actionAlike_advance (hw : L.Whole) : L.ActionAlike .advance .advance := by
  intro outer frame s t h
  simp only [Block.act, hw.pos_eq h, hw.source_eq]
  split
  · exact .raised h
  · exact .done (hw.moveTo _ h)

theorem actionAlike_sub (hw : L.Whole) (h : L.ActionsAlike as bs) :
    L.ActionAlike (.sub as) (.sub bs) := by
  intro outer frame s t hs
  have hopen : Frame.openAt s = Frame.openAt t := by simp [Frame.openAt, hw.pos_eq hs]
  have hf := (h (frame :: outer) (.openAt s) s t hs).leave hw s.pos (frame :: outer)
  simp only [Block.act, ← hopen, ← hw.pos_eq hs]
  revert hf
  generalize (Block.perform (frame :: outer) (.openAt s) as L.left s).leave s.pos (frame :: outer) = x
  generalize (Block.perform (frame :: outer) (.openAt s) bs L.right t).leave s.pos (frame :: outer) = y
  intro hf
  cases hf with
  | done hs => exact .done hs
  | left hv hs => exact .left hv hs
  | raised hs => exact .raised hs
  | excused hf => exact .excused hf

theorem actionsAlike_cons (ha : L.ActionAlike a b) (h : L.ActionsAlike as bs) :
    L.ActionsAlike (a :: as) (b :: bs) := by
  intro outer frame s t hs
  have hf := ha outer frame s t hs
  simp only [Block.perform]
  generalize Block.act outer frame a L.left s = x at hf ⊢
  generalize Block.act outer frame b L.right t = y at hf ⊢
  cases hf with
  | done hs => exact h outer _ _ _ hs
  | left hv hs => exact .left hv hs
  | raised hs => exact .raised hs
  | excused hf => exact .excused hf

theorem alike_block (hw : L.Whole) (h : L.ActionsAlike as bs) :
    L.Alike (.block as) (.block bs) := by
  intro s t hs
  have hopen : Frame.openAt s = Frame.openAt t := by simp [Frame.openAt, hw.pos_eq hs]
  have hf := (h [] (.openAt s) s t hs).leave hw s.pos []
  simp only [Parser.block, ← hopen, ← hw.pos_eq hs]
  revert hf
  generalize (Block.perform [] (.openAt s) as L.left s).leave s.pos [] = x
  generalize (Block.perform [] (.openAt s) bs L.right t).leave s.pos [] = y
  intro hf
  cases hf with
  | done hs => exact .returned (L.refl _) hs
  | left hv hs => exact .returned hv hs
  | raised hs => exact .raised hs
  | excused hf => exact .excused hf

end Blocks

theorem alike_look (hw : L.Whole) {k l : Source → Int → Routine Parser}
    (h : ∀ src pos, L.Alike (.ofRoutine (k src pos)) (.ofRoutine (l src pos))) :
    L.Alike (.ofRoutine (.look k)) (.ofRoutine (.look l)) := by
  intro s t hs
  simp only [Parser.ofRoutine, hw.source_eq, hw.pos_eq hs]
  exact h _ _ s t hs

theorem alike_moveTo (hw : L.Whole) {r q : Routine Parser} (pos : Int)
    (h : L.Alike (.ofRoutine r) (.ofRoutine q)) :
    L.Alike (.ofRoutine (.moveTo pos r)) (.ofRoutine (.moveTo pos q)) :=
  fun _ _ hs => h _ _ (hw.moveTo pos hs)

theorem alike_run {p q : Parser} {k l : Bool → Routine Parser} (hp : L.Alike p q)
    (h : ∀ matched, L.Alike (.ofRoutine (k matched)) (.ofRoutine (l matched))) :
    L.Alike (.ofRoutine (.run p k)) (.ofRoutine (.run q l)) := by
  intro s t hs
  simp only [Parser.ofRoutine]
  refine .andThen (fun {v w s' t'} hv hs => ?_) (hp s t hs)
  rw [L.truthy_eq hv]
  exact h _ s' t' hs

/-- The second likeness compares the bodies of rules that the first one compares. -/
structure Inside (L L' : Likeness) : Prop where
  left_eq : L'.left = L.left
  right_eq : L'.right = L.right
  values : ∀ {v w}, L'.values v w → L.values v w
  excused : ∀ {f}, L'.excused f → L.excused f
  enter : ∀ {s t}, L.states s t →
    L'.states { s with depth := s.depth + 1 } { t with depth := t.depth + 1 }
  leave : ∀ {s t}, L'.states s t →
    L.states { s with depth := s.depth - 1 } { t with depth := t.depth - 1 }
  refused : ∀ {s t} name, L.states s t → L.left.maxDepth ≤ s.depth →
    L.excused (.depthExceeded L.left.maxDepth name) ∨
      L.right.maxDepth = L.left.maxDepth ∧ L.right.maxDepth ≤ t.depth
  admitted : ∀ {s t}, L.states s t → L.right.maxDepth ≤ t.depth → L.left.maxDepth ≤ s.depth

theorem Inside.of_depth_eq {L' : Likeness} (left_eq : L'.left = L.left) (right_eq : L'.right = L.right)
    (values : ∀ {v w}, L'.values v w → L.values v w) (excused : ∀ {f}, L'.excused f → L.excused f)
    (hmax : L.right.maxDepth = L.left.maxDepth) (hdepth : ∀ {s t}, L.states s t → t.depth = s.depth)
    (enter : ∀ {s t}, L.states s t →
      L'.states { s with depth := s.depth + 1 } { t with depth := t.depth + 1 })
    (leave : ∀ {s t}, L'.states s t →
      L.states { s with depth := s.depth - 1 } { t with depth := t.depth - 1 }) : L.Inside L' where
  left_eq := left_eq
  right_eq := right_eq
  values := values
  excused := excused
  enter := enter
  leave := leave
  refused _ h hle := .inr ⟨hmax, by rwa [hmax, hdepth h]⟩
  admitted h hle := by rwa [hmax, hdepth h] at hle

theorem Inside.nested {L' : Likeness} (hi : L.Inside L') {p q : Parser} (name : Option String)
    (h : L'.Alike p q) : L.Alike (.nested name p) (.nested name q) := by
  intro s t hs
  simp only [Parser.nested]
  by_cases hleft : L.left.maxDepth ≤ s.depth
  · rw [if_pos hleft]
    rcases hi.refused name hs hleft with hf | ⟨hmax, hright⟩
    · exact .excused hf
    · rw [if_pos hright, hmax]
      exact .raised hs
  · have hright : ¬ L.right.maxDepth ≤ t.depth := fun hr => hleft (hi.admitted hs hr)
    rw [if_neg hleft, if_neg hright]
    have hr := h _ _ (hi.enter hs)
    rw [hi.left_eq, hi.right_eq] at hr
    generalize p L.left _ = a at hr ⊢
    generalize q L.right _ = b at hr ⊢
    cases hr with
    | returned hv hs' => exact .returned (hi.values hv) (hi.leave hs')
    | @raised f s' t' hs' =>
      cases hf : f.isDepthExceeded with
      | false => simpa only [hf] using .raised (hi.leave hs')
      | true =>
        have hback := L.back hs (hi.leave hs')
        simpa only [hf, if_true] using .raised hback
    | excused hf => exact .excused (hi.excused hf)

theorem Inside.rule {L' : Likeness} (hi : L.Inside L') (rule : Rule) {run run' : Expr → Parser}
    (h : ∀ body, rule.body = some body → L'.Alike (run body) (run' body)) :
    L.Alike (rule.parser run) (rule.parser run') := by
  unfold Rule.parser
  split
  · exact alike_fault _
  · rename_i body hbody
    exact hi.nested _ (h body hbody)

section Expressions

variable {c d : RuleId → Parser}

mutual

/-- Expressions run alike wherever rules do. -/
theorem alike_expr (hw : L.Whole) (h : ∀ id, L.Alike (c id) (d id)) : ∀ e : Expr,
    L.Alike (e.run c) (e.run d)
  | .primitive m => hw.primitive m
  | .seq parts => alike_seq (alike_parts hw h parts)
  | .choice options => alike_choice (alike_parts hw h options)
  | .star body => (alike_expr hw h body).star
  | .plus body => (alike_expr hw h body).plus
  | .opt body => (alike_expr hw h body).opt
  | .ahead body => (alike_expr hw h body).ahead
  | .notAhead body => (alike_expr hw h body).notAhead
  | .rule id => h id
  | .expect tracker label body => (alike_expr hw h body).expect tracker label
  | .traced tag body => (alike_expr hw h body).traced tag
  | .block actions => alike_block hw (alike_actions hw h actions)
  | .routine r => alike_routine hw h r

theorem alike_parts (hw : L.Whole) (h : ∀ id, L.Alike (c id) (d id)) : ∀ es : List Expr,
    List.Forall₂ L.Alike (Expr.runAll c es) (Expr.runAll d es)
  | [] => .nil
  | e :: es => .cons (alike_expr hw h e) (alike_parts hw h es)

theorem alike_actions (hw : L.Whole) (h : ∀ id, L.Alike (c id) (d id)) :
    ∀ as : List (Action Expr), L.ActionsAlike (Expr.runActions c as) (Expr.runActions d as)
  | [] => fun _ _ _ _ hs => .done hs
  | a :: as => actionsAlike_cons (alike_action hw h a) (alike_actions hw h as)

theorem alike_action (hw : L.Whole) (h : ∀ id, L.Alike (c id) (d id)) : ∀ a : Action Expr,
    L.ActionAlike (Expr.runAction c a) (Expr.runAction d a)
  | .need e => actionAlike_need (alike_expr hw h e)
  | .attempt e => actionAlike_attempt (alike_expr hw h e)
  | .advance => actionAlike_advance hw
  | .commit => fun _ _ _ _ hs => .done hs
  | .uncommit => fun _ _ _ _ hs => .done hs
  | .rollback => fun _ _ _ _ hs => .done (hw.moveTo _ hs)
  | .rollbackUncommitted => fun _ _ _ _ hs => .done (hw.settle _ _ hs)
  | .sub body => actionAlike_sub hw (alike_actions hw h body)
  | .raise _ => fun _ _ _ _ hs => .raised hs
  | .succeed => fun _ _ _ _ hs => .left (L.refl _) hs
  | .fail => fun _ _ _ _ hs => .left (L.refl _) hs
  | .give _ => fun _ _ _ _ hs => .left (L.refl _) hs

theorem alike_routine (hw : L.Whole) (h : ∀ id, L.Alike (c id) (d id)) : ∀ r : Routine Expr,
    L.Alike (.ofRoutine (Expr.runRoutine c r)) (.ofRoutine (Expr.runRoutine d r))
  | .answer _ => fun _ _ hs => .returned (L.refl _) hs
  | .raise _ _ => fun _ _ hs => .raised hs
  | .look next => alike_look hw fun src pos => alike_routine hw h (next src pos)
  | .moveTo pos next => alike_moveTo hw pos (alike_routine hw h next)
  | .run e next => alike_run (alike_expr hw h e) fun matched => alike_routine hw h (next matched)

end

end Expressions

theorem alike_invoke {L : Nat → Likeness} (hw : ∀ d, (L d).Whole)
    (hi : ∀ d, (L d).Inside (L (d + 1))) (env : Environment) (n : Nat) : ∀ d id,
    (L d).Alike (invoke env n id) (invoke env n id) := by
  induction n with
  | zero => exact fun d id => (hi d).rule (env id) fun _ _ => alike_fault _
  | succ n ih =>
    intro d id
    exact (hi d).rule (env id) fun body _ => alike_expr (hw (d + 1)) (ih (d + 1)) body

end Likeness

end PegMatcher
