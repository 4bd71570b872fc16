import PegMatcher.Expr
import PegMatcher.Proofs.PrimitiveMatches
import PegMatcher.Proofs.Repetition

/-!
# How parsers move the cursor

A parser that moves onward leaves the cursor between where it was and the end of the source; a tidy one
leaves it where it was as well if it does not match. Each operator is tidy over operands that may be
less: `seq`, `star`, `opt` and lookahead ask their operands only to move onward, the others ask for what
they promise. Over an operand that moves onward a repetition ends.
-/

namespace PegMatcher

set_option autoImplicit false

/-- What is asked of a parser: only to move onward, or to stay where it fails as well. -/
inductive Manner where
  | onward | tidy
deriving DecidableEq

structure State.At (src : Source) (d : Nat) (s : State) : Prop where
  nonneg : 0 ≤ s.pos
  le_size : s.pos ≤ src.size
  depth_eq : s.depth = d

/-- A reply from `s` that moves in a manner, or is one of the faults that may occur. -/
inductive Reply.Moves (src : Source) (m : Manner) (may : Fault → Prop) (s : State) :
    Reply → Prop where
  | returned {v : Value} {s' : State} : s'.At src s.depth → s.pos ≤ s'.pos →
      (m = .tidy → v.truthy = false → s'.pos = s.pos) → Moves src m may s (.returned v s')
  | raised {f : Fault} {s' : State} : may f → Moves src m may s (.raised f s')

/-- A parser that moves in a manner wherever `d` rules are running. -/
def Parser.Behaves (ctx : Setting) (d : Nat) (m : Manner) (may : Fault → Prop) (p : Parser) : Prop :=
  ∀ s, s.At ctx.source d → (p ctx s).Moves ctx.source m may s

variable {src : Source} {ctx : Setting} {d : Nat} {m : Manner} {may : Fault → Prop}

theorem State.At.here {s : State} (hs : s.At src d) : s.At src s.depth :=
  ⟨hs.nonneg, hs.le_size, rfl⟩

theorem State.At.moveTo {s : State} {pos : Int} (hs : s.At src d) (h0 : 0 ≤ pos)
    (h1 : pos ≤ src.size) : (s.moveTo pos).At src d := ⟨h0, h1, hs.depth_eq⟩

theorem State.At.remaining_lt {s s' : State} (hs : s'.At src d) (h : s.pos < s'.pos) :
    src.remaining s'.pos < src.remaining s.pos := by
  have hle := hs.le_size
  simp only [Source.remaining]
  omega

theorem Reply.Moves.trans {s s' : State} {r : Reply} (h : r.Moves src m may s')
    (hs : s'.At src s.depth) (hle : s.pos ≤ s'.pos) (he : m = .tidy → s'.pos = s.pos) :
    r.Moves src m may s := by
  cases h with
  | returned hs' hle' ht =>
    rw [hs.depth_eq] at hs'
    refine .returned hs' (by omega) fun hm hv => ?_
    rw [ht hm hv, he hm]
  | raised hf => exact .raised hf

namespace Parser

namespace Behaves

variable {p : Parser} {ps : List Parser}

theorem onward (h : p.Behaves ctx d m may) : p.Behaves ctx d .onward may := by
  intro s hs
  have hp := h s hs
  generalize p ctx s = r at hp ⊢
  cases hp with
  | returned hs' hle _ => exact .returned hs' hle nofun
  | raised hf => exact .raised hf

theorem fault {f : Fault} (hf : may f) : (Parser.fault f).Behaves ctx d m may :=
  fun _ _ => .raised hf

theorem primitive {matcher : Primitive}
    (hf : ∀ (pos : Int) f, 0 ≤ pos → pos ≤ ctx.source.size →
      matcher.scan ctx.source pos = .error f → may f) :
    (ofPrimitive matcher).Behaves ctx d m may := by
  intro s hs
  simp only [ofPrimitive]
  split
  · rename_i next hscan
    have hb := Primitive.scan_bounds hs.nonneg hs.le_size hscan
    exact .returned ⟨by have := hs.nonneg; simp only [State.moveTo]; omega, hb.2, rfl⟩ hb.1
      (fun _ hv => by simp at hv)
  · exact .returned hs.here (Int.le_refl _) fun _ _ => rfl
  · rename_i f hscan
    exact .raised (hf _ f hs.nonneg hs.le_size hscan)

theorem all (h : ∀ p ∈ ps, p.Behaves ctx d .onward may) :
    (Parser.all ps).Behaves ctx d .onward may := by
  induction ps with
  | nil => exact fun s hs => .returned hs.here (Int.le_refl _) nofun
  | cons p ps ih =>
    intro s hs
    have hp := h p (by simp) s hs
    simp only [Parser.all]
    generalize p ctx s = r at hp ⊢
    cases hp with
    | @returned v s' hs' hle _ =>
      simp only
      split
      · rw [hs.depth_eq] at hs'
        have hrest := ih (fun q hq => h q (by simp [hq])) s' hs'
        exact hrest.trans (hs.depth_eq ▸ hs') hle nofun
      · exact .returned hs' hle nofun
    | raised hf => exact .raised hf

theorem guarded (h : p.Behaves ctx d .onward may) : p.guarded.Behaves ctx d .tidy may := by
  intro s hs
  have hp := h s hs
  simp only [Parser.guarded]
  generalize p ctx s = r at hp ⊢
  cases hp with
  | @returned v s' hs' hle _ =>
    cases hv : v.truthy with
    | true =>
      simp only [hv, if_true]
      exact .returned hs' hle fun _ hf => by simp [hv] at hf
    | false =>
      simp only [hv, Bool.false_eq_true, if_false]
      exact .returned (hs'.moveTo hs.nonneg hs.le_size) (Int.le_refl _) fun _ _ => rfl
  | raised hf => exact .raised hf

theorem seq (h : ∀ p ∈ ps, p.Behaves ctx d .onward may) : (Parser.seq ps).Behaves ctx d .tidy may :=
  (all h).guarded

theorem choice (h : ∀ p ∈ ps, p.Behaves ctx d m may) : (Parser.choice ps).Behaves ctx d m may := by
  induction ps with
  | nil =>
    exact fun s hs => .returned hs.here (Int.le_refl _) fun _ _ => rfl
  | cons p ps ih =>
    intro s hs
    have hp := h p (by simp) s hs
    simp only [Parser.choice]
    generalize p ctx s = r at hp ⊢
    cases hp with
    | @returned v s' hs' hle ht =>
      cases hv : v.truthy with
      | true =>
        simp only [hv, if_true]
        exact .returned hs' hle fun _ hf => by simp at hf
      | false =>
        simp only [hv, Bool.false_eq_true, if_false]
        rw [hs.depth_eq] at hs'
        have hrest := ih (fun q hq => h q (by simp [hq])) s' hs'
        exact hrest.trans (hs.depth_eq ▸ hs') hle fun hm => ht hm hv
    | raised hf => exact .raised hf

theorem opt (h : p.Behaves ctx d .onward may) : p.opt.Behaves ctx d m may := by
  intro s hs
  have hp := h s hs
  simp only [Parser.opt]
  generalize p ctx s = r at hp ⊢
  cases hp with
  | returned hs' hle _ => exact .returned hs' hle fun _ hv => by simp at hv
  | raised hf => exact .raised hf

theorem ahead (h : p.Behaves ctx d .onward may) : p.ahead.Behaves ctx d m may := by
  intro s hs
  have hp := h s hs
  simp only [Parser.ahead]
  generalize p ctx s = r at hp ⊢
  cases hp with
  | returned hs' _ _ =>
    exact .returned (hs'.moveTo hs.nonneg hs.le_size) (Int.le_refl _) fun _ _ => rfl
  | raised hf => exact .raised hf

theorem notAhead (h : p.Behaves ctx d .onward may) : p.notAhead.Behaves ctx d m may := by
  intro s hs
  have hp := h s hs
  simp only [Parser.notAhead]
  generalize p ctx s = r at hp ⊢
  cases hp with
  | returned hs' _ _ =>
    exact .returned (hs'.moveTo hs.nonneg hs.le_size) (Int.le_refl _) fun _ _ => rfl
  | raised hf => exact .raised hf

theorem expect (tracker label : String) (h : p.Behaves ctx d m may) :
    (p.expect tracker label).Behaves ctx d m may := by
  intro s hs
  have hp := h s hs
  simp only [Parser.expect]
  generalize p ctx s = r at hp ⊢
  cases hp with
  | @returned v s' hs' hle ht =>
    cases hv : v.truthy with
    | true =>
      simp only [hv, if_true]
      exact .returned hs' hle fun _ hf => by simp at hf
    | false =>
      simp only [hv, Bool.false_eq_true, if_false]
      exact .returned ⟨hs'.nonneg, hs'.le_size, hs'.depth_eq⟩ hle fun hm _ => ht hm hv
  | raised hf => exact .raised hf

theorem traced (tag : Value) (h : p.Behaves ctx d m may) : (p.traced tag).Behaves ctx d m may := by
  intro s hs
  have hp := h s hs
  simp only [Parser.traced]
  generalize p ctx s = r at hp ⊢
  cases hp with
  | returned hs' hle ht => exact .returned ⟨hs'.nonneg, hs'.le_size, hs'.depth_eq⟩ hle ht
  | raised hf => exact .raised hf

/-- From any place in the source there are at most as many rounds as elements left, and one more. -/
theorem exists_rounds (h : p.Behaves ctx d .onward may) : ∀ s, s.At ctx.source d →
    ∃ n r, n ≤ ctx.source.remaining s.pos + 1 ∧ Rounds p ctx s n r ∧
      r.Moves ctx.source .onward may s := by
  intro s
  induction hleft : ctx.source.remaining s.pos using Nat.strongRecOn generalizing s with
  | ind left ih =>
    intro hs
    have hp := h s hs
    generalize hr : p ctx s = r at hp
    cases hp with
    | @returned v s' hs' hle _ =>
      cases hv : v.truthy with
      | false => exact ⟨1, _, by omega, .failed hr hv, .returned hs' hle nofun⟩
      | true =>
        by_cases hstay : s'.pos = s.pos
        · exact ⟨1, _, by omega, .stayed hr hv hstay, .returned hs' hle nofun⟩
        · have hlt := hs'.remaining_lt (show s.pos < s'.pos by omega)
          obtain ⟨n, r, hn, hrounds, hmoves⟩ := ih _ (hleft ▸ hlt) s' rfl (hs.depth_eq ▸ hs')
          exact ⟨n + 1, r, by omega, .again hr hv hstay hrounds, hmoves.trans hs' hle nofun⟩
    | raised hf => exact ⟨1, _, by omega, .raised hr, .raised hf⟩

theorem star (h : p.Behaves ctx d .onward may) : p.star.Behaves ctx d m may := by
  intro s hs
  obtain ⟨n, r, _, hrounds, hmoves⟩ := exists_rounds h s hs
  rw [hrounds.star_eq]
  cases hmoves with
  | returned hs' hle _ =>
    rw [hrounds.value_eq]
    exact .returned hs' hle fun _ hv => by simp at hv
  | raised hf => exact .raised hf

theorem plus (h : p.Behaves ctx d m may) : p.plus.Behaves ctx d m may := by
  intro s hs
  have hp := h s hs
  simp only [Parser.plus]
  generalize p ctx s = r at hp ⊢
  cases hp with
  | @returned v s' hs' hle ht =>
    cases hv : v.truthy with
    | false =>
      simp only [hv, Bool.false_eq_true, if_false]
      exact .returned hs' hle fun hm _ => ht hm hv
    | true =>
      simp only [hv, if_true]
      split
      · exact .returned hs' hle fun _ hf => by simp at hf
      · have hrest := (h.onward.star (m := .onward)) s' (hs.depth_eq ▸ hs')
        generalize Parser.star p ctx s' = r at hrest ⊢
        cases hrest with
        | returned hs'' hle' _ =>
          rw [hs'.depth_eq] at hs''
          exact .returned hs'' (by omega) fun _ hf => by simp at hf
        | raised hf => exact .raised hf
  | raised hf => exact .raised hf

theorem nested {name : Option String} (hlimit : may (.depthExceeded ctx.maxDepth name))
    (h : d < ctx.maxDepth → p.Behaves ctx (d + 1) m may) :
    (Parser.nested name p).Behaves ctx d m may := by
  intro s hs
  have hd := hs.depth_eq
  simp only [Parser.nested, hd]
  split
  · exact .raised hlimit
  · rename_i hlt
    have hp := h (by omega) { s with depth := d + 1 } ⟨hs.nonneg, hs.le_size, rfl⟩
    generalize p ctx _ = r at hp ⊢
    cases hp with
    | returned hs' hle ht =>
      have hd' := hs'.depth_eq
      simp only at hd' hle ht
      refine .returned ⟨hs'.nonneg, hs'.le_size, ?_⟩ hle ht
      simp only
      omega
    | @raised f _ hf => exact .raised hf

end Behaves

end Parser

end PegMatcher
