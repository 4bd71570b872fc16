import PegMatcher.Proofs.Preservation

/-!
# Moving by operations

A hand-written parser that moves the cursor by its operations goes on over elements, one at a time and as
long as there are any, and goes back to positions that it has seen. It may do so without sense, and fail or
raise anywhere; it does not leave the source.
-/

namespace PegMatcher

set_option autoImplicit false

/-- Going on over elements leads from the first position to the second. -/
inductive Source.Onward (src : Source) : Int → Int → Prop where
  | here {pos : Int} : Onward src pos pos
  | advance {pos next : Int} : pos < src.size → Onward src (pos + 1) next → Onward src pos next

variable {src : Source}

theorem Source.Onward.bounds {pos next : Int} (h : src.Onward pos next) (h0 : 0 ≤ pos)
    (h1 : pos ≤ src.size) : 0 ≤ next ∧ next ≤ src.size := by
  induction h with
  | here => exact ⟨h0, h1⟩
  | advance hlt _ ih => exact ih (by omega) (by omega)

theorem Source.onward_end (src : Source) (pos : Int) : src.Onward pos (max pos src.size) := by
  induction hn : (src.size - pos).toNat generalizing pos with
  | zero =>
    have hend : max pos src.size = pos := by omega
    rw [hend]
    exact .here
  | succ n ih =>
    have hlt : pos < src.size := by omega
    have hsame : max (pos + 1) (src.size : Int) = max pos src.size := by omega
    have hrest := ih (pos + 1) (by omega)
    rw [hsame] at hrest
    exact .advance hlt hrest

namespace Expr

mutual

/-- Hand-written parts move the cursor onward from positions that they have seen, or that are known. -/
def Walks (src : Source) (known : List Int) : Expr → Prop
  | .primitive _ => True
  | .seq parts => AllWalk src known parts
  | .choice options => AllWalk src known options
  | .star body => Walks src known body
  | .plus body => Walks src known body
  | .opt body => Walks src known body
  | .ahead body => Walks src known body
  | .notAhead body => Walks src known body
  | .rule _ => True
  | .expect _ _ body => Walks src known body
  | .traced _ body => Walks src known body
  | .block actions => ActionsWalk src known actions
  | .routine r => RoutineWalks src known r

def AllWalk (src : Source) (known : List Int) : List Expr → Prop
  | [] => True
  | e :: es => Walks src known e ∧ AllWalk src known es

def ActionsWalk (src : Source) (known : List Int) : List (Action Expr) → Prop
  | [] => True
  | a :: as => ActionWalks src known a ∧ ActionsWalk src known as

def ActionWalks (src : Source) (known : List Int) : Action Expr → Prop
  | .need e => Walks src known e
  | .attempt e => Walks src known e
  | .sub body => ActionsWalk src known body
  | .advance => True
  | .commit => True
  | .uncommit => True
  | .rollback => True
  | .rollbackUncommitted => True
  | .raise _ => True
  | .succeed => True
  | .fail => True
  | .give _ => True

def RoutineWalks (src : Source) (known : List Int) : Routine Expr → Prop
  | .answer _ => True
  | .raise _ _ => True
  | .look next => ∀ pos, RoutineWalks src (pos :: known) (next src pos)
  | .moveTo pos next => (∃ seen ∈ known, src.Onward seen pos) ∧ RoutineWalks src known next
  | .run e next => Walks src known e ∧ ∀ matched, RoutineWalks src known (next matched)

end

mutual

theorem staysIn_of_walks : ∀ (e : Expr) (known : List Int), (∀ pos ∈ known, (Scope.inside src).place pos) →
    e.Walks src known → e.StaysIn src
  | .primitive _, _, _, _ => trivial
  | .seq parts, known, hk, h => allStayIn_of_walk parts known hk h
  | .choice options, known, hk, h => allStayIn_of_walk options known hk h
  | .star body, known, hk, h => staysIn_of_walks body known hk h
  | .plus body, known, hk, h => staysIn_of_walks body known hk h
  | .opt body, known, hk, h => staysIn_of_walks body known hk h
  | .ahead body, known, hk, h => staysIn_of_walks body known hk h
  | .notAhead body, known, hk, h => staysIn_of_walks body known hk h
  | .rule _, _, _, _ => trivial
  | .expect _ _ body, known, hk, h => ⟨trivial, staysIn_of_walks body known hk h⟩
  | .traced _ body, known, hk, h => staysIn_of_walks body known hk h
  | .block actions, known, hk, h => actionsStayIn_of_walk actions known hk h
  | .routine r, known, hk, h => routineStaysIn_of_walks r known hk h

theorem allStayIn_of_walk : ∀ (es : List Expr) (known : List Int),
    (∀ pos ∈ known, (Scope.inside src).place pos) → AllWalk src known es → AllHeed (.inside src) es
  | [], _, _, _ => trivial
  | e :: es, known, hk, h => ⟨staysIn_of_walks e known hk h.1, allStayIn_of_walk es known hk h.2⟩

theorem actionsStayIn_of_walk : ∀ (as : List (Action Expr)) (known : List Int),
    (∀ pos ∈ known, (Scope.inside src).place pos) → ActionsWalk src known as →
      ActionsHeed (.inside src) as
  | [], _, _, _ => trivial
  | a :: as, known, hk, h => ⟨actionStaysIn_of_walks a known hk h.1, actionsStayIn_of_walk as known hk h.2⟩

theorem actionStaysIn_of_walks : ∀ (a : Action Expr) (known : List Int),
    (∀ pos ∈ known, (Scope.inside src).place pos) → ActionWalks src known a →
      ActionHeeds (.inside src) a
  | .need e, known, hk, h => staysIn_of_walks e known hk h
  | .attempt e, known, hk, h => staysIn_of_walks e known hk h
  | .sub body, known, hk, h => actionsStayIn_of_walk body known hk h
  | .advance, _, _, _ => trivial
  | .commit, _, _, _ => trivial
  | .uncommit, _, _, _ => trivial
  | .rollback, _, _, _ => trivial
  | .rollbackUncommitted, _, _, _ => trivial
  | .raise _, _, _, _ => trivial
  | .succeed, _, _, _ => trivial
  | .fail, _, _, _ => trivial
  | .give _, _, _, _ => trivial

theorem routineStaysIn_of_walks : ∀ (r : Routine Expr) (known : List Int),
    (∀ pos ∈ known, (Scope.inside src).place pos) → RoutineWalks src known r →
      RoutineHeeds (.inside src) r
  | .answer _, _, _, _ => trivial
  | .raise _ _, _, _, _ => trivial
  | .look next, known, hk, h => fun pos hpos =>
    routineStaysIn_of_walks (next src pos) (pos :: known) (List.forall_mem_cons.mpr ⟨hpos, hk⟩) (h pos)
  | .moveTo pos next, known, hk, h => by
    obtain ⟨⟨seen, hseen, honward⟩, hnext⟩ := h
    obtain ⟨h0, h1⟩ := hk seen hseen
    exact ⟨honward.bounds h0 h1, routineStaysIn_of_walks next known hk hnext⟩
  | .run e next, known, hk, h => ⟨staysIn_of_walks e known hk h.1, fun matched =>
    routineStaysIn_of_walks (next matched) known hk (h.2 matched)⟩

end

/-- Whatever the source, hand-written parts move the cursor by its operations. -/
def Operated (e : Expr) : Prop := ∀ src, e.Walks src []

theorem Operated.staysIn {e : Expr} (h : e.Operated) (src : Source) : e.StaysIn src :=
  staysIn_of_walks e [] nofun (h src)

theorem operated_scanner {sc : Scanner}
    (h : ∀ (src : Source) (pos : Int), src.Onward pos (sc.scan src pos).2) :
    (Expr.scanner sc).Operated := by
  intro src pos
  have hstop := h src pos
  dsimp only
  split
  · rename_i v stop hscan
    rw [hscan] at hstop
    exact ⟨⟨pos, List.mem_cons_self, hstop⟩, trivial⟩
  · rename_i f stop hscan
    rw [hscan] at hstop
    exact ⟨⟨pos, List.mem_cons_self, hstop⟩, trivial⟩

end Expr

namespace Scanner

theorem onward_pastElement (pos : Int) : src.Onward pos (pastElement src pos) := by
  unfold pastElement
  split
  · exact .here
  · rename_i hlt
    exact .advance (Int.not_le.mp hlt) .here

theorem onward_skipFrom (n : Nat) : ∀ pos : Int, src.Onward pos (skipFrom src n pos).2 := by
  induction n with
  | zero => exact fun _ => .here
  | succ n ih =>
    intro pos
    unfold skipFrom
    split
    · exact .here
    · rename_i hlt
      exact .advance (Int.not_le.mp hlt) (ih (pos + 1))

inductive Provided : Scanner → Prop where
  | always (v : Value) : Provided (always v)
  | drain : Provided drain
  | skip (n : Nat) : Provided (skip n)
  | peekIs (v : Value) : Provided (peekIs v)
  | yielding (v : Value) : Provided (yielding v)
  | raising (text : String) : Provided (raising text)

theorem Provided.operated {sc : Scanner} (h : sc.Provided) : (Expr.scanner sc).Operated := by
  apply Expr.operated_scanner
  intro src pos
  cases h with
  | always | peekIs => exact .here
  | drain => exact src.onward_end pos
  | skip n => exact onward_skipFrom n pos
  | yielding | raising => exact onward_pastElement pos

end Scanner

end PegMatcher
