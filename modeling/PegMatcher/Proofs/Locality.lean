import PegMatcher.Proofs.Alignment
import PegMatcher.Proofs.Library
import PegMatcher.Proofs.Likeness
import PegMatcher.Proofs.Tasks

/-!
# Parsing is local

Runs on aligned sources go side by side: where one is, the other is the same way further on, and so are
the positions that their trackers hold. Every operator keeps this, as it moves the cursor only to where
it was before or to where a primitive match ends; so do rules, as they count alike.
-/

namespace PegMatcher

set_option autoImplicit false

variable {k : Int}

theorem Primitive.Elementary.elementwise {m : Primitive} (h : m.Elementary) : m.Elementwise := by
  cases h <;> trivial

/-- The second tracker holds what the first one does, `k` further on. -/
inductive Tracker.Shifted (k : Int) : Tracker → Tracker → Prop where
  | fresh : Shifted k .fresh .fresh
  | recorded {pos : Int} {labels : List String} : 0 ≤ pos → 0 ≤ pos + k →
      Shifted k ⟨pos, labels⟩ ⟨pos + k, labels⟩

theorem Tracker.Shifted.record {t u : Tracker} (h : Shifted k t u) {pos : Int} (label : String)
    (h0 : 0 ≤ pos) (hk : 0 ≤ pos + k) : Shifted k (t.record pos label) (u.record (pos + k) label) := by
  cases h with
  | fresh =>
    have hpos : Tracker.fresh.pos < pos := by
      simp only [Tracker.fresh]
      omega
    have hpos' : Tracker.fresh.pos < pos + k := by
      simp only [Tracker.fresh]
      omega
    simp only [Tracker.record, hpos, hpos', if_true]
    exact .recorded h0 hk
  | @recorded old labels hold hold' =>
    have hlt : old + k < pos + k ↔ old < pos := by omega
    have heq : pos + k = old + k ↔ pos = old := by omega
    simp only [Tracker.record, hlt, heq]
    split
    · exact .recorded h0 hk
    · split
      · exact .recorded hold hold'
      · exact .recorded hold hold'

/-- The second state is `k` further on, and so is what the trackers of some names hold. -/
structure State.Shifted (k : Int) (names : String → Prop) (s t : State) : Prop where
  pos_eq : t.pos = s.pos + k
  depth_eq : t.depth = s.depth
  trackers : ∀ name, names name → (s.trackers.get name).Shifted k (t.trackers.get name)

inductive Reply.Shifted (k : Int) (names : String → Prop) : Reply → Reply → Prop where
  | returned {v : Value} {s t : State} : s.Shifted k names t →
      Shifted k names (.returned v s) (.returned v t)
  | raised {f : Fault} {s t : State} : s.Shifted k names t →
      Shifted k names (.raised f s) (.raised f t)

theorem State.Shifted.record {names : String → Prop} {s t : State} (h : s.Shifted k names t)
    (h0 : 0 ≤ s.pos) (hk : 0 ≤ s.pos + k) (tracker label : String) :
    (s.record tracker label).Shifted k names (t.record tracker label) := by
  refine ⟨h.pos_eq, h.depth_eq, fun name hname => ?_⟩
  have hold := h.trackers name hname
  simp only [State.record]
  by_cases heq : name = tracker
  · subst heq
    rw [Trackers.get_modify_self, Trackers.get_modify_self, h.pos_eq]
    exact hold.record label h0 hk
  · rwa [Trackers.get_modify_of_ne _ _ heq, Trackers.get_modify_of_ne _ _ heq]

/-- Runs inside `d` rules on aligned sources. -/
def Likeness.aligned (A : Alignment) (maxDepth d : Nat) (names : String → Prop) : Likeness where
  left := ⟨A.left, maxDepth⟩
  right := ⟨A.right, maxDepth⟩
  shift := A.shift
  place pos := A.leftStart ≤ pos ∧ pos ≤ A.left.size
  states s t := (A.leftStart ≤ s.pos ∧ s.pos ≤ A.left.size) ∧ s.depth = d ∧ s.Shifted A.shift names t
  values := Eq
  excused _ := False
  pos_eq h := h.2.2.pos_eq
  place_pos h := h.1
  moveTo hpos h := ⟨hpos, h.2.1, rfl, h.2.2.depth_eq, h.2.2.trackers⟩
  record tracker label h := by
    have hstart := h.1.1
    have hright : 0 ≤ _ + A.shift := A.nonneg_of_le hstart
    exact ⟨h.1, h.2.1, h.2.2.record (by omega) hright tracker label⟩
  observe _ _ _ _ h := ⟨h.1, h.2.1, h.2.2.pos_eq, h.2.2.depth_eq, h.2.2.trackers⟩
  refl := Eq.refl
  truthy_eq := @Value.truthy_congr

namespace Likeness

variable {A : Alignment} {maxDepth d n : Nat} {names : String → Prop} {env : Environment}
  {refs : RuleId → Prop}

theorem inside_aligned : (aligned A maxDepth d names).Inside (aligned A maxDepth (d + 1) names) := by
  refine .of_depth_eq rfl rfl id id rfl (fun h => h.2.2.depth_eq) ?_ ?_
  · rintro s t ⟨hpos, hd, hs⟩
    exact ⟨hpos, by rw [← hd], hs.pos_eq, by simp only [hs.depth_eq], hs.trackers⟩
  · rintro s t ⟨hpos, hd, hs⟩
    exact ⟨hpos, by simp only [hd]; omega, hs.pos_eq, by simp only [hs.depth_eq], hs.trackers⟩

theorem aligned_primitive {m : Primitive} (hm : m.Elementwise) :
    (aligned A maxDepth d names).Alike (.ofPrimitive m) (.ofPrimitive m) := by
  refine alike_primitive (fun pos hpos => A.scan_eq hm hpos.1) fun pos next hpos hscan => ?_
  have hstart := hpos.1
  have hbounds := Primitive.scan_bounds (by omega) hpos.2 hscan
  exact ⟨by omega, hbounds.2⟩

theorem alike_runAll {L : Likeness} {c c' : RuleId → Parser} {es : List Expr}
    (h : ∀ e ∈ es, L.Alike (e.run c) (e.run c')) :
    List.Forall₂ L.Alike (Expr.runAll c es) (Expr.runAll c' es) := by
  induction es with
  | nil => exact .nil
  | cons e es ih => exact .cons (h e (by simp)) (ih fun e' he' => h e' (by simp [he']))

/-- What is put together by the operators runs alike wherever its primitives and the rules do. -/
theorem alike_built {L : Likeness} {c c' : RuleId → Parser} {ok : Primitive → Prop} {e : Expr}
    (h : e.Built ok refs) (hprimitive : ∀ m, ok m → L.Alike (.ofPrimitive m) (.ofPrimitive m))
    (hrules : ∀ id, L.Alike (c id) (c' id)) : L.Alike (e.run c) (e.run c') := by
  induction h with
  | primitive hm => exact hprimitive _ hm
  | seq _ ih => exact alike_seq (alike_runAll ih)
  | choice _ ih => exact alike_choice (alike_runAll ih)
  | star _ ih => exact ih.star
  | plus _ ih => exact ih.plus
  | opt _ ih => exact ih.opt
  | ahead _ ih => exact ih.ahead
  | notAhead _ ih => exact ih.notAhead
  | expect _ ih => exact ih.expect _ _
  | traced _ ih => exact ih.traced _
  | rule _ => exact hrules _

theorem aligned_invoke (hb : env.Built Primitive.Elementwise refs) (n : Nat) : ∀ d id,
    (aligned A maxDepth d names).Alike (invoke env n id) (invoke env n id) := by
  induction n with
  | zero => exact fun d id => inside_aligned.rule (env id) fun _ _ => alike_fault _
  | succ n ih =>
    intro d id
    refine inside_aligned.rule (env id) fun body hbody => ?_
    exact alike_built (hb id body hbody) (fun _ => aligned_primitive) (ih (d + 1))

theorem Replies.shifted {r r' : Reply} (h : (aligned A maxDepth d names).Replies r r') :
    r.Shifted A.shift names r' := by
  cases h with
  | returned hv hs =>
    cases hv
    exact .returned hs.2.2
  | raised hs => exact .raised hs.2.2
  | excused hf => exact hf.elim

end Likeness

variable {env : Environment} {refs : RuleId → Prop} {e : Expr}

theorem Expr.Built.shifted (he : e.Built Primitive.Elementwise refs)
    (hb : env.Built Primitive.Elementwise refs) (A : Alignment) (maxDepth : Nat)
    {names : String → Prop} {s t : State} (h0 : A.leftStart ≤ s.pos) (h1 : s.pos ≤ A.left.size)
    (hs : s.Shifted A.shift names t) :
    (e.parser env ⟨A.left, maxDepth⟩ s).Shifted A.shift names (e.parser env ⟨A.right, maxDepth⟩ t) := by
  have hrules : ∀ id, (Likeness.aligned A maxDepth s.depth names).Alike
      (invoke env (maxDepth - s.depth) id) (invoke env (maxDepth - s.depth) id) :=
    Likeness.aligned_invoke hb _ s.depth
  have halike := Likeness.alike_built he (fun _ => Likeness.aligned_primitive) hrules
  simp only [Expr.parser, hs.depth_eq]
  exact (halike s t ⟨⟨h0, h1⟩, rfl, hs⟩).shifted

theorem Reply.Shifted.stop?_eq {names : String → Prop} {r r' : Reply} (h : r.Shifted k names r') :
    r'.stop? = r.stop?.map (Option.map (· + k)) := by
  cases h with
  | @returned v s t hs =>
    simp only [Reply.stop?, hs.pos_eq, Except.map]
    cases v.truthy <;> rfl
  | raised _ => rfl

def matchDepth (limit : Int) : Nat := (clampDepth limit defaultMaxDepth reservedDepth).1.toNat

theorem Cursor.start_eq {input : Input} {src : Source} {pos : Nat} (limit : Int)
    (hsrc : input.source = .ok src) (hpos : pos ≤ src.size) :
    start limit input pos defaultMaxDepth = .ok (⟨src, pos, matchDepth limit, 0⟩,
      (clampDepth limit defaultMaxDepth reservedDepth).2) := by
  have hinside : ¬ ¬ ((0 : Int) ≤ pos ∧ (pos : Int) ≤ src.size) := by omega
  have hdepth : ¬ defaultMaxDepth < 1 := by decide
  simp only [start, hsrc, bind, Except.bind]
  rw [if_neg hinside, if_neg hdepth]
  rfl

theorem Cursor.place_eq {input : Input} {src : Source} {pos : Nat} (limit : Int)
    (hsrc : input.source = .ok src) (hpos : pos ≤ src.size) (j : Journal) :
    ∃ notices, (place limit input pos defaultMaxDepth).run j =
      .ok ⟨src, pos, matchDepth limit, 0⟩ { j with notices } := run_place (start_eq limit hsrc hpos) j

theorem answer_matchAt {input : Input} {src : Source} {p : Operand} {pos : Nat} (limit : Int)
    (hsrc : input.source = .ok src) (hpos : pos ≤ src.size) (hp : p.convert = .ok e) (j : Journal) :
    (matchAt env limit p input pos).answer j =
      (e.parser env ⟨src, matchDepth limit⟩ ⟨pos, 0, j.trackers, j.trace⟩).stop? := by
  obtain ⟨notices, hplace⟩ := Cursor.place_eq limit hsrc hpos j
  rw [matchAt, Task.answer_bind_ok hplace, hp, Task.answer_bind_ok (Task.run_ofExcept_ok e)]
  exact Cursor.answer_match? env ⟨src, pos, matchDepth limit, 0⟩ e { j with notices }

theorem filterMap_range {α : Type} (xs : List α) :
    (List.range xs.length).filterMap (fun i => xs[i]?) = xs := by
  induction xs with
  | nil => rfl
  | cons x xs ih => simp [List.range_succ_eq_map, List.filterMap_map, ih]

theorem filterMap_spanPlaces {α : Type} {xs : Array α} {p : Nat} (h : p ≤ xs.size) :
    (spanPlaces xs.size p xs.size).filterMap (fun i => xs[i]?) = xs.toList.drop p := by
  have hrest : (xs.toList.drop p).length = xs.size - p := by
    rw [List.length_drop, Array.length_toList]
  have hplaces := filterMap_range (xs.toList.drop p)
  simp only [List.getElem?_drop, Array.getElem?_toList, hrest] at hplaces
  rw [spanPlaces, clampBound_of_le h, clampBound_of_le (Nat.le_refl _), List.filterMap_map]
  exact hplaces

theorem Source.source_toValue (src : Source) : (Input.value src.toValue).source = .ok src := by
  cases src <;> simp [Input.source, toValue]

theorem Source.exists_slice {src : Source} {p : Nat} (h : p ≤ src.size) :
    ∃ rest : Source, (Input.value (src.slice p src.size)).source = .ok rest ∧
      rest.elements = src.elements.drop p := by
  cases src with
  | text chars =>
    refine ⟨.text (chars.toList.drop p).toArray, ?_, by simp [elements]⟩
    simp only [slice, pick, size, Input.source, filterMap_spanPlaces h]
  | bytes data =>
    refine ⟨.bytes (data.toList.drop p).toArray, ?_, by simp [elements]⟩
    simp only [slice, pick, size, Input.source, filterMap_spanPlaces h]
  | list items =>
    refine ⟨.list (items.toList.drop p).toArray, ?_, by simp [elements]⟩
    simp only [slice, pick, size, Input.source, filterMap_spanPlaces h]
  | tuple items =>
    refine ⟨.tuple (items.toList.drop p).toArray, ?_, by simp [elements]⟩
    simp only [slice, pick, size, Input.source, filterMap_spanPlaces h]

theorem answer_matchAt_aligned (he : e.Built Primitive.Elementwise refs)
    (hb : env.Built Primitive.Elementwise refs) (A : Alignment) (limit : Int) {p : Operand}
    (hp : p.convert = .ok e) {first second : Input} (hfirst : first.source = .ok A.left)
    (hsecond : second.source = .ok A.right) (hleft : A.leftStart ≤ A.left.size)
    (hright : A.rightStart ≤ A.right.size) (j k : Journal) :
    (matchAt env limit p second A.rightStart).answer k =
      ((matchAt env limit p first A.leftStart).answer j).map (Option.map (· + A.shift)) := by
  have hstart : State.Shifted A.shift (fun _ => False) ⟨A.leftStart, 0, j.trackers, j.trace⟩
      ⟨A.rightStart, 0, k.trackers, k.trace⟩ := by
    refine ⟨?_, rfl, nofun⟩
    simp only [Alignment.shift]
    omega
  have hreply := he.shifted hb A (matchDepth limit) (Int.le_refl _) (by simp only; omega) hstart
  rw [answer_matchAt limit hfirst hleft hp, answer_matchAt limit hsecond hright hp]
  exact hreply.stop?_eq

/-- The match from a position ends as much later as the match of the rest from its beginning. -/
theorem answer_matchAt_slice (he : e.Built Primitive.Elementwise refs)
    (hb : env.Built Primitive.Elementwise refs) (limit : Int) {p : Operand} (hp : p.convert = .ok e)
    {src : Source} {pos : Nat} (hpos : pos ≤ src.size) (j k : Journal) :
    (matchAt env limit p (.value src.toValue) pos).answer k =
      ((matchAt env limit p (.value (src.slice pos src.size)) 0).answer j).map
        (Option.map (· + (pos : Int))) := by
  obtain ⟨rest, hrest, hsame⟩ := Source.exists_slice hpos
  let A : Alignment := ⟨rest, src, 0, pos, hsame⟩
  have hshift : A.shift = pos := Int.sub_zero _
  rw [← hshift]
  exact answer_matchAt_aligned he hb A limit hp hrest src.source_toValue (Nat.zero_le _) hpos j k

theorem answer_matchAt_chars (he : e.Built Primitive.Elementwise refs)
    (hb : env.Built Primitive.Elementwise refs) (limit : Int) {p : Operand} (hp : p.convert = .ok e)
    {chars : List Char} {pos : Nat} (hpos : pos ≤ chars.length) (j k : Journal) :
    (matchAt env limit p (.value (.text chars)) pos).answer k =
      (matchAt env limit p (.value (.list (chars.map Value.char))) pos).answer j := by
  have hsame : (Source.list (chars.map Value.char).toArray).elements.drop pos =
      (Source.text chars.toArray).elements.drop pos := rfl
  let A : Alignment := ⟨_, _, pos, pos, hsame⟩
  have hshift : A.shift = 0 := Int.sub_self _
  have hlist : (Input.value (.list (chars.map Value.char))).source = .ok A.left := rfl
  have htext : (Input.value (.text chars)).source = .ok A.right := rfl
  have hleft : A.leftStart ≤ A.left.size := by simpa [A, Source.size] using hpos
  have hright : A.rightStart ≤ A.right.size := by simpa [A, Source.size] using hpos
  have hanswer := answer_matchAt_aligned he hb A limit hp hlist htext hleft hright j k
  rw [hshift] at hanswer
  simpa using hanswer

/-- On aligned sources, without regular expressions, runs reply the same from the two places, the shift apart;
so a match depends on its input only from its position on. -/
theorem parsing_is_local (env : Environment) (e : Expr) (refs : RuleId → Prop)
    (hb : env.Built Primitive.Elementwise refs) (he : e.Built Primitive.Elementwise refs) :
    (∀ (A : Alignment) maxDepth names (s t : State), s.pos = A.leftStart →
      A.leftStart ≤ A.left.size → s.Shifted A.shift names t →
      (e.parser env ⟨A.left, maxDepth⟩ s).Shifted A.shift names
        (e.parser env ⟨A.right, maxDepth⟩ t)) ∧
    (∀ (A : Alignment) limit (p : Operand) (first second : Input) j k, p.convert = .ok e →
      first.source = .ok A.left → second.source = .ok A.right → A.leftStart ≤ A.left.size →
      A.rightStart ≤ A.right.size →
      (matchAt env limit p second A.rightStart).answer k =
        ((matchAt env limit p first A.leftStart).answer j).map (Option.map (· + A.shift))) ∧
    (∀ (src : Source) (pos : Nat) limit (p : Operand) j k, p.convert = .ok e → pos ≤ src.size →
      (matchAt env limit p (.value src.toValue) pos).answer k =
        ((matchAt env limit p (.value (src.slice pos src.size)) 0).answer j).map
          (Option.map (· + (pos : Int)))) ∧
    (∀ (chars : List Char) (pos : Nat) limit (p : Operand) j k, p.convert = .ok e →
      pos ≤ chars.length →
      (matchAt env limit p (.value (.text chars)) pos).answer k =
        (matchAt env limit p (.value (.list (chars.map Value.char))) pos).answer j) ∧
    (∀ r, Lexical.ReadyMade r → r.Built Primitive.Elementwise refs) ∧
    (∀ item separator : Expr, item.Built Primitive.Elementwise refs →
      separator.Built Primitive.Elementwise refs →
      (Lexical.delimitedBy item separator).Built Primitive.Elementwise refs ∧
      (Lexical.delimitedBy item (Lexical.spaced separator)).Built Primitive.Elementwise refs) := by
  refine ⟨?_, ?_, ?_, ?_, ?_, ?_⟩
  · intro A maxDepth names s t hpos hle hs
    exact he.shifted hb A maxDepth (by omega) (by omega) hs
  · intro A limit p first second j k hp hfirst hsecond hleft hright
    exact answer_matchAt_aligned he hb A limit hp hfirst hsecond hleft hright j k
  · intro src pos limit p j k hp hpos
    exact answer_matchAt_slice he hb limit hp hpos j k
  · intro chars pos limit p j k hp hpos
    exact answer_matchAt_chars he hb limit hp hpos j k
  · intro r hr
    exact Lexical.built_of_elementary hr (fun _ => Primitive.Elementary.elementwise) fun _ _ => trivial
  · intro item separator hi hs
    exact Lexical.built_delimitedBy (fun _ => Primitive.Elementary.elementwise) hi hs

def stringRules : Environment := fun _ =>
  ⟨some "strings", some (.seq [.expect "t" "string" (.primitive (.quoted Lexical.defaultQuoting)),
    .opt (.seq [.primitive (.element (.char ',')), .rule (.loose 0)])])⟩

theorem built_stringRules : stringRules.Built Primitive.Elementwise fun _ => True := by
  intro id body hb
  cases hb
  refine .seq ?_
  simp [Primitive.Elementwise, Expr.Built.expect]

/-- Both runs take the string, and both trackers hold that another one is missing behind the comma. -/
theorem parsing_is_local_strings :
    let e : Expr := .rule (.loose 0)
    let A : Alignment := ⟨.list #[.char '\x22', .char 'a', .char '\x22', .char ','],
      .text #['x', '\x22', 'a', '\x22', ','], 0, 1, rfl⟩
    let s : State := ⟨0, 0, [], #[]⟩
    let t : State := ⟨1, 0, [], #[]⟩
    let p : Operand := .parser e
    (stringRules.Built Primitive.Elementwise (fun _ => True) ∧
      e.Built Primitive.Elementwise fun _ => True) ∧
    (s.pos = A.leftStart ∧ A.leftStart ≤ A.left.size ∧ s.Shifted A.shift (fun _ => True) t) ∧
    ((e.parser stringRules ⟨A.left, 3⟩ s).Shifted A.shift (fun _ => True)
        (e.parser stringRules ⟨A.right, 3⟩ t) ∧
      e.parser stringRules ⟨A.left, 3⟩ s =
        .returned (.bool true) ⟨3, 0, [("t", ⟨4, ["string"]⟩)], #[]⟩ ∧
      e.parser stringRules ⟨A.right, 3⟩ t =
        .returned (.bool true) ⟨4, 0, [("t", ⟨5, ["string"]⟩)], #[]⟩) ∧
    (p.convert = .ok e ∧ 1 ≤ A.right.size ∧
      (matchAt stringRules 1000 p (.value A.right.toValue) 1).answer {} =
        ((matchAt stringRules 1000 p (.value (A.right.slice 1 A.right.size)) 0).answer {}).map
          (Option.map (· + 1))) := by
  intro e A s t p
  have he : e.Built Primitive.Elementwise fun _ => True := .rule trivial
  have hs : s.Shifted A.shift (fun _ => True) t := ⟨rfl, rfl, fun _ _ => .fresh⟩
  have h := parsing_is_local stringRules e (fun _ => True) built_stringRules he
  refine ⟨⟨built_stringRules, he⟩, ⟨rfl, by decide, hs⟩, ⟨?_, rfl, rfl⟩, rfl, by decide, ?_⟩
  · exact h.1 A 3 _ s t rfl (by decide) hs
  · exact h.2.2.1 A.right 1 1000 p {} {} rfl (by decide)

end PegMatcher
