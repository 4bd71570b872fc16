import PegMatcher.Proofs.Answers
import PegMatcher.Proofs.Characters

/-!
# Delimited lists

A delimited list is a chain: behind every item but the last one stand a separator and another item, which ends
further on. The match ends with the chain, and so right behind an item. A separator that no further item follows
is given back, and the white space around it as well.
-/

namespace PegMatcher

set_option autoImplicit false

open Relation

def Value.Blank (x : Value) : Prop := ∃ c ∈ Lexical.whitespace, x = .char c

/-- White space up to the second place, and none there. -/
structure Source.Blanks (src : Source) (p q : Nat) : Prop where
  le : p ≤ q
  blank : ∀ i, p ≤ i → i < q → ∃ x, src.elements[i]? = some x ∧ x.Blank
  stops : ∀ x, src.elements[q]? = some x → ¬ x.Blank

theorem Source.Blanks.cons {src : Source} {p q : Nat} (h : src.Blanks (p + 1) q)
    (hblank : ∃ x, src.elements[p]? = some x ∧ x.Blank) : src.Blanks p q := by
  refine ⟨Nat.le_of_succ_le h.le, fun i hi hlt => ?_, h.stops⟩
  rcases Nat.eq_or_lt_of_le hi with rfl | hi
  · exact hblank
  · exact h.blank i hi hlt

theorem Source.Blanks.le_size {src : Source} {p q : Nat} (h : src.Blanks p q) (hp : p ≤ src.size) :
    q ≤ src.size := by
  by_contra hlt
  have hle := h.le
  obtain ⟨x, hx, -⟩ := h.blank (q - 1) (by omega) (by omega)
  have hlt' := (List.getElem?_eq_some_iff.mp hx).1
  rw [Source.length_elements] at hlt'
  omega

namespace Delimited

inductive Separates (src : Source) (separator : Nat → Outcome → Prop) : Bool → Nat → Outcome → Prop where
  | bare {p : Nat} {o : Outcome} : separator p o → Separates src separator false p o
  | found {p a b q : Nat} : src.Blanks p a → separator a (.ok b) → src.Blanks b q →
      Separates src separator true p (.ok q)
  | missing {p a : Nat} : src.Blanks p a → separator a .fail → Separates src separator true p .fail

/-- Behind an item that ends at the first place, a separator and then an item that ends further on. -/
def Next (item separator : Nat → Outcome → Prop) (p q : Nat) : Prop :=
  (∃ s, separator p (.ok s) ∧ item s (.ok q)) ∧ p < q

/-- Behind an item that ends here, no separator, or a separator and then no item or one that ends no further on. -/
def Last (item separator : Nat → Outcome → Prop) (p : Nat) : Prop :=
  separator p .fail ∨ ∃ s, separator p (.ok s) ∧ (item s .fail ∨ ∃ q ≤ p, item s (.ok q))

/-- A chain of items begins at the first place, and its last one ends at the second. -/
def Chain (item separator : Nat → Outcome → Prop) (p q : Nat) : Prop :=
  ∃ first, item p (.ok first) ∧ ReflTransGen (Next item separator) first q ∧ Last item separator q

/-- What is told in the first way is told in the second, and matches lie between their place and the size. -/
def Carries (size : Nat) (tells tells' : Nat → Outcome → Prop) : Prop :=
  ∀ p ≤ size, ∀ o, tells p o → tells' p o ∧ ∀ q, o = .ok q → p ≤ q ∧ q ≤ size

variable {src : Source} {item item' separator separator' : Nat → Outcome → Prop} {p q size : Nat}

theorem Carries.separates (h : Carries src.size separator separator') (spaces : Bool) :
    Carries src.size (Separates src separator spaces) (Separates src separator' spaces) := by
  intro p hp o ho
  cases ho with
  | bare ho =>
    obtain ⟨ho', hbounds⟩ := h p hp o ho
    exact ⟨.bare ho', hbounds⟩
  | found hfront hb hback =>
    obtain ⟨hb', hbounds⟩ := h _ (hfront.le_size hp) _ hb
    obtain ⟨hle, hsize⟩ := hbounds _ rfl
    refine ⟨.found hfront hb' hback, ?_⟩
    rintro _ ⟨⟩
    exact ⟨Nat.le_trans hfront.le (Nat.le_trans hle hback.le), hback.le_size hsize⟩
  | missing hfront hb => exact ⟨.missing hfront (h _ (hfront.le_size hp) _ hb).1, nofun⟩

theorem Next.carry (hitem : Carries size item item') (hseparator : Carries size separator separator')
    (hp : p ≤ size) (h : Next item separator p q) : Next item' separator' p q ∧ q ≤ size := by
  obtain ⟨⟨s, hs, hq⟩, hlt⟩ := h
  obtain ⟨hs', hbounds⟩ := hseparator p hp _ hs
  obtain ⟨hq', hbounds'⟩ := hitem s (hbounds s rfl).2 _ hq
  exact ⟨⟨⟨s, hs', hq'⟩, hlt⟩, (hbounds' q rfl).2⟩

theorem Last.carry (hitem : Carries size item item') (hseparator : Carries size separator separator')
    (hp : p ≤ size) (h : Last item separator p) : Last item' separator' p := by
  rcases h with h | ⟨s, hs, hnone⟩
  · exact .inl (hseparator p hp _ h).1
  · obtain ⟨hs', hbounds⟩ := hseparator p hp _ hs
    have hsize := (hbounds s rfl).2
    refine .inr ⟨s, hs', hnone.imp (fun h => (hitem s hsize _ h).1) ?_⟩
    exact fun ⟨q, hle, h⟩ => ⟨q, hle, (hitem s hsize _ h).1⟩

theorem carry_chain (hitem : Carries size item item') (hseparator : Carries size separator separator')
    (hp : p ≤ size) (h : ReflTransGen (Next item separator) p q) :
    ReflTransGen (Next item' separator') p q ∧ p ≤ q ∧ q ≤ size := by
  induction h with
  | refl => exact ⟨.refl, Nat.le_refl p, hp⟩
  | tail _ hnext ih =>
    obtain ⟨hchain, hle, hsize⟩ := ih
    obtain ⟨hnext', hsize'⟩ := hnext.carry hitem hseparator hsize
    exact ⟨hchain.tail hnext', Nat.le_trans hle (Nat.le_of_lt hnext.2), hsize'⟩

theorem Chain.carry (hitem : Carries size item item') (hseparator : Carries size separator separator')
    (hp : p ≤ size) (h : Chain item separator p q) : Chain item' separator' p q := by
  obtain ⟨first, hfirst, hchain, hlast⟩ := h
  obtain ⟨hfirst', hbounds⟩ := hitem p hp _ hfirst
  obtain ⟨hchain', -, hsize⟩ := carry_chain hitem hseparator (hbounds first rfl).2 hchain
  exact ⟨first, hfirst', hchain', hlast.carry hitem hseparator hsize⟩

theorem Chain.exists_item (hitem : Carries size item item') (hseparator : Carries size separator separator')
    (hp : p ≤ size) (h : Chain item separator p q) : ∃ a, p ≤ a ∧ a ≤ q ∧ item a (.ok q) := by
  obtain ⟨first, hfirst, hchain, -⟩ := h
  obtain ⟨hle, hsize⟩ := (hitem p hp _ hfirst).2 first rfl
  cases hchain with
  | refl => exact ⟨p, Nat.le_refl p, hle, hfirst⟩
  | tail hchain hnext =>
    obtain ⟨-, hle', hsize'⟩ := carry_chain hitem hseparator hsize hchain
    obtain ⟨⟨s, hs, hq⟩, -⟩ := hnext
    obtain ⟨hle'', hsize''⟩ := (hseparator _ hsize' _ hs).2 s rfl
    exact ⟨s, Nat.le_trans hle (Nat.le_trans hle' hle''), ((hitem s hsize'' _ hq).2 q rfl).1, hq⟩

end Delimited

namespace Expr

open Delimited

variable {env : Environment} {src : Source} {n p q : Nat} {item separator : Expr} {o : Outcome} {cs : List Char}

theorem derives_anyOf_ok_iff : Derives env src n (Lexical.anyOf cs) p (.ok q) ↔
    q = p + 1 ∧ ∃ x, src.elements[p]? = some x ∧ ∃ c ∈ cs, x = .char c := by
  constructor
  · intro h
    cases h with
    | matched hm =>
      cases hm with
      | oneOf hx hv hvx =>
        obtain ⟨c, hc, rfl⟩ := List.mem_map.mp hv
        exact ⟨rfl, _, hx, c, hc, Value.char_beq_iff.mp hvx⟩
  · rintro ⟨rfl, x, hx, c, hc, rfl⟩
    exact .matched (.oneOf hx (List.mem_map_of_mem hc) (Value.char_beq_iff.mpr rfl))

theorem derives_anyOf_fail_iff : Derives env src n (Lexical.anyOf cs) p .fail ↔
    ∀ x, src.elements[p]? = some x → ¬ ∃ c ∈ cs, x = .char c := by
  constructor
  · intro h x hx hc
    cases h with
    | unmatched _ hno =>
      obtain ⟨c, hc, rfl⟩ := hc
      exact hno _ (.oneOf hx (List.mem_map_of_mem hc) (Value.char_beq_iff.mpr rfl))
  · intro h
    refine .unmatched trivial fun q hm => ?_
    cases hm with
    | oneOf hx hv hvx =>
      obtain ⟨c, hc, rfl⟩ := List.mem_map.mp hv
      exact h _ hx ⟨c, hc, Value.char_beq_iff.mp hvx⟩

theorem derives_spaces_iff : Derives env src n Lexical.spaces p o ↔ ∃ q, o = .ok q ∧ src.Blanks p q := by
  rw [Lexical.spaces, derives_star_iff]
  simp only [derives_anyOf_ok_iff, derives_anyOf_fail_iff]
  refine exists_congr fun q => and_congr_right fun _ => ?_
  constructor
  · rintro ⟨hchain, hlast⟩
    have hstops : ∀ x, src.elements[q]? = some x → ¬ x.Blank := hlast.resolve_right (by omega)
    clear hlast
    induction hchain using ReflTransGen.head_induction_on with
    | refl => exact ⟨Nat.le_refl q, by omega, hstops⟩
    | head hstep _ ih =>
      obtain ⟨⟨rfl, hblank⟩, -⟩ := hstep
      exact ih.cons hblank
  · intro hblanks
    refine ⟨?_, .inl hblanks.stops⟩
    have hsteps : ∀ i, p ≤ i → i ≤ q → ReflTransGen (fun a b =>
        (b = a + 1 ∧ ∃ x, src.elements[a]? = some x ∧ x.Blank) ∧ a < b) p i := by
      intro i hi
      induction hi with
      | refl => exact fun _ => .refl
      | step hi ih =>
        intro hlt
        exact (ih (Nat.le_of_lt hlt)).tail ⟨⟨rfl, hblanks.blank _ hi hlt⟩, Nat.lt_succ_self _⟩
    exact hsteps q hblanks.le (Nat.le_refl q)

theorem derives_spaced_iff : Derives env src n (Lexical.spaced separator) p o ↔
    Separates src (Derives env src n separator) true p o := by
  rw [Lexical.spaced, derives_seq_cons_iff]
  simp only [derives_seq_pair_iff, derives_spaces_iff]
  constructor
  · rintro (⟨⟨_, h, -⟩, -⟩ | ⟨a, ⟨_, ⟨⟩, hfront⟩, ⟨hmissing, rfl⟩ | ⟨b, hb, q, rfl, hback⟩⟩)
    · cases h
    · exact .missing hfront hmissing
    · exact .found hfront hb hback
  · intro h
    cases h with
    | found hfront hb hback => exact .inr ⟨_, ⟨_, rfl, hfront⟩, .inr ⟨_, hb, _, rfl, hback⟩⟩
    | missing hfront hmissing => exact .inr ⟨_, ⟨_, rfl, hfront⟩, .inl ⟨hmissing, rfl⟩⟩

theorem derives_separator (separator : Expr) (spaces : Bool) :
    Derives env src n (if spaces then Lexical.spaced separator else separator) =
      Separates src (Derives env src n separator) spaces := by
  funext p o
  cases spaces with
  | true => exact propext derives_spaced_iff
  | false => exact propext ⟨.bare, fun | .bare h => h⟩

theorem last_iff (hp : p ≤ src.size) : Last (Derives env src n item) (Derives env src n separator) p ↔
    Derives env src n (.seq [separator, item]) p .fail ∨ Derives env src n (.seq [separator, item]) p (.ok p) := by
  simp only [derives_seq_pair_iff, Last, and_true, reduceCtorEq, and_false, false_or]
  constructor
  · rintro (h | ⟨s, hs, h | ⟨q, hle, hq⟩⟩)
    · exact .inl (.inl h)
    · exact .inl (.inr ⟨s, hs, h⟩)
    · obtain ⟨hle', hsize⟩ := hs.bounds hp
      obtain ⟨hle'', -⟩ := hq.bounds hsize
      obtain rfl : q = p := by omega
      exact .inr ⟨s, hs, hq⟩
  · rintro ((h | ⟨s, hs, h⟩) | ⟨s, hs, h⟩)
    · exact .inl h
    · exact .inr ⟨s, hs, .inl h⟩
    · exact .inr ⟨s, hs, .inr ⟨p, Nat.le_refl p, h⟩⟩

theorem carries_derives (e : Expr) : Carries src.size (Derives env src n e) (Derives env src n e) :=
  fun _ hp _ ho => ⟨ho, fun _ hq => (hq ▸ ho).bounds hp⟩

theorem derives_delimitedBy_iff (hp : p ≤ src.size) : Derives env src n (Lexical.delimitedBy item separator) p o ↔
    Derives env src n item p .fail ∧ o = .fail ∨
      ∃ q, o = .ok q ∧ Chain (Derives env src n item) (Derives env src n separator) p q := by
  have hnext : (fun a b => Derives env src n (.seq [separator, item]) a (.ok b) ∧ a < b) =
      Next (Derives env src n item) (Derives env src n separator) := by
    funext a b
    simp [derives_seq_pair_iff, Next]
  rw [Lexical.delimitedBy, derives_seq_pair_iff]
  refine or_congr_right ?_
  simp only [derives_star_iff, hnext]
  constructor
  · rintro ⟨first, hfirst, q, rfl, hchain, hlast⟩
    obtain ⟨-, -, hsize⟩ :=
      carry_chain (carries_derives item) (carries_derives separator) (hfirst.bounds hp).2 hchain
    exact ⟨q, rfl, first, hfirst, hchain, (last_iff hsize).mpr hlast⟩
  · rintro ⟨q, rfl, first, hfirst, hchain, hlast⟩
    obtain ⟨-, -, hsize⟩ :=
      carry_chain (carries_derives item) (carries_derives separator) (hfirst.bounds hp).2 hchain
    exact ⟨first, hfirst, q, rfl, hchain, (last_iff hsize).mp hlast⟩

end Expr

/-- What a run comes to at a place of a cursor's source, inside as many rules as the cursor is. -/
def Cursor.Tells (env : Environment) (c : Cursor) (e : Expr) (p : Nat) : Outcome → Prop :=
  ComesTo env e { c with pos := p } {}

section Matches

open Delimited

variable {env : Environment} {c : Cursor} {e : Expr} {p : Nat}

theorem Cursor.tells_iff (hb : env.Plain) (he : e.Plain) (hp : p ≤ c.source.size) (o : Outcome) :
    c.Tells env e p o ↔ Expr.Derives env c.source (c.maxDepth - c.depth) e p o :=
  comesTo_iff (c := { c with pos := p }) hb he rfl hp

theorem Cursor.carries_tells (hb : env.Plain) (he : e.Plain) :
    Carries c.source.size (c.Tells env e) (Expr.Derives env c.source (c.maxDepth - c.depth) e) :=
  fun p hp o ho => Expr.carries_derives e p hp o ((tells_iff hb he hp o).mp ho)

theorem Cursor.carries_to_tells (hb : env.Plain) (he : e.Plain) :
    Carries c.source.size (Expr.Derives env c.source (c.maxDepth - c.depth) e) (c.Tells env e) :=
  fun p hp o ho => ⟨(tells_iff hb he hp o).mpr ho, (Expr.carries_derives e p hp o ho).2⟩

/-- A delimited list fails exactly where an item does, and matches exactly up to the end of a chain of items
that begins there. -/
theorem delimited_chain (env : Environment) (hb : env.Plain) {item separator : Operand} {i s : Expr}
    (hitem : item.convert = .ok i) (hi : i.Plain) (hseparator : separator.convert = .ok s) (hs : s.Plain)
    (spaces : Bool) :
    ∃ e, Lexical.delimited item separator spaces = .ok e ∧
      ∀ (c : Cursor) (p : Nat) (j : Journal), c.pos = p → p ≤ c.source.size →
        (∀ v c' j', c.run env e j = (.ok v, c', j') → ∃ o, c.ComesTo env e j o) ∧
        (c.ComesTo env e j .fail ↔ c.Tells env i p .fail) ∧
        (∀ q, c.ComesTo env e j (.ok q) ↔
          Chain (c.Tells env i) (Separates c.source (c.Tells env s) spaces) p q) ∧
        (∀ q, c.ComesTo env e j (.ok q) → ∃ a, p ≤ a ∧ a ≤ q ∧ c.Tells env i a (.ok q)) := by
  let list := Lexical.delimitedBy i (if spaces then Lexical.spaced s else s)
  have hlist : list.Plain := by
    have hbuilt := Lexical.built_delimitedBy (fun _ _ => trivial) hi hs
    cases spaces with
    | true => exact hbuilt.2
    | false => exact hbuilt.1
  have hmade : Lexical.delimited item separator spaces = .ok list := by
    simp only [Lexical.delimited, hitem, hseparator, bind, Except.bind, list]
  refine ⟨list, hmade, fun c p j hp hle => ?_⟩
  have hitems := Cursor.carries_tells (c := c) hb hi
  have hseparators := (Cursor.carries_tells (c := c) hb hs).separates spaces
  have hmeans : ∀ o, c.ComesTo env list j o ↔ c.Tells env i p .fail ∧ o = .fail ∨
      ∃ q, o = .ok q ∧ Chain (c.Tells env i) (Separates c.source (c.Tells env s) spaces) p q := by
    intro o
    rw [Cursor.comesTo_iff hb hlist hp hle, Expr.derives_delimitedBy_iff hle, Expr.derives_separator,
      Cursor.tells_iff hb hi hle]
    refine or_congr_right (exists_congr fun q => and_congr_right fun _ => ⟨?_, .carry hitems hseparators hle⟩)
    exact .carry (Cursor.carries_to_tells hb hi) ((Cursor.carries_to_tells hb hs).separates spaces) hle
  have hfail : c.ComesTo env list j .fail ↔ c.Tells env i p .fail := by
    simp [hmeans]
  have hok : ∀ q, c.ComesTo env list j (.ok q) ↔
      Chain (c.Tells env i) (Separates c.source (c.Tells env s) spaces) p q := by
    intro q
    simp [hmeans]
  refine ⟨fun v c' j' hrun => ?_, hfail, hok, fun q hq => ?_⟩
  · obtain ⟨o, -, ho⟩ := Cursor.exists_comesTo hb hlist hp hle hrun
    exact ⟨o, ho⟩
  · exact ((hok q).mp hq).exists_item hitems hseparators hle

/-- Behind the second item stand a separator and white space, but no item any more. -/
theorem delimited_chain_letters :
    let env : Environment := fun _ => {}
    let item : Operand := .value (.text ['a'])
    let separator : Operand := .value (.text [','])
    let i : Expr := .ofText ['a']
    let s : Expr := .ofText [',']
    let c : Cursor := ⟨.text #['a', ' ', ',', 'a', ',', ' '], 0, 1, 0⟩
    env.Plain ∧ (item.convert = .ok i ∧ i.Plain) ∧ (separator.convert = .ok s ∧ s.Plain) ∧
      (c.pos = (0 : Nat) ∧ 0 ≤ c.source.size) ∧
      (∃ e, Lexical.delimited item separator true = .ok e ∧ c.ComesTo env e {} (.ok 4)) ∧
      (∃ e, Lexical.delimited item separator false = .ok e ∧ c.ComesTo env e {} (.ok 1)) := by
  intro env item separator i s c
  have hb : env.Plain := nofun
  have hplain : ∀ text, (Expr.ofText text).Plain := Lexical.built_ofText fun _ _ => trivial
  have hstops : ∀ q, (∀ x ∈ c.source.elements[q]?, x = .char 'a' ∨ x = .char ',') → c.source.Blanks q q := by
    intro q hq
    refine ⟨Nat.le_refl q, by omega, ?_⟩
    rintro x hx ⟨d, hd, rfl⟩
    rcases hq _ hx with h | h
    · cases Value.char_inj.mp h
      exact absurd hd (by decide)
    · cases Value.char_inj.mp h
      exact absurd hd (by decide)
  have hspaces : Chain (c.Tells env i) (Separates c.source (c.Tells env s) true) 0 4 := by
    have hcomma : c.source.Blanks 2 2 := hstops 2 (by rintro _ ⟨⟩; exact .inr rfl)
    have hletter : c.source.Blanks 3 3 := hstops 3 (by rintro _ ⟨⟩; exact .inl rfl)
    have hcomma' : c.source.Blanks 4 4 := hstops 4 (by rintro _ ⟨⟩; exact .inr rfl)
    have hend : c.source.Blanks 6 6 := hstops 6 (by rintro _ ⟨⟩)
    have hspace : ∃ x, c.source.elements[1]? = some x ∧ x.Blank := ⟨_, rfl, ' ', by decide, rfl⟩
    have hspace' : ∃ x, c.source.elements[5]? = some x ∧ x.Blank := ⟨_, rfl, ' ', by decide, rfl⟩
    refine ⟨1, .ok rfl rfl, .single ⟨⟨3, ?_, .ok rfl rfl⟩, by decide⟩, .inr ⟨6, ?_, .inl (.fail rfl rfl)⟩⟩
    · exact .found (hcomma.cons hspace) (.ok rfl rfl) hletter
    · exact .found hcomma' (.ok rfl rfl) (hend.cons hspace')
  have hbare : Chain (c.Tells env i) (Separates c.source (c.Tells env s) false) 0 1 :=
    ⟨1, .ok rfl rfl, .refl, .inl (.bare (.fail rfl rfl))⟩
  have hmatch : ∀ spaces q, Chain (c.Tells env i) (Separates c.source (c.Tells env s) spaces) 0 q →
      ∃ e, Lexical.delimited item separator spaces = .ok e ∧ c.ComesTo env e {} (.ok q) := by
    intro spaces q hchain
    have hitem : item.convert = .ok i := rfl
    have hseparator : separator.convert = .ok s := rfl
    obtain ⟨e, he, hruns⟩ := delimited_chain env hb hitem (hplain _) hseparator (hplain _) spaces
    exact ⟨e, he, ((hruns c 0 {} rfl (Nat.zero_le _)).2.2.1 q).mpr hchain⟩
  exact ⟨hb, ⟨rfl, hplain _⟩, ⟨rfl, hplain _⟩, ⟨rfl, Nat.zero_le _⟩, hmatch true 4 hspaces, hmatch false 1 hbare⟩

end Matches

end PegMatcher
