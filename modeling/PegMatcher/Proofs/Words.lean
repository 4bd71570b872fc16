import Mathlib.Computability.Language

/-!
# Longest words

The longest word of a language that stands in front of some characters. That of a product is made of the
longest words of its factors if no word of the first factor can go on as those of the second begin; that of
a sum is the one of its first summand if no word of the second goes on a word of the first.
-/

namespace PegMatcher

set_option autoImplicit false

open scoped Computability

def among (ds : List Char) : Language Char := {w | ∃ c ∈ ds, w = [c]}

/-- The words of one or more characters, which are among some. -/
def runs (ds : List Char) : Language Char := among ds * (among ds)∗

/-- The length of the longest word that stands in front, if one does. -/
inductive Longest (L : Language Char) (cs : List Char) : Option Nat → Prop where
  | found {w : List Char} : w ∈ L → w <+: cs → (∀ v ∈ L, v <+: cs → v.length ≤ w.length) →
      Longest L cs (some w.length)
  | missing : (∀ v ∈ L, ¬ v <+: cs) → Longest L cs none

/-- What goes on a word of the language to another one begins with one of some characters. -/
def GoesOnWith (L : Language Char) (ds : List Char) : Prop :=
  ∀ u x t, u ∈ L → u ++ x :: t ∈ L → x ∈ ds

/-- No word of the language begins with one of some characters. -/
def Avoids (L : Language Char) (ds : List Char) : Prop := ∀ x t, x :: t ∈ L → x ∉ ds

/-- No word of the second language goes on a word of the first. -/
def Outlasts (L K : Language Char) : Prop := ∀ u x t, u ∈ L → u ++ x :: t ∉ K

variable {L K : Language Char} {cs ds es u v w : List Char} {c : Char} {n : Nat} {n? m? : Option Nat}

theorem mem_kstar_among : w ∈ (among ds)∗ ↔ ∀ c ∈ w, c ∈ ds := by
  constructor
  · intro hw c hc
    obtain ⟨ws, rfl, hws⟩ := Language.mem_kstar.mp hw
    obtain ⟨w, hmem, hc⟩ := List.mem_flatten.mp hc
    obtain ⟨d, hd, rfl⟩ := hws w hmem
    exact List.mem_singleton.mp hc ▸ hd
  · intro hw
    induction w with
    | nil => exact Language.nil_mem_kstar _
    | cons c w ih =>
      obtain ⟨hc, hw⟩ := List.forall_mem_cons.mp hw
      have hle : among ds * (among ds)∗ ≤ (among ds)∗ := mul_kstar_le_kstar
      exact hle (Language.mem_mul.mpr ⟨[c], ⟨c, hc, rfl⟩, w, ih hw, rfl⟩)

theorem mem_runs : w ∈ runs ds ↔ w ≠ [] ∧ ∀ c ∈ w, c ∈ ds := by
  constructor
  · intro hw
    obtain ⟨_, ⟨c, hc, rfl⟩, v, hv, rfl⟩ := Language.mem_mul.mp hw
    exact ⟨List.cons_ne_nil c v, List.forall_mem_cons.mpr ⟨hc, mem_kstar_among.mp hv⟩⟩
  · rintro ⟨hne, hw⟩
    cases w with
    | nil => exact absurd rfl hne
    | cons c w =>
      obtain ⟨hc, hw⟩ := List.forall_mem_cons.mp hw
      exact Language.mem_mul.mpr ⟨[c], ⟨c, hc, rfl⟩, w, mem_kstar_among.mpr hw, rfl⟩

theorem among_append (ds es : List Char) : among (ds ++ es) = among ds + among es := by
  ext w
  simp only [Language.mem_add]
  constructor
  · rintro ⟨c, hc, rfl⟩
    exact (List.mem_append.mp hc).imp (fun hc => ⟨c, hc, rfl⟩) fun hc => ⟨c, hc, rfl⟩
  · rintro (⟨c, hc, rfl⟩ | ⟨c, hc, rfl⟩)
    · exact ⟨c, List.mem_append_left es hc, rfl⟩
    · exact ⟨c, List.mem_append_right ds hc, rfl⟩

theorem among_singleton (c : Char) : among [c] = {[c]} := by
  ext w
  constructor
  · rintro ⟨d, hd, rfl⟩
    rw [List.mem_singleton.mp hd]
    rfl
  · rintro rfl
    exact ⟨c, List.mem_singleton_self c, rfl⟩

theorem nil_notMem_among : [] ∉ among ds := fun ⟨_, _, h⟩ => nomatch h

theorem nil_notMem_runs : [] ∉ runs ds := fun h => (mem_runs.mp h).1 rfl

theorem Avoids.nil (L : Language Char) : Avoids L [] := fun _ _ _ => List.not_mem_nil

theorem avoids_one : Avoids 1 ds := fun _ _ h => nomatch (Language.mem_one _).mp h

theorem avoids_among (h : ∀ c ∈ es, c ∉ ds) : Avoids (among es) ds := by
  rintro x t ⟨c, hc, hw⟩
  obtain ⟨rfl, -⟩ := List.cons.inj hw
  exact h x hc

theorem avoids_runs (h : ∀ c ∈ es, c ∉ ds) : Avoids (runs es) ds := fun x _ hw =>
  h x ((mem_runs.mp hw).2 x List.mem_cons_self)

theorem Avoids.add (hL : Avoids L ds) (hK : Avoids K ds) : Avoids (L + K) ds := fun x t h =>
  ((Language.mem_add L K _).mp h).elim (hL x t) (hK x t)

theorem Avoids.mul (hL : Avoids L ds) (hnil : [] ∉ L) : Avoids (L * K) ds := by
  intro x t h
  obtain ⟨u, hu, v, -, heq⟩ := Language.mem_mul.mp h
  cases u with
  | nil => exact absurd hu hnil
  | cons y u =>
    obtain ⟨rfl, -⟩ := List.cons.inj heq
    exact hL y u hu

theorem Avoids.kstar (hL : Avoids L ds) : Avoids L∗ ds := by
  intro x t h
  obtain ⟨ws, heq, hws⟩ := Language.mem_kstar_iff_exists_nonempty.mp h
  cases ws with
  | nil => cases heq
  | cons w ws =>
    obtain ⟨hw, hne⟩ := hws w List.mem_cons_self
    cases w with
    | nil => exact absurd rfl hne
    | cons y w =>
      obtain ⟨rfl, -⟩ := List.cons.inj heq
      exact hL x w hw

theorem Avoids.head?_notMem {rest : List Char} (hL : Avoids L ds) (hnil : [] ∉ L) (hw : w ∈ L) :
    ∀ c ∈ (w ++ rest).head?, c ∉ ds := by
  cases w with
  | nil => exact absurd hw hnil
  | cons x w =>
    rintro _ ⟨⟩
    exact hL x w hw

theorem goesOnWith_among : GoesOnWith (among es) ds := by
  rintro u x t ⟨c, -, rfl⟩ ⟨d, -, h⟩
  simp at h

theorem goesOnWith_optional : GoesOnWith (1 + among ds) ds := by
  intro u x t hu h
  rcases (Language.mem_add _ _ _).mp h with h | ⟨c, hc, h⟩
  · exact absurd ((Language.mem_one _).mp h) (by simp)
  · cases u with
    | nil =>
      obtain ⟨rfl, -⟩ := List.cons.inj h
      exact hc
    | cons y u => simp at h

theorem goesOnWith_kstar : GoesOnWith (among ds)∗ ds := fun _ _ _ _ h =>
  mem_kstar_among.mp h _ (by simp)

theorem goesOnWith_runs : GoesOnWith (runs ds) ds := fun _ _ _ _ h => (mem_runs.mp h).2 _ (by simp)

theorem Outlasts.add {K' : Language Char} (h : Outlasts L K) (h' : Outlasts L K') :
    Outlasts L (K + K') := fun u x t hu hv =>
  ((Language.mem_add K K' _).mp hv).elim (h u x t hu) (h' u x t hu)

theorem outlasts_one : Outlasts L 1 := fun u x t _ h => absurd ((Language.mem_one _).mp h) (by simp)

theorem outlasts_among : Outlasts (among ds) (among es) := by
  rintro u x t ⟨c, -, rfl⟩ ⟨d, -, h⟩
  simp at h

/-- Words that begin differently do not go on each other. -/
theorem outlasts_among_mul (hK : Avoids K ds) : Outlasts (among ds * L) K := by
  intro u x t hu hv
  obtain ⟨_, ⟨c, hc, rfl⟩, u, -, rfl⟩ := Language.mem_mul.mp hu
  exact hK c _ hv hc

theorem outlasts_runs_mul (hK : Avoids K ds) : Outlasts (runs ds * L) K := by
  rw [runs, mul_assoc]
  exact outlasts_among_mul hK

theorem Longest.unique (h : Longest L cs n?) (h' : Longest L cs m?) : m? = n? := by
  cases h with
  | found hw hcs hmax =>
    cases h' with
    | found hw' hcs' hmax' => rw [Nat.le_antisymm (hmax _ hw' hcs') (hmax' _ hw hcs)]
    | missing hno => exact absurd hcs (hno _ hw)
  | missing hno =>
    cases h' with
    | found hw hcs _ => exact absurd hcs (hno _ hw)
    | missing _ => rfl

/-- A word is the longest if what follows it is none of what it could go on with. -/
theorem GoesOnWith.longest {rest : List Char} (hL : GoesOnWith L ds) (hw : w ∈ L)
    (hrest : ∀ c ∈ rest.head?, c ∉ ds) : Longest L (w ++ rest) (some w.length) := by
  refine .found hw (List.prefix_append w rest) fun v hv hpre => ?_
  by_contra hlt
  obtain ⟨t, rfl⟩ := List.prefix_of_prefix_length_le (List.prefix_append w rest) hpre (Nat.le_of_not_le hlt)
  cases t with
  | nil => simp at hlt
  | cons x t =>
    obtain ⟨more, rfl⟩ := (List.prefix_append_right_inj w).mp hpre
    exact hrest x rfl (hL w x t hw hv)

theorem longest_among_none (h : ∀ c ∈ cs.head?, c ∉ ds) : Longest (among ds) cs none := by
  refine .missing ?_
  rintro _ ⟨c, hc, rfl⟩ ⟨rest, rfl⟩
  exact h c rfl hc

theorem Longest.head?_notMem (h : Longest (among ds) cs none) : ∀ c ∈ cs.head?, c ∉ ds := by
  cases h with
  | missing hno =>
    intro c hc hmem
    obtain ⟨rest, rfl⟩ := List.head?_eq_some_iff.mp hc
    exact hno [c] ⟨c, hmem, rfl⟩ ⟨rest, rfl⟩

theorem longest_singleton (h : w <+: cs) : Longest {w} cs (some w.length) :=
  .found rfl h fun _ hv _ => Nat.le_of_eq (congrArg List.length hv)

theorem longest_singleton_none (h : ¬ w <+: cs) : Longest {w} cs none :=
  .missing fun _ hv => Eq.symm hv ▸ h

/-- The longest word is all there is exactly if all there is is a word. -/
theorem Longest.eq_length_iff (h : Longest L cs n?) : n? = some cs.length ↔ cs ∈ L := by
  cases h with
  | @found w hw hcs hmax =>
    constructor
    · intro hlength
      exact hcs.eq_of_length (Option.some.inj hlength) ▸ hw
    · intro hmem
      rw [Nat.le_antisymm hcs.length_le (hmax cs hmem (List.prefix_refl cs))]
  | missing hno => exact ⟨nofun, fun hmem => absurd (List.prefix_refl cs) (hno cs hmem)⟩

theorem Longest.le_length (h : Longest L cs (some n)) : n ≤ cs.length := by
  cases h with
  | found _ hcs _ => exact hcs.length_le

theorem Longest.length_le (h : Longest L cs (some n)) (hw : w ∈ L) (hcs : w <+: cs) : w.length ≤ n := by
  cases h with
  | found _ _ hmax => exact hmax w hw hcs

theorem Longest.eq_one (h : Longest (among ds) cs (some n)) : n = 1 := by
  cases h with
  | found hw _ _ =>
    obtain ⟨c, -, rfl⟩ := hw
    rfl

theorem Longest.pos (h : Longest L cs (some n)) (hnil : [] ∉ L) : 0 < n := by
  cases h with
  | found hw _ _ => exact List.length_pos_iff.mpr fun heq => hnil (heq ▸ hw)

theorem Longest.exists_some (h : Longest L cs n?) (hnil : [] ∈ L) : ∃ n, n? = some n := by
  cases h with
  | found _ _ _ => exact ⟨_, rfl⟩
  | missing hno => exact absurd List.nil_prefix (hno [] hnil)

theorem Longest.mul_missing (h : Longest L cs none) (K : Language Char) : Longest (L * K) cs none := by
  cases h with
  | missing hno =>
    refine .missing fun w hw hcs => ?_
    obtain ⟨u, hu, v, -, rfl⟩ := Language.mem_mul.mp hw
    exact hno u hu ((List.prefix_append u v).trans hcs)

/-- Behind a word that is not the longest of the first factor no word of the second begins. -/
theorem GoesOnWith.eq_or_eq_nil (hL : GoesOnWith L ds) (hK : Avoids K ds) (hu : u ∈ L) (hv : v ∈ K) (hw : w ∈ L)
    (huv : u ++ v <+: cs) (hcs : w <+: cs) (hle : u.length ≤ w.length) : u = w ∨ v = [] := by
  obtain ⟨t, rfl⟩ := List.prefix_of_prefix_length_le ((List.prefix_append u v).trans huv) hcs hle
  cases t with
  | nil => exact .inl (List.append_nil u).symm
  | cons x t =>
    cases v with
    | nil => exact .inr rfl
    | cons y v =>
      obtain ⟨rest, rfl⟩ := huv
      obtain ⟨rest', heq⟩ := hcs
      simp only [List.append_assoc, List.append_cancel_left_eq, List.cons_append, List.cons.injEq] at heq
      obtain ⟨rfl, -⟩ := heq
      exact absurd (hL u x t hu hw) (hK x v hv)

theorem Longest.mul (hL : GoesOnWith L ds) (hK : Avoids K ds) (h : Longest L cs (some n))
    (h' : Longest K (cs.drop n) m?) : Longest (L * K) cs (m?.map (n + ·)) := by
  cases h with
  | @found w hw hcs hmax =>
    obtain ⟨rest, rfl⟩ := hcs
    rw [List.drop_left] at h'
    have hsplit : ∀ u ∈ L, ∀ v ∈ K, u ++ v <+: w ++ rest → u.length ≤ w.length ∧
        (v <+: rest ∨ v = []) := by
      intro u hu v hv huv
      have hle := hmax u hu ((List.prefix_append u v).trans huv)
      refine ⟨hle, ?_⟩
      rcases hL.eq_or_eq_nil hK hu hv hw huv (List.prefix_append w rest) hle with rfl | rfl
      · exact .inl ((List.prefix_append_right_inj u).mp huv)
      · exact .inr rfl
    cases h' with
    | @found v' hv' hrest hmax' =>
      have hlength : (w ++ v').length = w.length + v'.length := List.length_append
      rw [Option.map_some, ← hlength]
      refine .found (Language.append_mem_mul hw hv') ((List.prefix_append_right_inj w).mpr hrest) ?_
      intro z hz hcs
      obtain ⟨u, hu, v, hv, rfl⟩ := Language.mem_mul.mp hz
      obtain ⟨hle, hv' | rfl⟩ := hsplit u hu v hv hcs
      · have hle' := hmax' v hv hv'
        simp only [List.length_append]
        omega
      · simp only [List.length_append, List.length_nil]
        omega
    | missing hno =>
      refine .missing fun z hz hcs => ?_
      obtain ⟨u, hu, v, hv, rfl⟩ := Language.mem_mul.mp hz
      obtain ⟨-, hv' | rfl⟩ := hsplit u hu v hv hcs
      · exact hno v hv hv'
      · exact hno [] hv List.nil_prefix

theorem Longest.mul_append {rest : List Char} (hL : GoesOnWith L ds) (hK : Avoids K ds)
    (h : Longest L (w ++ rest) (some w.length)) (h' : Longest K rest m?) :
    Longest (L * K) (w ++ rest) (m?.map (w.length + ·)) := by
  refine h.mul hL hK ?_
  rwa [List.drop_left]

theorem Longest.among_mul (hc : c ∈ ds) (h : Longest K cs m?) :
    Longest (among ds * K) (c :: cs) (m?.map (1 + ·)) := by
  have hchar : Longest (among ds) ([c] ++ cs) (some [c].length) :=
    goesOnWith_among.longest ⟨c, hc, rfl⟩ fun _ _ => List.not_mem_nil
  exact hchar.mul_append goesOnWith_among (Avoids.nil K) h

theorem Longest.add_missing (h : Longest L cs none) (h' : Longest K cs n?) : Longest (L + K) cs n? := by
  cases h with
  | missing hno =>
    cases h' with
    | found hw hcs hmax =>
      refine .found ((Language.mem_add L K _).mpr (.inr hw)) hcs fun v hv hpre => ?_
      rcases (Language.mem_add L K v).mp hv with hv | hv
      · exact absurd hpre (hno v hv)
      · exact hmax v hv hpre
    | missing hno' =>
      exact .missing fun v hv => ((Language.mem_add L K v).mp hv).elim (hno v) (hno' v)

theorem Longest.add_found (hK : Outlasts L K) (h : Longest L cs (some n)) :
    Longest (L + K) cs (some n) := by
  cases h with
  | @found w hw hcs hmax =>
    refine .found ((Language.mem_add L K w).mpr (.inl hw)) hcs fun v hv hpre => ?_
    rcases (Language.mem_add L K v).mp hv with hv | hv
    · exact hmax v hv hpre
    · by_contra hlt
      obtain ⟨t, rfl⟩ := List.prefix_of_prefix_length_le hcs hpre (Nat.le_of_not_le hlt)
      cases t with
      | nil => simp at hlt
      | cons x t => exact hK w x t hw hv

theorem Longest.optional (h : Longest L cs n?) : Longest (1 + L) cs (some (n?.getD 0)) := by
  rw [add_comm]
  cases n? with
  | some n => exact h.add_found outlasts_one
  | none =>
    refine h.add_missing (.found (w := []) ((Language.mem_one _).mpr rfl) List.nil_prefix ?_)
    intro v hv _
    rw [(Language.mem_one v).mp hv]

end PegMatcher
