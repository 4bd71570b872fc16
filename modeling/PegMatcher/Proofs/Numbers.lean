import PegMatcher.Lexical
import PegMatcher.Proofs.LongestMatches

/-!
# Numbers

What numbers are, as languages over ASCII characters, and that the parsers for them take the longest number
that stands at a place. What makes the parts fit together is that no digit begins a fraction or an exponent,
no sign a number without one, and that behind a zero the mark of a base is no digit.
-/

namespace PegMatcher

set_option autoImplicit false

open scoped Computability

namespace Number

def digits : List Char := ['0', '1', '2', '3', '4', '5', '6', '7', '8', '9']

def sign : Language Char := 1 + among ['+', '-']

def exponent : Language Char := among ['e', 'E'] * sign * runs digits

/-- Digits with a point behind or among them, digits with an exponent, or a point and digits. -/
def decimals : Language Char :=
  sign * (runs digits * among ['.'] * (among digits)∗ * (1 + exponent) + runs digits * exponent +
    among ['.'] * runs digits * (1 + exponent))

inductive Base where
  | binary
  | octal
  | hexadecimal
deriving DecidableEq

def Base.marks : Base → List Char
  | .binary => ['b', 'B']
  | .octal => ['o', 'O']
  | .hexadecimal => ['x', 'X']

def Base.digits : Base → List Char
  | .binary => ['0', '1']
  | .octal => ['0', '1', '2', '3', '4', '5', '6', '7']
  | .hexadecimal => Number.digits ++ ['a', 'b', 'c', 'd', 'e', 'f', 'A', 'B', 'C', 'D', 'E', 'F']

/-- A zero, a mark of the base and digits of the base. -/
def Base.words (b : Base) : Language Char := among ['0'] * among b.marks * runs b.digits

def unsigned : Language Char :=
  Base.binary.words + Base.octal.words + Base.hexadecimal.words + runs digits

def integers : Language Char := sign * unsigned

variable {env : Environment} {b b' : Base} {c : Char} {ds rest w : List Char} {K : Language Char}

theorem mem_digits : c ∈ digits ↔ '0' ≤ c ∧ c ≤ '9' := by
  have hbounds : ∀ c ∈ digits, '0' ≤ c ∧ c ≤ '9' := by simp [digits]
  have hcodes : ∀ n < 58, 48 ≤ n → Char.ofNat n ∈ digits := by decide
  refine ⟨hbounds c, fun ⟨hlow, hhigh⟩ => ?_⟩
  have hlow : 48 ≤ c.toNat := hlow
  have hhigh : c.toNat ≤ 57 := hhigh
  have hmem := hcodes c.toNat (Nat.lt_succ_of_le hhigh) hlow
  rwa [Char.ofNat_toNat] at hmem

theorem recognises_digit : Lexical.digit.Recognises env (among digits) :=
  Expr.recognises_between fun _ => mem_digits

theorem recognises_digits : (Expr.plus Lexical.digit).Recognises env (runs digits) :=
  recognises_digit.plus_among

theorem recognises_sign : Lexical.sign.Recognises env sign := (Expr.recognises_anyOf _).opt

theorem recognises_exponent : Lexical.exponent.Recognises env exponent := by
  have hrest : (Expr.seq [Lexical.sign, .plus Lexical.digit]).Recognises env (sign * runs digits) :=
    recognises_sign.seq_cons recognises_digits.seq_one goesOnWith_optional (avoids_runs (by simp [digits]))
  rw [exponent, mul_assoc]
  exact (Expr.recognises_anyOf _).seq_among hrest

theorem decimals_eq : decimals = sign * (runs digits *
      (among ['.'] * ((among digits)∗ * (1 + exponent)) + exponent) +
    among ['.'] * (runs digits * (1 + exponent))) := by
  simp only [decimals, mul_add, mul_assoc]

theorem avoids_exponent (h : ∀ c ∈ ['e', 'E'], c ∉ ds) : Avoids exponent ds := by
  rw [exponent, mul_assoc]
  exact (avoids_among h).mul nil_notMem_among

theorem avoids_optional_exponent : Avoids (1 + exponent) digits :=
  avoids_one.add (avoids_exponent (by simp [digits]))

theorem avoids_point : Avoids (among ['.'] * K) digits :=
  (avoids_among (by simp [digits])).mul nil_notMem_among

theorem avoids_tail : Avoids (among ['.'] * K + exponent) digits :=
  avoids_point.add (avoids_exponent (by simp [digits]))

theorem avoids_unsigned_decimal {L M : Language Char} :
    Avoids (runs digits * L + among ['.'] * M) ['+', '-'] :=
  ((avoids_runs (by simp [digits])).mul nil_notMem_runs).add
    ((avoids_among (by simp)).mul nil_notMem_among)

theorem outlasts_fraction : Outlasts (among ['.'] * K) exponent :=
  outlasts_among_mul (avoids_exponent (by simp))

theorem outlasts_whole {L : Language Char} : Outlasts (runs digits * L) (among ['.'] * K) :=
  outlasts_runs_mul avoids_point

theorem recognises_fraction : (Expr.seq [Lexical.character '.', .star Lexical.digit,
    .opt Lexical.exponent]).Recognises env (among ['.'] * ((among digits)∗ * (1 + exponent))) := by
  have hrest : (Expr.seq [.star Lexical.digit, .opt Lexical.exponent]).Recognises env
      ((among digits)∗ * (1 + exponent)) :=
    recognises_digit.star_among.seq_cons recognises_exponent.opt.seq_one goesOnWith_kstar
      avoids_optional_exponent
  exact (Expr.recognises_character '.').seq_among hrest

theorem recognises_pointed : (Expr.seq [Lexical.character '.', .plus Lexical.digit,
    .opt Lexical.exponent]).Recognises env (among ['.'] * (runs digits * (1 + exponent))) := by
  have hrest : (Expr.seq [.plus Lexical.digit, .opt Lexical.exponent]).Recognises env
      (runs digits * (1 + exponent)) :=
    recognises_digits.seq_cons recognises_exponent.opt.seq_one goesOnWith_runs avoids_optional_exponent
  exact (Expr.recognises_character '.').seq_among hrest

theorem recognises_decimal : Lexical.decimal.Recognises env decimals := by
  have htail : (Expr.choice _).Recognises env
      (among ['.'] * ((among digits)∗ * (1 + exponent)) + exponent) :=
    recognises_fraction.choice_cons recognises_exponent.choice_one outlasts_fraction
  have hwhole := recognises_digits.seq_cons htail.seq_one goesOnWith_runs avoids_tail
  have hbody := hwhole.choice_cons recognises_pointed.choice_one outlasts_whole
  rw [decimals_eq]
  exact recognises_sign.seq_cons hbody.seq_one goesOnWith_optional avoids_unsigned_decimal

/-- A fraction ends with its digits if no exponent stands behind them. -/
theorem longest_decimals_fraction {whole fraction : List Char} (hwhole : whole ∈ runs digits)
    (hfraction : ∀ c ∈ fraction, c ∈ digits) (hrest : ∀ c ∈ rest.head?, c ∉ digits)
    (hexponent : Longest exponent rest none) :
    Longest decimals (whole ++ '.' :: (fraction ++ rest)) (some (whole.length + (1 + fraction.length))) := by
  have hdigits : Longest ((among digits)∗ * (1 + exponent)) (fraction ++ rest) (some fraction.length) :=
    (goesOnWith_kstar.longest (mem_kstar_among.mpr hfraction) hrest).mul_append goesOnWith_kstar
      avoids_optional_exponent hexponent.optional
  have htail := (Longest.among_mul (List.mem_singleton_self '.') hdigits).add_found outlasts_fraction
  have hnext : ∀ c ∈ ('.' :: (fraction ++ rest)).head?, c ∉ digits := by
    rintro c ⟨⟩
    simp [digits]
  have hbody := ((goesOnWith_runs.longest hwhole hnext).mul_append goesOnWith_runs avoids_tail
    htail).add_found (K := among ['.'] * (runs digits * (1 + exponent))) outlasts_whole
  have hsign : Longest sign ([] ++ (whole ++ '.' :: (fraction ++ rest))) (some 0) := by
    refine goesOnWith_optional.longest ((Language.mem_add _ _ _).mpr (.inl rfl)) ?_
    exact (avoids_runs (by simp [digits])).head?_notMem nil_notMem_runs hwhole
  rw [decimals_eq, ← Nat.zero_add (whole.length + _)]
  exact hsign.mul goesOnWith_optional avoids_unsigned_decimal hbody

theorem Base.eq_of_mark : ∀ c ∈ b.marks, c ∈ b'.marks → b' = b := by
  cases b <;> cases b' <;> simp [marks]

theorem Base.mark_notMem_digits : ∀ c ∈ b.marks, c ∉ Number.digits := by
  cases b <;> simp [marks, Number.digits]

theorem Base.exists_of_mem_words (h : w ∈ b.words) :
    ∃ m ∈ b.marks, ∃ d ∈ b.digits, ∃ t, w = '0' :: m :: d :: t := by
  obtain ⟨_, hfront, v, hv, rfl⟩ := Language.mem_mul.mp h
  obtain ⟨_, ⟨zero, hzero, rfl⟩, _, ⟨m, hm, rfl⟩, rfl⟩ := Language.mem_mul.mp hfront
  obtain ⟨hne, hdigits⟩ := mem_runs.mp hv
  obtain rfl := List.mem_singleton.mp hzero
  cases v with
  | nil => exact absurd rfl hne
  | cons d t => exact ⟨m, hm, d, hdigits d List.mem_cons_self, t, rfl⟩

/-- What has no mark of the base behind a zero does not go on a word of it. -/
theorem Base.outlasts (h : ∀ m ∈ b.marks, ∀ t, '0' :: m :: t ∉ K) : Outlasts b.words K := by
  intro u x t hu
  obtain ⟨m, hm, d, -, v, rfl⟩ := exists_of_mem_words hu
  exact h m hm _

theorem Base.outlasts_base (hne : b' ≠ b) : Outlasts b.words b'.words := by
  refine outlasts fun m hm t hw => ?_
  obtain ⟨m', hm', d, -, v, heq⟩ := exists_of_mem_words hw
  obtain ⟨rfl, -⟩ := List.cons.inj (List.cons.inj heq).2
  exact hne (eq_of_mark m hm hm')

theorem Base.outlasts_digits : Outlasts b.words (runs Number.digits) :=
  outlasts fun m hm _ hw => mark_notMem_digits m hm ((mem_runs.mp hw).2 _ (by simp))

theorem Base.avoids_words (h : '0' ∉ ds) : Avoids b.words ds := by
  intro x t hw
  obtain ⟨m, hm, d, -, v, heq⟩ := exists_of_mem_words hw
  obtain ⟨rfl, -⟩ := List.cons.inj heq
  exact h

theorem avoids_unsigned : Avoids unsigned ['+', '-'] := by
  have hzero : '0' ∉ ['+', '-'] := by decide
  exact (((Base.avoids_words hzero).add (Base.avoids_words hzero)).add (Base.avoids_words hzero)).add
    (avoids_runs (by simp [digits]))

theorem recognises_based {e : Expr} (small large : Char) (h : e.Recognises env (among ds)) :
    (Lexical.based small large e).Recognises env (among ['0'] * among [small, large] * runs ds) := by
  rw [mul_assoc]
  exact (Expr.recognises_character '0').seq_among
    ((Expr.recognises_anyOf [small, large]).seq_among h.plus_among.seq_one)

theorem recognises_integer : Lexical.integer.Recognises env integers := by
  have hbinary : (Lexical.based 'b' 'B' (Lexical.anyOf Lexical.binaryDigits)).Recognises env Base.binary.words :=
    recognises_based 'b' 'B' (Expr.recognises_anyOf _)
  have hoctal : (Lexical.based 'o' 'O' (Lexical.anyOf Lexical.octalDigits)).Recognises env Base.octal.words :=
    recognises_based 'o' 'O' (Expr.recognises_anyOf _)
  have hhexadecimal : (Lexical.based 'x' 'X' Lexical.hexDigit).Recognises env Base.hexadecimal.words :=
    recognises_based 'x' 'X' (Expr.recognises_anyOf _)
  have hbody : (Expr.choice _).Recognises env _ :=
    hbinary.choice_cons (hoctal.choice_cons (hhexadecimal.choice_cons recognises_digits.choice_one
      Base.outlasts_digits) ((Base.outlasts_base (by simp)).add Base.outlasts_digits))
      ((Base.outlasts_base (by simp)).add ((Base.outlasts_base (by simp)).add Base.outlasts_digits))
  rw [← add_assoc, ← add_assoc] at hbody
  exact recognises_sign.seq_cons hbody.seq_one goesOnWith_optional avoids_unsigned

theorem Base.longest_words_none (hc : c ∈ b.marks) (hrest : ∀ d ∈ rest.head?, d ∉ b.digits) (b' : Base) :
    Longest b'.words ('0' :: c :: rest) none := by
  refine .missing fun v hv hpre => ?_
  obtain ⟨m, hm, d, hd, t, rfl⟩ := exists_of_mem_words hv
  obtain ⟨-, hpre⟩ := List.cons_prefix_cons.mp hpre
  obtain ⟨rfl, more, rfl⟩ := List.cons_prefix_cons.mp hpre
  obtain rfl := eq_of_mark m hc hm
  exact hrest d rfl hd

/-- Of a zero and a mark that no digit of the base follows nothing but the zero is a number. -/
theorem longest_unsigned_zero (hc : c ∈ b.marks) (hrest : ∀ d ∈ rest.head?, d ∉ b.digits) :
    Longest unsigned ('0' :: c :: rest) (some 1) := by
  have hmissing := Base.longest_words_none hc hrest
  have hzero : ['0'] ∈ runs digits := mem_runs.mpr ⟨by simp, by simp [digits]⟩
  have hnext : ∀ d ∈ (c :: rest).head?, d ∉ digits := by
    rintro d ⟨⟩
    exact Base.mark_notMem_digits c hc
  exact (((hmissing .binary).add_missing (hmissing .octal)).add_missing (hmissing .hexadecimal)).add_missing
    (goesOnWith_runs.longest hzero hnext)

theorem longest_integers_zero (hw : w ∈ sign) (hc : c ∈ b.marks) (hrest : ∀ d ∈ rest.head?, d ∉ b.digits) :
    Longest integers (w ++ '0' :: c :: rest) (some (w.length + 1)) := by
  have hsign : Longest sign (w ++ '0' :: c :: rest) (some w.length) := by
    refine goesOnWith_optional.longest hw ?_
    rintro d ⟨⟩
    decide
  exact hsign.mul_append goesOnWith_optional avoids_unsigned (longest_unsigned_zero hc hrest)

end Number

/-- A decimal number is matched as far as the longest one goes that stands at a position, and a text is matched
as a whole exactly if it is one. -/
theorem decimal_longest (env : Environment) (limit : Int) (chars : List Char) (j : Journal) :
    let input : Input := .value (.text chars)
    (∀ p ≤ chars.length, ∃ n?, Longest Number.decimals (chars.drop p) n? ∧
      (matchAt env limit (.parser Lexical.decimal) input p).answer j =
        .ok (n?.map fun n => ((p + n : Nat) : Int))) ∧
    ∃ whole, (matchesWhole env limit (.parser Lexical.decimal) input).answer j = .ok whole ∧
      (whole = true ↔ chars ∈ Number.decimals) :=
  ⟨fun _ hp => Number.recognises_decimal.answer_matchAt limit hp j,
    Number.recognises_decimal.answer_matchesWhole limit chars j⟩

theorem decimal_longest_no_exponent :
    let chars := ['1', '.', '5', 'e', '+', 'x']
    let p : Operand := .parser Lexical.decimal
    let env : Environment := fun _ => {}
    0 ≤ chars.length ∧ (matchAt env 1000 p (.value (.text chars)) 0).answer {} = .ok (some 3) ∧
      (matchesWhole env 1000 p (.value (.text chars))).answer {} = .ok false := by
  intro chars p env
  have hexponent : Longest Number.exponent ['e', '+', 'x'] none := by
    have hdigits : Longest (runs Number.digits) ['x'] none :=
      (longest_among_none (by simp [Number.digits])).mul_missing _
    have hsign : Longest Number.sign ['+', 'x'] (some 1) :=
      goesOnWith_optional.longest (w := ['+']) ((Language.mem_add _ _ _).mpr (.inr ⟨'+', by simp, rfl⟩)) (by simp)
    have hrest : Longest (Number.sign * runs Number.digits) ['+', 'x'] none :=
      hsign.mul goesOnWith_optional (avoids_runs (by simp [Number.digits])) hdigits
    rw [Number.exponent, mul_assoc]
    exact hrest.among_mul (by simp)
  have hlongest : Longest Number.decimals chars (some 3) :=
    @Number.longest_decimals_fraction ['e', '+', 'x'] ['1'] ['5'] (by simp [mem_runs, Number.digits])
      (by simp [Number.digits]) (by simp [Number.digits]) hexponent
  obtain ⟨hmatch, whole, hwhole, hmem⟩ := decimal_longest env 1000 chars {}
  obtain ⟨n?, hn, hanswer⟩ := hmatch 0 (Nat.zero_le _)
  obtain rfl := hlongest.unique hn
  refine ⟨Nat.zero_le _, hanswer, ?_⟩
  cases whole with
  | false => exact hwhole
  | true => cases hlongest.eq_length_iff.mpr (hmem.mp rfl)

/-- An integer is matched as far as the longest one goes that stands at a position; of a mark without a digit of
its base behind it the sign and the zero are matched. -/
theorem integer_longest (env : Environment) (limit : Int) (chars : List Char) (j : Journal) :
    let input : Input := .value (.text chars)
    (∀ p ≤ chars.length, ∃ n?, Longest Number.integers (chars.drop p) n? ∧
      (matchAt env limit (.parser Lexical.integer) input p).answer j =
        .ok (n?.map fun n => ((p + n : Nat) : Int))) ∧
    (∃ whole, (matchesWhole env limit (.parser Lexical.integer) input).answer j = .ok whole ∧
      (whole = true ↔ chars ∈ Number.integers)) ∧
    ∀ (b : Number.Base) (p : Nat) (sign rest : List Char) (mark : Char), sign ∈ Number.sign →
      mark ∈ b.marks → (∀ d ∈ rest.head?, d ∉ b.digits) → chars.drop p = sign ++ '0' :: mark :: rest →
      (matchAt env limit (.parser Lexical.integer) input p).answer j =
        .ok (some ((p + sign.length + 1 : Nat) : Int)) := by
  intro input
  have hinteger : Lexical.integer.Recognises env Number.integers := Number.recognises_integer
  refine ⟨fun p hp => hinteger.answer_matchAt limit hp j, hinteger.answer_matchesWhole limit chars j, ?_⟩
  intro b p sign rest mark hsign hmark hrest hdrop
  have hp : p ≤ chars.length := by
    by_contra hlt
    rw [List.drop_eq_nil_of_le (by omega)] at hdrop
    simp at hdrop
  obtain ⟨n?, hn, hanswer⟩ := hinteger.answer_matchAt limit hp j
  rw [hdrop] at hn
  obtain rfl := (Number.longest_integers_zero hsign hmark hrest).unique hn
  rw [hanswer, Nat.add_assoc]
  rfl

theorem integer_longest_no_digit :
    let chars := ['-', '0', 'b', '2']
    let p : Operand := .parser Lexical.integer
    let env : Environment := fun _ => {}
    (0 ≤ chars.length ∧ ['-'] ∈ Number.sign ∧ 'b' ∈ Number.Base.binary.marks ∧
      ∀ d ∈ ['2'].head?, d ∉ Number.Base.binary.digits) ∧
    (matchAt env 1000 p (.value (.text chars)) 0).answer {} = .ok (some 2) ∧
    (matchesWhole env 1000 p (.value (.text chars))).answer {} = .ok false := by
  intro chars p env
  have hsign : ['-'] ∈ Number.sign := (Language.mem_add _ _ _).mpr (.inr ⟨'-', by simp, rfl⟩)
  have hmark : 'b' ∈ Number.Base.binary.marks := by simp [Number.Base.marks]
  have hrest : ∀ d ∈ ['2'].head?, d ∉ Number.Base.binary.digits := by
    rintro d ⟨⟩
    decide
  obtain ⟨hmatch, ⟨whole, hwhole, hmem⟩, hzero⟩ := integer_longest env 1000 chars {}
  have hstop := hzero .binary 0 ['-'] ['2'] 'b' hsign hmark hrest rfl
  obtain ⟨n?, hn, hanswer⟩ := hmatch 0 (Nat.zero_le _)
  obtain ⟨n, rfl, htwo⟩ := Option.map_eq_some_iff.mp (Except.ok.inj (hanswer.symm.trans hstop))
  obtain rfl : n = 2 := (Nat.zero_add n).symm.trans (Int.ofNat.inj htwo)
  refine ⟨⟨Nat.zero_le _, hsign, hmark, hrest⟩, hstop, ?_⟩
  cases whole with
  | false => exact hwhole
  | true => cases hn.eq_length_iff.mpr (hmem.mp rfl)

end PegMatcher
