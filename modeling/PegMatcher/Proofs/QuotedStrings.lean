import PegMatcher.Lexical
import PegMatcher.Proofs.Characters
import PegMatcher.Proofs.Faults

/-!
# Quoted strings

What a quoted string is: a quote, items, and the same quote again. An item is an escape or a plain
character, and never begins with the quote, so the string is closed by the first quote that is not inside an
escape. Where an element could be more than one of these, it closes the string rather than begin an escape,
begins an escape rather than end the line, and what stands behind the mark is one of the escapes rather than
the beginning of a code.
-/

namespace PegMatcher

set_option autoImplicit false

namespace Quoting

/-- A character opens a string: it is in a text of quotes, or among the quotes of a sequence. -/
inductive IsQuote : Value → Char → Prop where
  | ofText {all : List Char} {c : Char} : c ∈ all → IsQuote (.text all) c
  | ofList {items : List Value} {c : Char} : .char c ∈ items → IsQuote (.list items) c
  | ofTuple {items : List Value} {c : Char} : .char c ∈ items → IsQuote (.tuple items) c

def hexadecimal : List Char := "0123456789abcdefABCDEF".toList

/-- What may stand behind the mark of an escape: one of the escapes, or else `u` and four hexadecimal digits. -/
inductive Escaped (qt : Quoting) : List Char → Prop where
  | listed {c : Char} : .char c ∈ qt.escapes → Escaped qt [c]
  | code {a b c d : Char} : .char 'u' ∉ qt.escapes → a ∈ hexadecimal → b ∈ hexadecimal →
      c ∈ hexadecimal → d ∈ hexadecimal → Escaped qt ['u', a, b, c, d]

/-- What the contents of a string are read by. -/
inductive Item (qt : Quoting) (quote : Char) : List Char → Prop where
  | escape {mark : Char} {behind : List Char} : mark ≠ quote → qt.escape = .char mark →
      Escaped qt behind → Item qt quote (mark :: behind)
  | plain {c : Char} : c ≠ quote → qt.escape ≠ .char c → c ≠ '\n' → Item qt quote [c]

/-- A string of these items stands in front of `rest`. -/
structure Reads (qt : Quoting) (cs : List Char) (quote : Char) (items : List (List Char))
    (rest : List Char) : Prop where
  opened : IsQuote qt.quotes quote
  text : cs = quote :: (items.flatten ++ quote :: rest)
  items : ∀ item ∈ items, Item qt quote item

variable {qt : Quoting} {chars : Array Char} {p left : Nat} {stop : Int} {quote c : Char}
  {cs item behind more rest rest' : List Char} {items items' : List (List Char)}

theorem Item.head?_ne (h : Item qt quote item) : item.head? ≠ some quote := by
  cases h with
  | escape hne _ _ => simpa using hne
  | plain hne _ _ => simpa using hne

theorem Item.ne_nil (h : Item qt quote item) : item ≠ [] := by
  cases h <;> exact List.cons_ne_nil _ _

theorem Item.append_ne (h : Item qt quote item) : item ++ more ≠ quote :: rest := by
  intro heq
  cases h with
  | escape hne _ _ => exact hne (List.cons.inj heq).1
  | plain hne _ _ => exact hne (List.cons.inj heq).1

theorem Escaped.unique {behind' more' : List Char} (h : Escaped qt behind) (h' : Escaped qt behind')
    (heq : behind ++ more = behind' ++ more') : behind' = behind := by
  cases h with
  | @listed c hmem =>
    cases h' with
    | listed _ => simp_all
    | code hu =>
      obtain ⟨rfl, -⟩ := List.cons.inj heq
      exact absurd hmem hu
  | code hu =>
    cases h' with
    | listed hmem =>
      obtain ⟨rfl, -⟩ := List.cons.inj heq
      exact absurd hmem hu
    | code _ => simp_all

theorem Item.unique {item' more' : List Char} (h : Item qt quote item) (h' : Item qt quote item')
    (heq : item ++ more = item' ++ more') : item' = item := by
  cases h with
  | @escape mark _ hne hmark hbehind =>
    cases h' with
    | escape _ _ hbehind' =>
      obtain ⟨rfl, hrest⟩ := List.cons.inj heq
      rw [hbehind.unique hbehind' hrest]
    | plain _ hplain _ =>
      obtain ⟨rfl, -⟩ := List.cons.inj heq
      exact absurd hmark hplain
  | plain _ hplain _ =>
    cases h' with
    | escape _ hmark _ =>
      obtain ⟨rfl, -⟩ := List.cons.inj heq
      exact absurd hmark hplain
    | plain _ _ _ =>
      obtain ⟨rfl, -⟩ := List.cons.inj heq
      rfl

/-- Items and the quote behind them are read in one way. -/
theorem items_unique (h : ∀ item ∈ items, Item qt quote item) (h' : ∀ item ∈ items', Item qt quote item)
    (heq : items.flatten ++ quote :: rest = items'.flatten ++ quote :: rest') :
    items' = items ∧ rest' = rest := by
  induction items generalizing items' with
  | nil =>
    cases items' with
    | nil => exact ⟨rfl, (List.cons.inj heq).2.symm⟩
    | cons item' items' =>
      rw [List.flatten_cons, List.append_assoc] at heq
      exact absurd heq.symm (h' item' List.mem_cons_self).append_ne
  | cons item items ih =>
    obtain ⟨hitem, hitems⟩ := List.forall_mem_cons.mp h
    rw [List.flatten_cons, List.append_assoc] at heq
    cases items' with
    | nil => exact absurd heq hitem.append_ne
    | cons item' items' =>
      obtain ⟨hitem', hitems'⟩ := List.forall_mem_cons.mp h'
      rw [List.flatten_cons, List.append_assoc] at heq
      obtain rfl := hitem.unique hitem' heq
      obtain ⟨rfl, hrest⟩ := ih hitems hitems' (List.append_cancel_left heq)
      exact ⟨rfl, hrest⟩

theorem look_text (chars : Array Char) (p : Nat) :
    look (.text chars) p = (chars.toList.drop p).head?.map Value.char := by
  rw [look_eq, Source.getElem?_text]

theorem look_eq_none (h : chars.toList.drop p = []) : look (.text chars) p = none := by
  rw [look_text, h]
  rfl

theorem look_eq_char (h : chars.toList.drop p = c :: rest) : look (.text chars) p = some (.char c) := by
  rw [look_text, h]
  rfl

theorem any_hexDigits_iff : hexDigits.any (· == .char c) = true ↔ c ∈ hexadecimal := by
  have hdigits : hexDigits = hexadecimal.map Value.char := rfl
  rw [Value.any_beq_char_iff, hdigits]
  simp only [List.mem_map, Value.char_inj, exists_eq_right]

theorem isHexDigit_iff (k : Nat) : isHexDigit (.text chars) (p + k : Nat) = true ↔
    ∃ c, (chars.toList.drop p)[k]? = some c ∧ c ∈ hexadecimal := by
  rw [isHexDigit, look_text, ← List.drop_drop, List.head?_drop]
  cases (chars.toList.drop p)[k]? with
  | none => simp
  | some c => simpa using any_hexDigits_iff

theorem hexDigits_iff (hdrop : chars.toList.drop p = c :: rest) :
    (isHexDigit (.text chars) (p + 1 : Nat) = true ∧ isHexDigit (.text chars) (p + 2 : Nat) = true ∧
      isHexDigit (.text chars) (p + 3 : Nat) = true ∧ isHexDigit (.text chars) (p + 4 : Nat) = true) ↔
    ∃ a b c d more, rest = a :: b :: c :: d :: more ∧
      a ∈ hexadecimal ∧ b ∈ hexadecimal ∧ c ∈ hexadecimal ∧ d ∈ hexadecimal := by
  simp only [isHexDigit_iff, hdrop, List.getElem?_cons_succ]
  rcases rest with _ | ⟨a, _ | ⟨b, _ | ⟨c, _ | ⟨d, more⟩⟩⟩⟩ <;> simp

theorem escapeEnd?_of_escaped (hdrop : chars.toList.drop p = behind ++ more) (h : Escaped qt behind) :
    qt.escapeEnd? (.text chars) p = some ((p + behind.length : Nat) : Int) := by
  cases h with
  | @listed c hmem =>
    have hlisted : qt.escapes.any (· == .char c) = true := Value.any_beq_char_iff.mpr hmem
    simp only [escapeEnd?, look_eq_char hdrop, if_pos hlisted]
    rfl
  | @code a b c d hu ha hb hc hd =>
    have hlisted : ¬ qt.escapes.any (· == .char 'u') = true := mt Value.any_beq_char_iff.mp hu
    obtain ⟨h1, h2, h3, h4⟩ := (hexDigits_iff hdrop).mpr ⟨a, b, c, d, more, rfl, ha, hb, hc, hd⟩
    simp only [escapeEnd?, look_eq_char hdrop, if_neg hlisted]
    refine if_pos ?_
    simp only [Bool.and_eq_true]
    exact ⟨⟨⟨⟨Value.beq_char_iff.mpr rfl, h1⟩, h2⟩, h3⟩, h4⟩

theorem exists_escaped (h : qt.escapeEnd? (.text chars) p = some stop) : ∃ behind more,
    Escaped qt behind ∧ chars.toList.drop p = behind ++ more ∧ stop = (p + behind.length : Nat) := by
  cases hdrop : chars.toList.drop p with
  | nil =>
    simp only [escapeEnd?, look_eq_none hdrop] at h
    cases h
  | cons c rest =>
    simp only [escapeEnd?, look_eq_char hdrop] at h
    split at h
    · next hlisted =>
      cases h
      exact ⟨[c], rest, .listed (Value.any_beq_char_iff.mp hlisted), rfl, rfl⟩
    · next hlisted =>
      split at h
      · next hcode =>
        cases h
        simp only [Bool.and_eq_true, Value.beq_char_iff, Value.char_inj] at hcode
        obtain ⟨⟨⟨⟨rfl, h1⟩, h2⟩, h3⟩, h4⟩ := hcode
        obtain ⟨a, b, c, d, more, rfl, ha, hb, hc, hd⟩ := (hexDigits_iff hdrop).mp ⟨h1, h2, h3, h4⟩
        exact ⟨_, more, .code (mt Value.any_beq_char_iff.mpr hlisted) ha hb hc hd, rfl, rfl⟩
      · cases h

theorem closeFrom_quote (hdrop : chars.toList.drop p = quote :: rest) :
    qt.closeFrom (.text chars) (.char quote) (left + 1) p = some ((p + 1 : Nat) : Int) := by
  have hquote : (Value.char quote == Value.char quote) = true := Value.beq_char_iff.mpr rfl
  simp only [closeFrom, look_eq_char hdrop, if_pos hquote]
  rfl

theorem closeFrom_item (hitem : Item qt quote item) (hdrop : chars.toList.drop p = item ++ more) :
    qt.closeFrom (.text chars) (.char quote) (left + 1) p =
      qt.closeFrom (.text chars) (.char quote) left (p + item.length : Nat) := by
  cases hitem with
  | @escape mark behind hne hmark hbehind =>
    have hquote : ¬ (Value.char mark == Value.char quote) = true := by
      rwa [Value.beq_char_iff, Value.char_inj]
    have hescape : (Value.char mark == qt.escape) = true := Value.char_beq_iff.mpr hmark
    have hlength : p + 1 + behind.length = p + (mark :: behind).length := by
      rw [List.length_cons]
      omega
    have hend : qt.escapeEnd? (.text chars) ((p : Int) + 1) = some ((p + 1 + behind.length : Nat) : Int) :=
      escapeEnd?_of_escaped (p := p + 1) (drop_of_cons hdrop) hbehind
    simp only [closeFrom, look_eq_char hdrop, if_neg hquote, if_pos hescape, hend, hlength]
  | @plain c hne hplain hline =>
    have hquote : ¬ (Value.char c == Value.char quote) = true := by
      rwa [Value.beq_char_iff, Value.char_inj]
    have hescape : ¬ (Value.char c == qt.escape) = true := mt Value.char_beq_iff.mp hplain
    have hnewline : ¬ (Value.char c == Value.char '\n') = true := by
      rwa [Value.beq_char_iff, Value.char_inj]
    simp only [closeFrom, look_eq_char hdrop, if_neg hquote, if_neg hescape, if_neg hnewline]
    rfl

theorem closeFrom_cases (h : qt.closeFrom (.text chars) (.char quote) (left + 1) p = some stop) :
    (∃ rest, chars.toList.drop p = quote :: rest ∧ stop = (p + 1 : Nat)) ∨
    ∃ item more, Item qt quote item ∧ chars.toList.drop p = item ++ more ∧
      qt.closeFrom (.text chars) (.char quote) left (p + item.length : Nat) = some stop := by
  cases hdrop : chars.toList.drop p with
  | nil =>
    simp only [closeFrom, look_eq_none hdrop] at h
    cases h
  | cons c rest =>
    simp only [closeFrom, look_eq_char hdrop, Value.beq_char_iff, Value.char_inj] at h
    split at h
    · next hquote =>
      cases h
      exact .inl ⟨rest, by rw [hquote], rfl⟩
    · next hquote =>
      right
      split at h
      · next hescape =>
        split at h
        · next hend =>
          obtain ⟨behind, more, hbehind, hmore, rfl⟩ := exists_escaped (p := p + 1) hend
          refine ⟨c :: behind, more, .escape hquote (Value.char_beq_iff.mp hescape) hbehind, ?_, ?_⟩
          · have hrest : chars.toList.drop (p + 1) = rest := drop_of_cons hdrop
            rw [← hrest, hmore, List.cons_append]
          · rwa [List.length_cons, Nat.add_comm behind.length, ← Nat.add_assoc]
        · cases h
      · next hescape =>
        split at h
        · cases h
        · next hline => exact ⟨[c], rest, .plain hquote (mt Value.char_beq_iff.mpr hescape) hline, rfl, h⟩

/-- Items are read up to the quote behind them, if there is room for as many. -/
theorem closeFrom_of_items (hitems : ∀ item ∈ items, Item qt quote item)
    (hdrop : chars.toList.drop p = items.flatten ++ quote :: rest) (hleft : items.flatten.length < left) :
    qt.closeFrom (.text chars) (.char quote) left p = some ((p + items.flatten.length + 1 : Nat) : Int) := by
  induction items generalizing p left with
  | nil =>
    cases left with
    | zero => exact absurd hleft (Nat.not_lt_zero _)
    | succ left => exact closeFrom_quote hdrop
  | cons item items ih =>
    obtain ⟨hitem, hitems⟩ := List.forall_mem_cons.mp hitems
    rw [List.flatten_cons, List.append_assoc] at hdrop
    rw [List.flatten_cons, List.length_append] at hleft ⊢
    have hpos : 0 < item.length := List.length_pos_iff.mpr hitem.ne_nil
    cases left with
    | zero => exact absurd hleft (Nat.not_lt_zero _)
    | succ left =>
      rw [closeFrom_item hitem hdrop, ih hitems (drop_of_append hdrop) (by omega), Nat.add_assoc p]

theorem exists_items (h : qt.closeFrom (.text chars) (.char quote) left p = some stop) :
    ∃ (items : List (List Char)) (rest : List Char), (∀ item ∈ items, Item qt quote item) ∧
      chars.toList.drop p = items.flatten ++ quote :: rest ∧ stop = (p + items.flatten.length + 1 : Nat) := by
  induction left generalizing p with
  | zero => cases h
  | succ left ih =>
    rcases closeFrom_cases h with ⟨rest, hdrop, rfl⟩ | ⟨item, more, hitem, hdrop, hmore⟩
    · exact ⟨[], rest, List.forall_mem_nil _, hdrop, rfl⟩
    · obtain ⟨items, rest, hitems, hrest, rfl⟩ := ih hmore
      refine ⟨item :: items, rest, List.forall_mem_cons.mpr ⟨hitem, hitems⟩, ?_, ?_⟩
      · rw [hdrop, List.flatten_cons, List.append_assoc, ← hrest, drop_of_append hdrop]
      · rw [List.flatten_cons, List.length_append, Nat.add_assoc p]

theorem occursIn_singleton {all : List Char} : occursIn [c] all = true ↔ c ∈ all := by
  induction all with
  | nil => simp [occursIn]
  | cons x xs ih => simp [occursIn, ih, List.isPrefixOf]

theorem Textual.opens_iff (h : qt.Textual) : qt.opens (.char c) = .ok true ↔ IsQuote qt.quotes c := by
  unfold Textual at h
  unfold opens Value.char
  cases hq : qt.quotes with
  | text all =>
    simp only [Except.ok.injEq, occursIn_singleton]
    exact ⟨.ofText, fun h => by cases h; assumption⟩
  | list items =>
    simp only [Except.ok.injEq]
    exact Value.any_beq_char_iff.trans ⟨.ofList, fun h => by cases h; assumption⟩
  | tuple items =>
    simp only [Except.ok.injEq]
    exact Value.any_beq_char_iff.trans ⟨.ofTuple, fun h => by cases h; assumption⟩
  | _ =>
    rw [hq] at h
    simp [Value.kind] at h

theorem scan_eq {opened : Bool} (hdrop : chars.toList.drop p = c :: rest)
    (hopened : qt.opens (.char c) = .ok opened) : qt.scan (.text chars) p =
      .ok (if opened then
        qt.closeFrom (.text chars) (.char c) ((Source.text chars).remaining (p + 1 : Nat)) (p + 1 : Nat)
      else none) := by
  have hx : (Source.text chars).elements[p]? = some (.char c) := by
    rw [Source.getElem?_text, hdrop]
    rfl
  have hlt := (List.getElem?_eq_some_iff.mp hx).1
  rw [Source.length_elements] at hlt
  rw [scan, if_neg (by omega), Source.elementAt_eq hx]
  cases opened <;> simp only [hopened] <;> rfl

theorem Reads.scan_eq (h : Reads qt (chars.toList.drop p) quote items rest) (hquotes : qt.Textual) :
    qt.scan (.text chars) p = .ok (some ((p + items.flatten.length + 2 : Nat) : Int)) := by
  have hdrop : chars.toList.drop (p + 1) = items.flatten ++ quote :: rest :=
    drop_of_cons h.text
  have hleft : items.flatten.length < (Source.text chars).remaining (p + 1 : Nat) := by
    have hlength := congrArg List.length hdrop
    simp only [List.length_drop, Array.length_toList, List.length_append, List.length_cons] at hlength
    simp only [Source.remaining, Source.size]
    omega
  rw [Quoting.scan_eq h.text (hquotes.opens_iff.mpr h.opened), if_pos rfl,
    closeFrom_of_items h.items hdrop hleft, Nat.add_right_comm p 1]

theorem exists_reads (hquotes : qt.Textual) (h : qt.scan (.text chars) p = .ok (some stop)) :
    ∃ quote items rest, Reads qt (chars.toList.drop p) quote items rest ∧
      stop = (p + items.flatten.length + 2 : Nat) := by
  cases hdrop : chars.toList.drop p with
  | nil =>
    have hsize : ((Source.text chars).size : Int) ≤ p := by
      have hlength := List.drop_eq_nil_iff.mp hdrop
      simpa [Source.size] using hlength
    rw [scan, if_pos hsize] at h
    cases h
  | cons c rest =>
    obtain ⟨opened, hopened⟩ := hquotes.opens_char c
    rw [Quoting.scan_eq hdrop hopened] at h
    cases opened with
    | false => cases h
    | true =>
      obtain ⟨items, rest', hitems, hrest, rfl⟩ := exists_items (Except.ok.inj h)
      have htext : rest = items.flatten ++ c :: rest' := by
        rw [← hrest, drop_of_cons hdrop]
      exact ⟨c, items, rest', ⟨hquotes.opens_iff.mp hopened, by rw [htext], hitems⟩, by
        rw [Nat.add_right_comm p 1]⟩

theorem scan_cases (chars : Array Char) (p : Nat) (hquotes : qt.Textual) :
    (∃ quote items rest, Reads qt (chars.toList.drop p) quote items rest ∧
      qt.scan (.text chars) p = .ok (some ((p + items.flatten.length + 2 : Nat) : Int))) ∨
    (¬ ∃ quote items rest, Reads qt (chars.toList.drop p) quote items rest) ∧
      qt.scan (.text chars) p = .ok none := by
  cases hscan : qt.scan (.text chars) p with
  | error f => exact (Primitive.scan_textual (m := .quoted qt) hquotes (Int.natCast_nonneg p) hscan).elim
  | ok stop? =>
    cases stop? with
    | some stop =>
      obtain ⟨quote, items, rest, hreads, rfl⟩ := exists_reads hquotes hscan
      exact .inl ⟨quote, items, rest, hreads, rfl⟩
    | none =>
      refine .inr ⟨?_, rfl⟩
      rintro ⟨quote, items, rest, hreads⟩
      rw [hreads.scan_eq hquotes] at hscan
      cases hscan

theorem Reads.unique {quote' : Char} (h : Reads qt cs quote items rest)
    (h' : Reads qt cs quote' items' rest') : quote' = quote ∧ items' = items ∧ rest' = rest := by
  obtain ⟨rfl, heq⟩ := List.cons.inj (h'.text.symm.trans h.text)
  exact ⟨rfl, items_unique h.items h'.items heq.symm⟩

end Quoting

variable {qt : Quoting} {chars : Array Char} {p : Nat}

theorem Lexical.quoted_reply (env : Environment) (maxDepth : Nat) {s : State} (hquotes : qt.Textual)
    (hp : s.pos = p) :
    (∃ quote items rest, qt.Reads (chars.toList.drop p) quote items rest ∧
      (quoted qt).parser env ⟨.text chars, maxDepth⟩ s =
        .returned (.bool true) (s.moveTo (p + items.flatten.length + 2 : Nat))) ∨
    (¬ ∃ quote items rest, qt.Reads (chars.toList.drop p) quote items rest) ∧
      (quoted qt).parser env ⟨.text chars, maxDepth⟩ s = .returned (.bool false) s := by
  have hreply : (quoted qt).parser env ⟨.text chars, maxDepth⟩ s =
      Parser.ofPrimitive (.quoted qt) ⟨.text chars, maxDepth⟩ s := rfl
  rw [Parser.ofPrimitive, hp, Primitive.scan] at hreply
  rw [hreply]
  rcases Quoting.scan_cases chars p hquotes with ⟨quote, items, rest, hreads, hscan⟩ | ⟨hnone, hscan⟩
  · exact .inl ⟨quote, items, rest, hreads, by rw [hscan]⟩
  · exact .inr ⟨hnone, by rw [hscan]⟩

/-- A quoted string is matched exactly up to the quote that closes it, there is one way to read it, and where
there is none nothing has changed. -/
theorem quoted_string_grammar (env : Environment) (qt : Quoting) (chars : Array Char) (maxDepth : Nat)
    (s : State) (p : Nat) (hquotes : qt.Textual) (hp : s.pos = p) :
    let cs := chars.toList.drop p
    let reply := (Lexical.quoted qt).parser env ⟨.text chars, maxDepth⟩ s
    (∀ stop, reply = .returned (.bool true) (s.moveTo stop) ↔
      ∃ quote items rest, qt.Reads cs quote items rest ∧ stop = (p + items.flatten.length + 2 : Nat)) ∧
    (reply = .returned (.bool false) s ↔ ¬ ∃ quote items rest, qt.Reads cs quote items rest) ∧
    (∀ quote items rest quote' items' rest', qt.Reads cs quote items rest →
      qt.Reads cs quote' items' rest' → quote' = quote ∧ items' = items ∧ rest' = rest) ∧
    (∀ quote items rest, qt.Reads cs quote items rest → ∀ item ∈ items, item.head? ≠ some quote) := by
  intro cs reply
  refine ⟨fun stop => ?_, ?_, fun _ _ _ _ _ _ h h' => h.unique h',
    fun _ _ _ h item hitem => (h.items item hitem).head?_ne⟩
  · rcases Lexical.quoted_reply env maxDepth hquotes hp with
      ⟨quote, items, rest, hreads, hreply⟩ | ⟨hnone, hreply⟩
    · constructor
      · intro h
        have hstate := (Reply.returned.inj (h.symm.trans hreply)).2
        exact ⟨quote, items, rest, hreads, congrArg State.pos hstate⟩
      · rintro ⟨quote', items', rest', hreads', rfl⟩
        obtain ⟨rfl, rfl, rfl⟩ := hreads.unique hreads'
        exact hreply
    · refine iff_of_false (fun h => ?_) fun ⟨quote, items, rest, hreads, _⟩ => hnone ⟨quote, items, rest, hreads⟩
      cases (Reply.returned.inj (h.symm.trans hreply)).1
  · rcases Lexical.quoted_reply env maxDepth hquotes hp with
      ⟨quote, items, rest, hreads, hreply⟩ | ⟨hnone, hreply⟩
    · refine iff_of_false (fun h => ?_) (not_not.mpr ⟨quote, items, rest, hreads⟩)
      cases (Reply.returned.inj (h.symm.trans hreply)).1
    · exact iff_of_true hreply hnone

/-- The mark of escapes is a quote as well, and `u` is one of the escapes. -/
theorem quoted_string_grammar_overlap :
    let qt : Quoting := ⟨.text ['\x27', '\\'], .char '\\', [.char 'u']⟩
    let chars := #['\x27', '\\', 'u', '0', '\x27']
    let s : State := ⟨0, 0, [], #[]⟩
    let t : State := ⟨1, 0, [], #[]⟩
    let env : Environment := fun _ => {}
    qt.Textual ∧ s.pos = (0 : Nat) ∧ t.pos = (1 : Nat) ∧
      (Lexical.quoted qt).parser env ⟨.text chars, 3⟩ s = .returned (.bool true) (s.moveTo 5) ∧
      ¬ ∃ quote items rest, qt.Reads ['\\', 'u', '0', '\x27'] quote items rest := by
  intro qt chars s t env
  have hescape : qt.Item '\x27' ['\\', 'u'] := .escape (by decide) rfl (.listed (by simp [qt]))
  have hplain : qt.Item '\x27' ['0'] := .plain (by decide) (by simp [qt]) (by decide)
  have hreads : qt.Reads chars.toList '\x27' [['\\', 'u'], ['0']] [] :=
    ⟨.ofText (by simp), rfl, by simp [hescape, hplain]⟩
  have htext : qt.Textual := .inl rfl
  have h := quoted_string_grammar env qt chars 3 s 0 htext rfl
  have h' := quoted_string_grammar env qt chars 3 t 1 htext rfl
  exact ⟨htext, rfl, rfl, (h.1 5).mpr ⟨_, _, _, hreads, rfl⟩, h'.2.1.mp rfl⟩

end PegMatcher
