import PegMatcher.Source

/-!
# Quoted strings

How a quoted string is read: an element opens it, escapes and plain elements follow, and the element
that opened it closes it. A quoted string does not go over the end of a line or of the input.
-/

namespace PegMatcher

set_option autoImplicit false

def charValues (text : String) : List Value := text.toList.map Value.char

/-- The values that open a quoted string, the mark that begins an escape, and what may stand behind it. -/
structure Quoting where
  quotes : Value
  escape : Value
  escapes : List Value

namespace Quoting

def occursIn {α : Type} [BEq α] (part : List α) : List α → Bool
  | [] => part.isEmpty
  | x :: xs => part.isPrefixOf (x :: xs) || occursIn part xs

/-- Quotes given as a text are looked up as a part of it, so the empty text is always found. -/
def opens (q : Quoting) (v : Value) : Except Fault Bool :=
  let byNumber (data : List UInt8) (n : Int) : Except Fault Bool :=
    if 0 ≤ n ∧ n < 256 then .ok (data.any fun b => (b.toNat : Int) == n) else .error .byteOutside
  match q.quotes, v with
  | .text all, .text part => .ok (occursIn part all)
  | .text _, v => .error (.notSubtext v.kind)
  | .bytes all, .int n => byNumber all n
  | .bytes all, .bool b => byNumber all (if b then 1 else 0)
  | .bytes all, .bytes part => .ok (occursIn part all)
  | .bytes _, v => .error (.notSubbytes v.kind)
  | .list items, v => .ok (items.any (· == v))
  | .tuple items, v => .ok (items.any (· == v))
  | quotes, _ => .error (.notContainer quotes.kind)

def look (src : Source) (pos : Int) : Option Value :=
  if (src.size : Int) ≤ pos then none else (src.elementAt pos).toOption

def hexDigits : List Value := charValues "0123456789abcdefABCDEF"

def isHexDigit (src : Source) (pos : Int) : Bool :=
  (look src pos).any fun v => hexDigits.any (· == v)

def escapeEnd? (q : Quoting) (src : Source) (pos : Int) : Option Int :=
  match look src pos with
  | none => none
  | some v =>
    if q.escapes.any (· == v) then some (pos + 1)
    else if v == .char 'u' && isHexDigit src (pos + 1) && isHexDigit src (pos + 2)
        && isHexDigit src (pos + 3) && isHexDigit src (pos + 4) then some (pos + 5)
    else none

/-- Where a string ends that `quote` opened and whose contents go on at `pos`; the number bounds its items. -/
def closeFrom (q : Quoting) (src : Source) (quote : Value) : Nat → Int → Option Int
  | 0, _ => none
  | left + 1, pos =>
    match look src pos with
    | none => none
    | some v =>
      if v == quote then some (pos + 1)
      else if v == q.escape then
        match q.escapeEnd? src (pos + 1) with
        | some next => closeFrom q src quote left next
        | none => none
      else if v == .char '\n' then none
      else closeFrom q src quote left (pos + 1)

def scan (q : Quoting) (src : Source) (pos : Int) : Except Fault (Option Int) :=
  if (src.size : Int) ≤ pos then .ok none
  else
    match src.elementAt pos with
    | .error f => .error f
    | .ok v =>
      match q.opens v with
      | .error f => .error f
      | .ok true => .ok (q.closeFrom src v (src.remaining (pos + 1)) (pos + 1))
      | .ok false => .ok none

end Quoting

end PegMatcher
