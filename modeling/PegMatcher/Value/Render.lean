import PegMatcher.Value.Basic
import PegMatcher.Text.Printable

/-!
# Written values

The text of a value in a message. Texts and byte strings stand between quotes, the double quote
only if it saves escaping the single one; unprintable characters are written by their code.
-/

namespace PegMatcher

set_option autoImplicit false

namespace Text

/-- The digits of a code in base sixteen, padded to a least width. -/
def hexadecimal (width code : Nat) : List Char :=
  let digits := Nat.toDigits 16 code
  List.replicate (width - digits.length) '0' ++ digits

def escaped (quote c : Char) : List Char :=
  if c = quote ∨ c = '\\' then ['\\', c]
  else if c = '\n' then ['\\', 'n']
  else if c = '\r' then ['\\', 'r']
  else if c = '\t' then ['\\', 't']
  else if isPrintable c then [c]
  else if c.toNat ≤ 0xFF then '\\' :: 'x' :: hexadecimal 2 c.toNat
  else if c.toNat ≤ 0xFFFF then '\\' :: 'u' :: hexadecimal 4 c.toNat
  else '\\' :: 'U' :: hexadecimal 8 c.toNat

def escapedByte (quote : Char) (b : UInt8) : List Char :=
  let c := Char.ofNat b.toNat
  if b.toNat < 0x7F then escaped quote c else '\\' :: 'x' :: hexadecimal 2 b.toNat

def quoteFor (cs : List Char) : Char :=
  if '\x27' ∈ cs ∧ ¬ '\x22' ∈ cs then '\x22' else '\x27'

def quoted (cs : List Char) : String :=
  let quote := quoteFor cs
  String.ofList (quote :: cs.flatMap (escaped quote) ++ [quote])

def quotedBytes (data : List UInt8) : String :=
  let quote := quoteFor (data.map fun b => Char.ofNat b.toNat)
  String.ofList ('b' :: quote :: data.flatMap (escapedByte quote) ++ [quote])

end Text

namespace Value

mutual

def render : Value → String
  | .null => "None"
  | .bool b => if b then "True" else "False"
  | .int n => toString n
  | .float x => x.render
  | .text chars => Text.quoted chars
  | .bytes data => Text.quotedBytes data
  | .list items => "[" ++ renderItems items ++ "]"
  | .tuple [item] => "(" ++ render item ++ ",)"
  | .tuple items => "(" ++ renderItems items ++ ")"

def renderItems : List Value → String
  | [] => ""
  | [item] => render item
  | item :: items => render item ++ ", " ++ renderItems items

end

end Value

end PegMatcher
