import PegMatcher.Operand

/-!
# Parsers for text

Ready-made parsers for what most notations share: white space, identifiers, numbers, quoted strings,
delimited lists, keywords and comments. All classes here are of ASCII characters.
-/

namespace PegMatcher.Lexical

set_option autoImplicit false

def whitespace : List Char := [' ', '\t', '\n', '\r', Char.ofNat 12]

def binaryDigits : List Char := "01".toList

def octalDigits : List Char := "01234567".toList

def decimalDigits : List Char := "0123456789".toList

def hexadecimalDigits : List Char := decimalDigits ++ "abcdefABCDEF".toList

def letters : List Char := "abcdefghijklmnopqrstuvwxyzABCDEFGHIJKLMNOPQRSTUVWXYZ".toList

def alphanumerics : List Char := letters ++ decimalDigits

def character (c : Char) : Expr := .primitive (.element (.char c))

def anyOf (cs : List Char) : Expr := .primitive (.oneOf (cs.map Value.char))

def between (low high : Char) : Expr := .primitive (.range (.char low) (.char high))

def spaces : Expr := .star (anyOf whitespace)

def someSpaces : Expr := .plus (anyOf whitespace)

def digit : Expr := between '0' '9'

def hexDigit : Expr := anyOf hexadecimalDigits

def letter : Expr := .choice [between 'a' 'z', between 'A' 'Z']

def identifierRest : Expr := .choice [letter, digit, character '_']

def identifier : Expr := .seq [.choice [letter, character '_'], .star identifierRest]

def sign : Expr := .opt (anyOf ['+', '-'])

/-- A zero, a letter in either case, and digits of the base that the letter names. -/
def based (small large : Char) (digits : Expr) : Expr :=
  .seq [character '0', anyOf [small, large], .plus digits]

def integer : Expr :=
  .seq [sign, .choice [based 'b' 'B' (anyOf binaryDigits), based 'o' 'O' (anyOf octalDigits),
    based 'x' 'X' hexDigit, .plus digit]]

def exponent : Expr := .seq [anyOf ['e', 'E'], sign, .plus digit]

def decimal : Expr :=
  .seq [sign, .choice [
    .seq [.plus digit, .choice [.seq [character '.', .star digit, .opt exponent], exponent]],
    .seq [character '.', .plus digit, .opt exponent]]]

def defaultQuoting : Quoting where
  quotes := .tuple [.char '\x22', .char '\x27']
  escape := .char '\\'
  escapes := ['\\', '\x22', '\x27', 'b', 'f', 'n', 'r', 't'].map Value.char

def quoted (quoting : Quoting) : Expr := .primitive (.quoted quoting)

/-- One or more items with a separator between them, which may stand among white space. -/
def delimitedBy (item separator : Expr) : Expr := .seq [item, .star (.seq [separator, item])]

def spaced (separator : Expr) : Expr := .seq [spaces, separator, spaces]

def delimited (item separator : Operand) (allowSpaces : Bool) : Except Fault Expr := do
  let separator ← separator.convert
  let item ← item.convert
  .ok (delimitedBy item (if allowSpaces then spaced separator else separator))

/-- A word that no further character of an identifier follows. -/
def keyword (word : List Char) : Expr := .seq [.ofText word, .notAhead identifierRest]

def lineComment : Expr :=
  .seq [character '#', .star (.seq [.notAhead (character '\n'), .primitive .any])]

end PegMatcher.Lexical
