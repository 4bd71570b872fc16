import PegMatcher.Source

/-!
# Lines and columns

Where a position stands in a text: the number of its line and its column, both counted from one, and
the piece of that line that is shown with a caret below the position. Line numbers count newlines
only; the lines to be shown end at any character that ends a line.
-/

namespace PegMatcher.Text

set_option autoImplicit false

def before (cs : List Char) (pos : Int) : List Char := cs.take (clampBound cs.length pos)

def lineNumber (cs : List Char) (pos : Int) : Nat := (before cs pos).count '\n' + 1

def lastNewline (cs : List Char) : Int :=
  (cs.length : Int) - 1 - (cs.reverse.takeWhile (· != '\n')).length

def column (cs : List Char) (pos : Int) : Int := pos - lastNewline (before cs pos)

def endsLine (c : Char) : Bool :=
  let n := c.toNat
  (0x0A ≤ n && n ≤ 0x0D) || (0x1C ≤ n && n ≤ 0x1E) || n == 0x85 || n == 0x2028 || n == 0x2029

def linesFrom (line : List Char) : List Char → List (List Char)
  | [] => if line.isEmpty then [] else [line.reverse]
  | '\r' :: '\n' :: rest => line.reverse :: linesFrom [] rest
  | c :: rest => if endsLine c then line.reverse :: linesFrom [] rest else linesFrom (c :: line) rest

/-- A return and a newline end one line together, and nothing follows the last line end. -/
def lines (cs : List Char) : List (List Char) := linesFrom [] cs

/-- The first forty characters, or the forty around a column beyond the twentieth, with a caret below it. -/
def excerpt (line : List Char) (column : Int) : Option String :=
  if (line.length : Int) < column - 1 then none
  else if column ≤ 20 then
    some (String.ofList (line.take 40) ++ "\n" ++
      String.ofList (List.replicate (column - 1).toNat ' ') ++ "^")
  else
    some (String.ofList ((line.drop (column - 20).toNat).take 40) ++ "\n" ++
      String.ofList (List.replicate 20 ' ') ++ "^")

end PegMatcher.Text
