import PegMatcher.Text.Lines
import PegMatcher.Tracker

/-!
# Mismatches

The report that an input does not match: where, for what reason, and what would have been accepted
there. Every report carries notes on positions of its input; positions in a text are given with line,
column and an excerpt.
-/

namespace PegMatcher

set_option autoImplicit false

/-- What a report needs of its input: the characters of a text, the size of anything else. -/
inductive Subject where
  | text (chars : List Char)
  | sized (size : Nat)

namespace Subject

def size : Subject → Nat
  | .text chars => chars.length
  | .sized size => size

def ofValue : Value → Except Fault Subject
  | .text chars => .ok (.text chars)
  | .bytes data => .ok (.sized data.length)
  | .list items => .ok (.sized items.length)
  | .tuple items => .ok (.sized items.length)
  | v => .error (.noLength v.kind)

def ofSource : Source → Subject
  | .text chars => .text chars.toList
  | source => .sized source.size

end Subject

def positionExcerpt (cs : List Char) (pos : Int) : Option String :=
  (Text.lines cs)[Text.lineNumber cs pos - 1]?.bind fun line => Text.excerpt line (Text.column cs pos)

/-- A position behind the end stands for the end. -/
def positionNote (subject : Subject) (pos : Int) (message : Option String) : List String :=
  let pos := min pos subject.size
  message.toList ++
    match subject with
    | .sized _ => ["At position " ++ toString pos]
    | .text cs =>
      ("At position " ++ toString pos ++ " (line " ++ toString (Text.lineNumber cs pos) ++ ", column "
        ++ toString (Text.column cs pos) ++ ")") :: (positionExcerpt cs pos).toList

structure Mismatch where
  subject : Subject
  pos : Int
  message : Option String
  expected : List String
  notes : List String

namespace Mismatch

def addNote (m : Mismatch) (pos : Int) (message : Option String) : Mismatch :=
  { m with notes := m.notes ++ ["\n".intercalate (positionNote m.subject pos message)] }

def ofPosition (subject : Subject) (pos : Int) (message : Option String) (expected : List String) : Mismatch :=
  addNote ⟨subject, pos, message, expected, []⟩ pos none

def text (m : Mismatch) : String := m.message.getD ""

end Mismatch

def Tracker.mismatch (t : Tracker) (subject : Subject) : Mismatch :=
  .ofPosition subject (max t.pos 0) (some t.message) t.expected

end PegMatcher
