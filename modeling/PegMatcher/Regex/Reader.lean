import PegMatcher.Regex.Basic

/-!
# Reading patterns

The written form of regular expressions: characters, escapes, classes, groups, alternatives and
repetitions. Flags decide, while the pattern is read, what a dot, an anchor and a letter stand for.
A text that is no pattern is refused as a whole.
-/

namespace PegMatcher

set_option autoImplicit false

namespace Regex

structure Flags where
  ignoreCase : Bool := false
  multiline : Bool := false
  dotAll : Bool := false

def Flags.ofLetters (letters : String) : Flags :=
  let has (c : Char) : Bool := letters.toList.contains c
  ⟨has 'i', has 'm', has 's'⟩

namespace Reader

def literal (flags : Flags) (c : Char) : Regex :=
  .one ⟨false, flags.ignoreCase, [.char c.toNat]⟩

def single (flags : Flags) (m : Member) : Regex := .one ⟨false, flags.ignoreCase, [m]⟩

def controlLetter? : Char → Option Char
  | 'n' => some '\n'
  | 't' => some '\t'
  | 'r' => some '\r'
  | 'f' => some (Char.ofNat 12)
  | 'v' => some (Char.ofNat 11)
  | 'a' => some (Char.ofNat 7)
  | '0' => some (Char.ofNat 0)
  | _ => none

def classLetter? : Char → Option Member
  | 'd' => some (.digit false)
  | 'D' => some (.digit true)
  | 's' => some (.blank false)
  | 'S' => some (.blank true)
  | 'w' => some (.word false)
  | 'W' => some (.word true)
  | _ => none

def anchorLetter? : Char → Option Anchor
  | 'A' => some .textStart
  | 'Z' => some .textEnd
  | 'b' => some .boundary
  | 'B' => some .noBoundary
  | _ => none

/-- Letters and digits without a meaning are refused, other characters stand for themselves. -/
def escape? (flags : Flags) (c : Char) : Option Regex :=
  match classLetter? c, anchorLetter? c, controlLetter? c with
  | some m, _, _ => some (single flags m)
  | _, some a, _ => some (.anchor a)
  | _, _, some d => some (literal flags d)
  | none, none, none => if c.isAlphanum then none else some (literal flags c)

inductive ClassItem where
  | char (c : Char)
  | set (m : Member)

def classEscape? (c : Char) : Option ClassItem :=
  match classLetter? c, controlLetter? c with
  | some m, _ => some (.set m)
  | _, some d => some (.char d)
  | none, none =>
    if c = 'b' then some (.char (Char.ofNat 8)) else if c.isAlphanum then none else some (.char c)

def classItem? : List Char → Option (ClassItem × List Char)
  | '\\' :: c :: rest => (classEscape? c).map fun item => (item, rest)
  | '\\' :: [] => none
  | c :: rest => some (.char c, rest)
  | [] => none

def ClassItem.member : ClassItem → Member
  | .char c => .char c.toNat
  | .set m => m

/-- A bracket in the first place is an element. -/
def classBody? : Nat → Bool → List Char → Option (List Member × List Char)
  | 0, _, _ => none
  | fuel + 1, first, cs =>
    match first, cs with
    | false, ']' :: rest => some ([], rest)
    | _, _ => do
      let (item, rest) ← classItem? cs
      match rest with
      | '-' :: ']' :: rest => some ([item.member, .char '-'.toNat], rest)
      | '-' :: rest =>
        let (top, rest) ← classItem? rest
        match item, top with
        | .char low, .char high =>
          if low.toNat ≤ high.toNat then
            let (members, rest) ← classBody? fuel false rest
            some (.range low.toNat high.toNat :: members, rest)
          else none
        | _, _ => none
      | rest =>
        let (members, rest) ← classBody? fuel false rest
        some (item.member :: members, rest)

def class? (flags : Flags) (cs : List Char) : Option (Regex × List Char) :=
  let (negated, body) := match cs with
    | '^' :: rest => (true, rest)
    | cs => (false, cs)
  (classBody? (body.length + 1) true body).map fun (members, rest) =>
    (.one ⟨negated, flags.ignoreCase, members.eraseDups⟩, rest)

def number (cs : List Char) : Option Nat × List Char :=
  let (digits, rest) := cs.span Char.isDigit
  (if digits.isEmpty then none
    else some (digits.foldl (fun n c => 10 * n + (c.toNat - '0'.toNat)) 0), rest)

def bounds? (cs : List Char) : Option ((Nat × Option Nat) × List Char) :=
  let (low, rest) := number cs
  match low, rest with
  | some n, '\x7d' :: rest => some ((n, some n), rest)
  | low, ',' :: rest =>
    let (high, rest) := number rest
    match rest with
    | '\x7d' :: rest => some ((low.getD 0, high), rest)
    | _ => none
  | _, _ => none

def mark? : List Char → Option ((Nat × Option Nat) × List Char)
  | '*' :: rest => some ((0, none), rest)
  | '+' :: rest => some ((1, none), rest)
  | '?' :: rest => some ((0, some 1), rest)
  | '\x7b' :: rest => bounds? rest
  | _ => none

def chain : List Regex → Regex
  | [] => .empty
  | r :: rs => .seq r (chain rs)

/-- An expression, or the parts of a group that has no effect of its own. -/
inductive Piece where
  | single (r : Regex)
  | group (parts : List Regex)

def Piece.parts : Piece → List Regex
  | .single r => [r]
  | .group parts => parts

def Piece.whole : Piece → Regex
  | .single r => r
  | .group parts => chain parts

/-- An anchor is not repeated, and a repetition is not repeated again without a group. -/
def quantified (piece : Piece) (cs : List Char) : Option (List Regex × List Char) :=
  match mark? cs with
  | none => some (piece.parts, cs)
  | some ((least, most), rest) =>
    match piece with
    | .single (.anchor _) => none
    | piece =>
      if most.any (· < least) then none
      else
        let (greedy, rest) := match rest with
          | '?' :: rest => (false, rest)
          | rest => (true, rest)
        match mark? rest with
        | some _ => none
        | none => some ([.repeated ⟨greedy, least, most⟩ piece.whole], rest)

def sameSimple : Regex → Regex → Bool
  | .one a, .one b => a == b
  | .anchor a, .anchor b => a == b
  | _, _ => false

def members? : List Regex → Option (List Member)
  | [.one ⟨false, _, members⟩] => some members
  | _ => none

def preferring : List (List Regex) → Regex
  | [] => .empty
  | [parts] => chain parts
  | parts :: others => .alt (chain parts) (preferring others)

/-- Alternatives that all are single characters are one set. -/
def merged (flags : Flags) (branches : List (List Regex)) : Regex :=
  match branches.mapM members? with
  | some members => .one ⟨false, flags.ignoreCase, members.flatten.eraseDups⟩
  | none => preferring branches

/-- One sequence, or several alternatives behind what they have in common. -/
def alternatives (flags : Flags) : List Regex → List (List Regex) → List Regex
  | parts, [] => parts
  | [], others => [merged flags ([] :: others)]
  | r :: parts, others =>
    if others.all fun other => other.head?.any (sameSimple r) then
      r :: alternatives flags parts (others.map List.tail)
    else [merged flags ((r :: parts) :: others)]

def dot (flags : Flags) : Regex :=
  if flags.dotAll then .one ⟨true, false, []⟩
  else .one ⟨true, false, [.char '\n'.toNat]⟩

mutual

def alternatives? (flags : Flags) : Nat → List Char → Option (List Regex × List Char)
  | 0, _ => none
  | fuel + 1, cs => do
    let (first, rest) ← sequence? flags fuel cs
    let (others, rest) ← branches? flags fuel rest
    some (alternatives flags first others, rest)

def branches? (flags : Flags) : Nat → List Char → Option (List (List Regex) × List Char)
  | 0, _ => none
  | fuel + 1, cs =>
    match cs with
    | '|' :: rest => do
      let (first, rest) ← sequence? flags fuel rest
      let (others, rest) ← branches? flags fuel rest
      some (first :: others, rest)
    | cs => some ([], cs)

def sequence? (flags : Flags) : Nat → List Char → Option (List Regex × List Char)
  | 0, _ => none
  | fuel + 1, cs =>
    match cs with
    | [] | '|' :: _ | ')' :: _ => some ([], cs)
    | cs => do
      let (piece, rest) ← item? flags fuel cs
      let (parts, rest) ← quantified piece rest
      let (others, rest) ← sequence? flags fuel rest
      some (parts ++ others, rest)

/-- A group that is to be remembered stays an expression of its own. -/
def item? (flags : Flags) : Nat → List Char → Option (Piece × List Char)
  | 0, _ => none
  | fuel + 1, cs =>
    match cs with
    | '(' :: rest => do
      let (remembered, rest) := match rest with
        | '?' :: ':' :: rest => (false, rest)
        | rest => (true, rest)
      let (inner, rest) ← alternatives? flags fuel rest
      match rest with
      | ')' :: rest => some (if remembered then .single (chain inner) else .group inner, rest)
      | _ => none
    | '[' :: rest => (class? flags rest).map fun (r, rest) => (.single r, rest)
    | '.' :: rest => some (.single (dot flags), rest)
    | '^' :: rest => some (.single (.anchor (if flags.multiline then .lineStart else .textStart)), rest)
    | '$' :: rest => some (.single (.anchor (if flags.multiline then .lineEnd else .finalLineEnd)), rest)
    | '\\' :: c :: rest => (escape? flags c).map fun r => (.single r, rest)
    | '\\' :: [] => none
    | '*' :: _ | '+' :: _ | '?' :: _ => none
    | c :: rest => some (.single (literal flags c), rest)
    | [] => none

end

end Reader

def read? (flags : Flags) (pattern : String) : Option Regex :=
  let cs := pattern.toList
  match Reader.alternatives? flags (3 * cs.length + 3) cs with
  | some (parts, []) => some (Reader.chain parts)
  | _ => none

end Regex

end PegMatcher
