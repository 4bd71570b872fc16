import PegMatcher.Value.Decimal

/-!
# Values

What a matched input is made of and what a parser may answer: null, truth values, unbounded
integers, doubles, texts, byte strings, and lists and tuples of values. The three kinds of number
are equal when they are numerically equal; any other two values are equal only within one kind.
-/

namespace PegMatcher

set_option autoImplicit false

inductive Value where
  | null
  | bool (value : Bool)
  | int (value : Int)
  | float (value : Binary64)
  | text (chars : List Char)
  | bytes (data : List UInt8)
  | list (items : List Value)
  | tuple (items : List Value)
deriving Inhabited

inductive Kind where
  | null | bool | int | float | text | bytes | list | tuple
deriving DecidableEq

def Kind.name : Kind → String
  | .null => "NoneType"
  | .bool => "bool"
  | .int => "int"
  | .float => "float"
  | .text => "str"
  | .bytes => "bytes"
  | .list => "list"
  | .tuple => "tuple"

namespace Value

def kind : Value → Kind
  | .null => .null
  | .bool _ => .bool
  | .int _ => .int
  | .float _ => .float
  | .text _ => .text
  | .bytes _ => .bytes
  | .list _ => .list
  | .tuple _ => .tuple

def char (c : Char) : Value := .text [c]

def byte (b : UInt8) : Value := .int b.toNat

/-- The number that a numeric value stands for; true counts as one and false as zero. -/
def number? : Value → Option Number
  | .bool b => some (.exact (.ofInt (if b then 1 else 0)))
  | .int n => some (.exact (.ofInt n))
  | .float x => some x.number
  | _ => none

/-- Null, false, the zeros and whatever is empty do not count as true. -/
def truthy : Value → Bool
  | .null => false
  | .bool b => b
  | .int n => n != 0
  | .float x => !x.isZero
  | .text chars => !chars.isEmpty
  | .bytes data => !data.isEmpty
  | .list items => !items.isEmpty
  | .tuple items => !items.isEmpty

mutual

def same : Value → Value → Bool
  | .null, .null => true
  | .text a, .text b => a == b
  | .bytes a, .bytes b => a == b
  | .list a, .list b => sameItems a b
  | .tuple a, .tuple b => sameItems a b
  | a, b =>
    match a.number?, b.number? with
    | some x, some y => x.same y
    | _, _ => false

def sameItems : List Value → List Value → Bool
  | [], [] => true
  | a :: as, b :: bs => same a b && sameItems as bs
  | _, _ => false

end

instance : BEq Value := ⟨same⟩

mutual

/-- What keeps a value out of a set: a list cannot be a member, nor a tuple that holds one. -/
def unhashable? : Value → Option Kind
  | .list _ => some .list
  | .tuple items => firstUnhashable? items
  | _ => none

def firstUnhashable? : List Value → Option Kind
  | [] => none
  | v :: vs =>
    match unhashable? v with
    | some kind => some kind
    | none => firstUnhashable? vs

end

@[simp] theorem truthy_bool (b : Bool) : (Value.bool b).truthy = b := rfl

end Value

end PegMatcher
