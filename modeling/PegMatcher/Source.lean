import PegMatcher.Value.Order

/-!
# Sources

The input of a match: a text, a byte string, a list or a tuple. A source is read by position, and
`Source.elements` is all that is seen of it that way. Positions below zero count from the end, as
they do for the pieces that `slice` cuts out.
-/

namespace PegMatcher

set_option autoImplicit false

inductive Source where
  | text (chars : Array Char)
  | bytes (data : Array UInt8)
  | list (items : Array Value)
  | tuple (items : Array Value)
deriving Inhabited

namespace Source

def shape : Source → Shape
  | .text _ => .text
  | .bytes _ => .bytes
  | .list _ => .list
  | .tuple _ => .tuple

def size : Source → Nat
  | .text chars => chars.size
  | .bytes data => data.size
  | .list items => items.size
  | .tuple items => items.size

def get? : Source → Nat → Option Value
  | .text chars, i => chars[i]?.map Value.char
  | .bytes data, i => data[i]?.map Value.byte
  | .list items, i => items[i]?
  | .tuple items, i => items[i]?

def elements : Source → List Value
  | .text chars => chars.toList.map Value.char
  | .bytes data => data.toList.map Value.byte
  | .list items => items.toList
  | .tuple items => items.toList

def toValue : Source → Value
  | .text chars => .text chars.toList
  | .bytes data => .bytes data.toList
  | .list items => .list items.toList
  | .tuple items => .tuple items.toList

@[simp] theorem length_elements (s : Source) : s.elements.length = s.size := by
  cases s <;> simp [elements, size]

theorem get?_eq (s : Source) (i : Nat) : s.get? i = s.elements[i]? := by
  cases s <;> simp [elements, get?]

theorem get?_eq_none_iff (s : Source) (i : Nat) : s.get? i = none ↔ s.size ≤ i := by
  rw [get?_eq, List.getElem?_eq_none_iff, length_elements]

def remaining (s : Source) (pos : Int) : Nat := ((s.size : Int) - pos).toNat

/-- The least number that may be an index, of 64 bits; the greatest is one less than its opposite. -/
def leastIndex : Int := -0x8000000000000000

/-- The element at a position, or counted back from the end if the position is below zero. -/
def elementAt (s : Source) (pos : Int) : Except Fault Value :=
  let place := if pos < 0 then pos + s.size else pos
  match if place < 0 then none else s.get? place.toNat with
  | some v => .ok v
  | none => .error (if pos < leastIndex then .indexUnbounded else .indexOutside s.shape)

def peek (s : Source) (pos : Int) : Except Fault Value :=
  if (s.size : Int) ≤ pos then .error (.endOfInput pos) else s.elementAt pos

theorem peek_not_reserved {s : Source} {pos : Int} {f : Fault} (h : s.peek pos = .error f) :
    f.isReserved = false := by
  unfold peek at h
  split at h
  · cases h
    rfl
  · unfold elementAt at h
    dsimp only at h
    split at h <;> cases h
    split <;> rfl

def pick (s : Source) (places : List Nat) : Value :=
  match s with
  | .text chars => .text (places.filterMap fun i => chars[i]?)
  | .bytes data => .bytes (places.filterMap fun i => data[i]?)
  | .list items => .list (places.filterMap fun i => items[i]?)
  | .tuple items => .tuple (places.filterMap fun i => items[i]?)

end Source

def clampBound (size : Nat) (bound : Int) : Nat :=
  min size (if bound < 0 then (bound + size).toNat else bound.toNat)

theorem clampBound_of_le {size p : Nat} (h : p ≤ size) : clampBound size p = p := by
  have hneg : ¬ (p : Int) < 0 := by omega
  rw [clampBound, if_neg hneg, Int.toNat_natCast]
  exact Nat.min_eq_right h

def spanPlaces (size : Nat) (start stop : Int) : List Nat :=
  let low := clampBound size start
  (List.range (clampBound size stop - low)).map (low + ·)

/-- The positions that a step other than zero visits on its way from `start` to before `stop`. -/
def stridePlaces (size : Nat) (start stop : Option Int) (step : Int) : List Nat :=
  let bound (least most : Int) (b : Int) : Int := max least (min most (if b < 0 then b + size else b))
  if 0 < step then
    let low := (start.map (bound 0 size)).getD 0
    let high := (stop.map (bound 0 size)).getD size
    (List.range ((high - low + step - 1) / step).toNat).map fun (i : Nat) => (low + i * step).toNat
  else
    let high := (start.map (bound (-1) (size - 1))).getD (size - 1)
    let low := (stop.map (bound (-1) (size - 1))).getD (-1)
    (List.range ((high - low - step - 1) / (-step)).toNat).map fun (i : Nat) => (high + i * step).toNat

namespace Source

def slice (s : Source) (start stop : Int) : Value := s.pick (spanPlaces s.size start stop)

/-- The piece that a step cuts out; a bound left out is the end that the step comes from or goes to. -/
def stride (s : Source) (start stop step : Option Int) : Except Fault Value :=
  match step.getD 1 with
  | 0 => .error .zeroStep
  | step => .ok (s.pick (stridePlaces s.size start stop step))

def index (s : Source) : Value → Except Fault Value
  | .bool b => s.elementAt (if b then 1 else 0)
  | .int n => if n < -leastIndex then s.elementAt n else .error .indexUnbounded
  | v => .error (.indexKind s.shape v.kind)

end Source

end PegMatcher
