import PegMatcher.Source

/-!
# Hand-written scanners

A scanner is an arbitrary function of the source and a position: it answers a value or a fault, and
where it leaves the cursor. It need not keep to any rule; it may fail after moving, or move back. As it
runs no parsers, the faults that are reserved for these are not among its own.
-/

namespace PegMatcher

set_option autoImplicit false

structure Scanner where
  scan : Source → Int → Except Fault Value × Int
  not_reserved : ∀ src pos f, (scan src pos).1 = .error f → f.isReserved = false

namespace Scanner

def pastElement (src : Source) (pos : Int) : Int := if (src.size : Int) ≤ pos then pos else pos + 1

def always (v : Value) : Scanner where
  scan _ pos := (.ok v, pos)
  not_reserved := by simp

def drain : Scanner where
  scan src pos := (.ok (.bool false), max pos src.size)
  not_reserved := by simp

/-- Moves over `n` elements; it is a fault if there are fewer. -/
def skipFrom (src : Source) : Nat → Int → Except Fault Value × Int
  | 0, pos => (.ok (.bool true), pos)
  | n + 1, pos =>
    if (src.size : Int) ≤ pos then (.error (.endOfInput pos), pos) else skipFrom src n (pos + 1)

theorem skipFrom_not_reserved (src : Source) (n : Nat) (pos : Int) (f : Fault)
    (h : (skipFrom src n pos).1 = .error f) : f.isReserved = false := by
  induction n generalizing pos with
  | zero => simp [skipFrom] at h
  | succ n ih =>
    simp only [skipFrom] at h
    split at h
    · cases h
      rfl
    · exact ih _ h

def skip (n : Nat) : Scanner where
  scan src pos := skipFrom src n pos
  not_reserved src pos f h := skipFrom_not_reserved src n pos f h

def peekIs (v : Value) : Scanner where
  scan src pos := ((src.peek pos).map fun x => .bool (x == v), pos)
  not_reserved src pos f h := by
    cases hp : src.peek pos with
    | ok x => simp [hp, Except.map] at h
    | error g =>
      simp only [hp, Except.map, Except.error.injEq] at h
      subst h
      exact Source.peek_not_reserved hp

/-- Moves over one element, if there is one, and answers a value. -/
def yielding (v : Value) : Scanner where
  scan src pos := (.ok v, pastElement src pos)
  not_reserved := by simp

def raising (text : String) : Scanner where
  scan src pos := (.error (.stated text), pastElement src pos)
  not_reserved src pos f h := by
    cases h
    rfl

end Scanner

end PegMatcher
