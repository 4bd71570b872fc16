/-!
# Failure trackers

A tracker remembers the furthest position at which something was recorded as missing, and the labels
recorded there, each once and in the order of their first recording.
-/

namespace PegMatcher

set_option autoImplicit false

structure Tracker where
  /-- The furthest position recorded, or -1. -/
  pos : Int := -1
  expected : List String := []
deriving DecidableEq

namespace Tracker

def fresh : Tracker := {}

def record (t : Tracker) (pos : Int) (label : String) : Tracker :=
  if t.pos < pos then ⟨pos, [label]⟩
  else if pos = t.pos ∧ label ∉ t.expected then { t with expected := t.expected ++ [label] }
  else t

def message (t : Tracker) : String :=
  match t.expected with
  | [] => "Failed to parse."
  | [label] => "Expected " ++ label
  | labels => "Expected one of: " ++ String.intercalate ", " labels

end Tracker

/-- Trackers by name. A name that is not listed has a fresh tracker. -/
abbrev Trackers := List (String × Tracker)

namespace Trackers

def get (ts : Trackers) (name : String) : Tracker := (ts.lookup name).getD .fresh

def modify (ts : Trackers) (name : String) (change : Tracker → Tracker) : Trackers :=
  match ts with
  | [] => [(name, change .fresh)]
  | (key, t) :: rest =>
    if key = name then (key, change t) :: rest else (key, t) :: modify rest name change

@[simp] theorem get_modify_self (ts : Trackers) (name : String) (change : Tracker → Tracker) :
    (modify ts name change).get name = change (ts.get name) := by
  induction ts with
  | nil => simp [modify, get]
  | cons entry rest ih =>
    obtain ⟨key, t⟩ := entry
    by_cases h : key = name
    · subst h
      simp [modify, get]
    · have h' : (name == key) = false := by simpa using fun e => h e.symm
      simpa [modify, get, h, h', List.lookup_cons] using ih

theorem get_modify_of_ne (ts : Trackers) {name other : String} (change : Tracker → Tracker)
    (h : other ≠ name) : (modify ts name change).get other = ts.get other := by
  induction ts with
  | nil =>
    have h' : (other == name) = false := by simpa using h
    simp [modify, get, List.lookup_cons, h']
  | cons entry rest ih =>
    obtain ⟨key, t⟩ := entry
    by_cases hk : key = name
    · subst hk
      have h' : (other == key) = false := by simpa using h
      simp [modify, get, List.lookup_cons, h']
    · by_cases ho : other = key
      · subst ho
        simp [modify, get, hk]
      · have h' : (other == key) = false := by simpa using ho
        simpa [modify, get, hk, h', List.lookup_cons] using ih

end Trackers

end PegMatcher
