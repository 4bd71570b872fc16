import PegMatcher.Matching

/-!
# Sessions

A session holds cursors, the positions saved on them, rules, grammars, trackers and reports under
names that its user chooses. Objects live in arenas and are known by their index there, so a name that
is given to a new object leaves the old one to whatever still refers to it. Rules, grammars and
trackers come into being when their name is first used.
-/

namespace PegMatcher

set_option autoImplicit false

structure Savepoint where
  cursor : Nat
  pos : Int

structure Checkpoint where
  cursor : Nat
  pos : Int
  committed : Bool := false
  /-- The checkpoints around this one, the nearest first. -/
  enclosing : List Nat := []

inductive Mark where
  | savepoint (index : Nat)
  | checkpoint (index : Nat)

structure Session where
  limit : Int := 1000
  journal : Journal := {}
  rules : Array Rule := #[]
  ruleNames : List (String × Nat) := []
  grammars : Array Grammar := #[]
  grammarNames : List (String × Nat) := []
  cursors : Array Cursor := #[]
  cursorNames : List (String × Nat) := []
  savepoints : Array Savepoint := #[]
  checkpoints : Array Checkpoint := #[]
  markNames : List (String × Mark) := []
  parsers : List (String × Expr) := []
  reports : List (String × Mismatch) := []

/-- What happens in a session answers or fails, and its effects stay in both cases. -/
abbrev SessionM := EStateM Failure Session

namespace Session

def environment (s : Session) : Environment
  | .loose index => (s.rules[index]?).getD {}
  | .slot grammar name => ((s.grammars[grammar]?).getD .empty).rule name

def raise {α : Type} (f : Fault) : SessionM α := throw (.fault f)

def ofExcept {α : Type} : Except Fault α → SessionM α
  | .ok a => pure a
  | .error f => raise f

def task {α : Type} (t : Task α) : SessionM α := do
  let s ← get
  match t.run s.journal with
  | .ok a j =>
    set { s with journal := j }
    return a
  | .error e j =>
    set { s with journal := j }
    throw e

def named {α : Type} (table : List (String × α)) (name : String) : SessionM α :=
  match table.lookup name with
  | some a => pure a
  | none => raise (.unknownName name)

def ruleIndex (name : String) : SessionM Nat := do
  let s ← get
  match s.ruleNames.lookup name with
  | some index => return index
  | none =>
    set { s with rules := s.rules.push ⟨some name, none⟩,
                 ruleNames := (name, s.rules.size) :: s.ruleNames }
    return s.rules.size

def addRule (key : String) (name : Option String) : SessionM Unit :=
  modify fun s => { s with rules := s.rules.push ⟨name, none⟩,
                           ruleNames := (key, s.rules.size) :: s.ruleNames }

def defineRule (index : Nat) (body : Operand) : SessionM Unit := do
  let s ← get
  let rule := (s.rules[index]?).getD {}
  let rule ← ofExcept (rule.define body)
  modify fun s => { s with rules := s.rules.setIfInBounds index rule }
  task (.note (.ruleDefined (Fault.ruleLabel rule.name)))

def grammarIndex (name : String) : SessionM Nat := do
  let s ← get
  match s.grammarNames.lookup name with
  | some index => return index
  | none =>
    set { s with grammars := s.grammars.push .empty,
                 grammarNames := (name, s.grammars.size) :: s.grammarNames }
    return s.grammars.size

def grammarAt (s : Session) (index : Nat) : Grammar := (s.grammars[index]?).getD .empty

def setGrammar (index : Nat) (g : Grammar) : SessionM Unit :=
  modify fun s => { s with grammars := s.grammars.setIfInBounds index g }

def mentionSlot (index : Nat) (name : String) : SessionM Unit := do
  let s ← get
  setGrammar index ((s.grammarAt index).mention name)

def defineSlot (index : Nat) (name : String) (body : Operand) : SessionM Unit := do
  let s ← get
  let (answer, g) := (s.grammarAt index).define name body
  setGrammar index g
  ofExcept answer
  task (.note (.ruleDefined (Fault.ruleLabel (some name))))

def addCursor (key : String) (c : Cursor) : SessionM Unit :=
  modify fun s => { s with cursors := s.cursors.push c,
                           cursorNames := (key, s.cursors.size) :: s.cursorNames }

def cursorAt (s : Session) (index : Nat) : Cursor :=
  (s.cursors[index]?).getD ⟨.tuple #[], 0, 1, 0⟩

def setCursor (index : Nat) (c : Cursor) : SessionM Unit :=
  modify fun s => { s with cursors := s.cursors.setIfInBounds index c }

def moveCursor (index : Nat) (pos : Int) : SessionM Unit := do
  let s ← get
  setCursor index { s.cursorAt index with pos }

def runAt (index : Nat) (e : Expr) : SessionM Value := do
  let s ← get
  let (answer, c, j) := (s.cursorAt index).run s.environment e s.journal
  set { s with journal := j }
  setCursor index c
  ofExcept answer

def savepointAt (s : Session) (index : Nat) : Savepoint := (s.savepoints[index]?).getD ⟨0, 0⟩

def checkpointAt (s : Session) (index : Nat) : Checkpoint := (s.checkpoints[index]?).getD ⟨0, 0, false, []⟩

def addSavepoint (key : String) (p : Savepoint) : SessionM Unit :=
  modify fun s => { s with savepoints := s.savepoints.push p,
                           markNames := (key, .savepoint s.savepoints.size) :: s.markNames }

def addCheckpoint (key : String) (p : Checkpoint) : SessionM Unit :=
  modify fun s => { s with checkpoints := s.checkpoints.push p,
                           markNames := (key, .checkpoint s.checkpoints.size) :: s.markNames }

def setCommitted (index : Nat) (committed : Bool) : SessionM Unit :=
  modify fun s => { s with
    checkpoints := s.checkpoints.setIfInBounds index { s.checkpointAt index with committed } }

/-- Whether a checkpoint or one around it is committed. -/
def isCommitted (s : Session) (index : Nat) : Bool :=
  let p := s.checkpointAt index
  p.committed || p.enclosing.any fun outer => (s.checkpointAt outer).committed

/-- The cursor of a saved position, and the position. -/
def markedPlace (s : Session) : Mark → Nat × Int
  | .savepoint index => ((s.savepointAt index).cursor, (s.savepointAt index).pos)
  | .checkpoint index => ((s.checkpointAt index).cursor, (s.checkpointAt index).pos)

def rollBack (mark : Mark) : SessionM Unit := do
  let s ← get
  let (cursor, pos) := s.markedPlace mark
  moveCursor cursor pos

end Session

end PegMatcher
