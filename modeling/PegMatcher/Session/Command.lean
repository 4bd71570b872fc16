import PegMatcher.Session.Blueprint

/-!
# Commands

What can be asked of a session, and what it answers. `Session.perform` carries out one command; a
command that fails leaves what it did until then.
-/

namespace PegMatcher

set_option autoImplicit false

inductive CursorCommand where
  | peek
  | rest
  | advance
  | isAtEnd
  | hasMore
  | size
  | describe
  | index (v : Value)
  | stride (start stop step : Option Int)
  | moveTo (pos : Int)
  | save (key : String)
  | restore (mark : String)
  | checkpoint (key : String)
  | call (parser : Blueprint)

inductive CheckpointCommand where
  | commit
  | uncommit
  | rollBackUncommitted
  | isCommitted
  | succeed
  | fail
  | enter
  | leave (faulted : Bool)
  | sub (key : String)

inductive MarkCommand where
  | range
  | slice
  | rollBack
  | guard (v : Value)
  | rollBackInline (v : Value)
  | onCheckpoint (command : CheckpointCommand)

inductive GrammarCommand where
  | replace (pairs : List (String × Blueprint))
  | define (name : String) (body : Blueprint)
  | assign (name : String) (body : Blueprint)
  | mention (name : String)
  | same (a b : String)
  | contains (v : Value)
  | list
  | matchAt (name : String) (input : Input) (pos maxDepth : Int)

inductive TrackerCommand where
  | record (pos : Int) (label : String)
  | reset
  | show
  | report (subject : Value) (key : Option String)

inductive Command where
  | matchAt (parser : Blueprint) (input : Input) (pos : Int)
  | matchesWhole (parser : Blueprint) (input : Input)
  | parse (parser : Blueprint) (input : Input) (options : ParseOptions)
  | clampDepth (requested reserve : Int)
  | cursor (key : String) (input : Input) (pos maxDepth : Int)
  | onCursor (name : String) (command : CursorCommand)
  | onMark (name : String) (command : MarkCommand)
  | store (key : String) (parser : Blueprint)
  | addRule (key : String) (name : Option String)
  | defineRule (name : String) (body : Blueprint)
  | isDefined (rule : String)
  | describeRule (rule : String)
  | onGrammar (name : String) (command : GrammarCommand)
  | onTracker (name : String) (command : TrackerCommand)
  | report (subject : Value) (pos : Int) (message : Option String) (expected : List String)
      (key : Option String)
  | addNote (report : String) (pos : Int) (message : Option String)

inductive Answer where
  | nothing
  | flag (b : Bool)
  | number (n : Int)
  | text (s : String)
  | value (v : Value)
  | span (start stop : Int)
  | cursor (c : Cursor)
  | grammar (g : Grammar)
  | tracker (t : Tracker)
  | report (m : Mismatch)

namespace Answer

def stop? : Option Int → Answer
  | some stop => .number stop
  | none => .nothing

end Answer

namespace Session

def performOnCursor (index : Nat) : CursorCommand → SessionM Answer
  | .peek => do
    let s ← get
    return .value (← ofExcept (s.cursorAt index).peek)
  | .rest => return .value ((← get).cursorAt index).rest
  | .advance => do
    let s ← get
    setCursor index (← ofExcept (s.cursorAt index).advance)
    return .nothing
  | .isAtEnd => return .flag ((← get).cursorAt index).atEnd
  | .hasMore => return .flag !((← get).cursorAt index).atEnd
  | .size => return .number ((← get).cursorAt index).source.size
  | .describe => return .text ((← get).cursorAt index).describe
  | .index v => do
    let s ← get
    return .value (← ofExcept ((s.cursorAt index).source.index v))
  | .stride start stop step => do
    let s ← get
    return .value (← ofExcept ((s.cursorAt index).source.stride start stop step))
  | .moveTo pos => do
    moveCursor index pos
    return .nothing
  | .save key => do
    addSavepoint key ⟨index, ((← get).cursorAt index).pos⟩
    return .nothing
  | .restore mark => do
    let s ← get
    let (cursor, pos) := s.markedPlace (← named s.markNames mark)
    if cursor = index then
      moveCursor index pos
      return .nothing
    else raise .foreignSavepoint
  | .checkpoint key => do
    addCheckpoint key ⟨index, ((← get).cursorAt index).pos, false, []⟩
    return .nothing
  | .call parser => do
    let p ← parser.build
    let e ← ofExcept p.convert
    return .value (← runAt index e)

def performOnCheckpoint (index : Nat) : CheckpointCommand → SessionM Answer
  | .commit => do
    setCommitted index true
    return .nothing
  | .uncommit => do
    setCommitted index false
    return .nothing
  | .rollBackUncommitted => do
    if !(← get).isCommitted index then rollBack (.checkpoint index)
    return .nothing
  | .isCommitted => return .flag ((← get).isCommitted index)
  | .succeed => do
    setCommitted index true
    return .flag true
  | .fail => do
    setCommitted index false
    return .flag false
  | .enter => return .flag true
  | .leave faulted => do
    if faulted || !(← get).isCommitted index then rollBack (.checkpoint index)
    return .flag false
  | .sub key => do
    let s ← get
    let p := s.checkpointAt index
    addCheckpoint key ⟨p.cursor, (s.cursorAt p.cursor).pos, false, index :: p.enclosing⟩
    return .nothing

def performOnMark (mark : Mark) : MarkCommand → SessionM Answer
  | .range => do
    let s ← get
    let (cursor, pos) := s.markedPlace mark
    return .span pos (s.cursorAt cursor).pos
  | .slice => do
    let s ← get
    let (cursor, pos) := s.markedPlace mark
    let c := s.cursorAt cursor
    return .value (c.source.slice pos c.pos)
  | .rollBack => do
    rollBack mark
    return .nothing
  | .guard v => do
    if !v.truthy then rollBack mark
    return .value v
  | .rollBackInline v => do
    rollBack mark
    return .value v
  | .onCheckpoint command =>
    match mark with
    | .checkpoint index => performOnCheckpoint index command
    | .savepoint _ => raise .notCheckpoint

/-- Builds the bodies of a grammar in order. -/
def buildPairs : List (String × Blueprint) → SessionM (List (String × Operand))
  | [] => pure []
  | (name, body) :: rest => do
    let p ← body.build
    let ps ← buildPairs rest
    return (name, p) :: ps

def definePairs (g : Grammar) : List (String × Operand) → SessionM Grammar
  | [] => pure g
  | (name, body) :: rest => do
    let (answer, g) := g.define name body
    ofExcept answer
    task (.note (.ruleDefined (Fault.ruleLabel (some name))))
    definePairs g rest

def performOnGrammar (key : String) : GrammarCommand → SessionM Answer
  | .replace pairs => do
    let pairs ← buildPairs pairs
    let g ← definePairs .empty pairs
    modify fun s => { s with grammars := s.grammars.push g,
                             grammarNames := (key, s.grammars.size) :: s.grammarNames }
    return .nothing
  | .define name body => do
    let index ← grammarIndex key
    let p ← body.build
    defineSlot index name p
    return .text (((← get).grammarAt index).rule name).describe
  | .assign name body => do
    let index ← grammarIndex key
    let p ← body.build
    defineSlot index name p
    return .nothing
  | .mention name => do
    let index ← grammarIndex key
    mentionSlot index name
    return .text (((← get).grammarAt index).rule name).describe
  | .same a b => do
    let index ← grammarIndex key
    mentionSlot index a
    mentionSlot index b
    return .flag (a == b)
  | .contains v => do
    let index ← grammarIndex key
    let g := (← get).grammarAt index
    match v with
    | .text chars => return .flag (g.contains (String.ofList chars))
    | _ => return .flag false
  | .list => do
    let index ← grammarIndex key
    return .grammar ((← get).grammarAt index)
  | .matchAt name input pos maxDepth => do
    let index ← grammarIndex key
    let s ← get
    return .stop? (← task
      ((s.grammarAt index).matchAt index s.environment s.limit name input pos maxDepth))

def modifyTracker (name : String) (change : Tracker → Tracker) : SessionM Unit :=
  modify fun s =>
    { s with journal := { s.journal with trackers := s.journal.trackers.modify name change } }

/-- Keeps a report under a name, if one is given. -/
def keepReport (key : Option String) (m : Mismatch) : SessionM Answer := do
  match key with
  | some key => modify fun s => { s with reports := (key, m) :: s.reports }
  | none => pure ()
  return .report m

def performOnTracker (name : String) : TrackerCommand → SessionM Answer
  | .record pos label => do
    modifyTracker name fun t => t.record pos label
    return .tracker ((← get).journal.trackers.get name)
  | .reset => do
    modifyTracker name fun _ => .fresh
    return .tracker ((← get).journal.trackers.get name)
  | .show => return .tracker ((← get).journal.trackers.get name)
  | .report subject key => do
    let t := (← get).journal.trackers.get name
    let subject ← ofExcept (Subject.ofValue subject)
    keepReport key (t.mismatch subject)

def perform : Command → SessionM Answer
  | .matchAt parser input pos => do
    let p ← parser.build
    let s ← get
    return .stop? (← task (PegMatcher.matchAt s.environment s.limit p input pos))
  | .matchesWhole parser input => do
    let p ← parser.build
    let s ← get
    return .flag (← task (PegMatcher.matchesWhole s.environment s.limit p input))
  | .parse parser input options => do
    let p ← parser.build
    let s ← get
    return .number (← task (PegMatcher.parse s.environment s.limit p input options))
  | .clampDepth requested reserve => do
    let (depth, notice?) := PegMatcher.clampDepth (← get).limit requested reserve
    task (.noteAll notice?)
    return .number depth
  | .cursor key input pos maxDepth => do
    let c ← task (Cursor.place (← get).limit input pos maxDepth)
    addCursor key c
    return .cursor c
  | .onCursor name command => do
    let index ← named (← get).cursorNames name
    performOnCursor index command
  | .onMark name command => do
    let mark ← named (← get).markNames name
    performOnMark mark command
  | .store key parser => do
    let p ← parser.build
    let e ← ofExcept p.convert
    modify fun s => { s with parsers := (key, e) :: s.parsers }
    return .nothing
  | .addRule key name => do
    addRule key name
    return .nothing
  | .defineRule name body => do
    let index ← ruleIndex name
    let p ← body.build
    defineRule index p
    return .flag true
  | .isDefined rule => do
    let index ← ruleIndex rule
    return .flag (((← get).rules[index]?).getD {}).isDefined
  | .describeRule rule => do
    let index ← ruleIndex rule
    return .text (((← get).rules[index]?).getD {}).describe
  | .onGrammar name command => performOnGrammar name command
  | .onTracker name command => performOnTracker name command
  | .report subject pos message expected key => do
    let subject ← ofExcept (Subject.ofValue subject)
    keepReport key (.ofPosition subject pos message expected)
  | .addNote key pos message => do
    let m ← named (← get).reports key
    keepReport (some key) (m.addNote pos message)

end Session

end PegMatcher
