import PegMatcher.Value.Binary64
import PegMatcher.Value.Decimal
import PegMatcher.Value.Basic
import PegMatcher.Value.Render
import PegMatcher.Value.Order
import PegMatcher.Text.Ranges
import PegMatcher.Text.Printable
import PegMatcher.Text.Classes
import PegMatcher.Text.Word
import PegMatcher.Text.Case
import PegMatcher.Text.Lines
import PegMatcher.Fault
import PegMatcher.Source
import PegMatcher.Regex.Basic
import PegMatcher.Regex.Reader
import PegMatcher.Quoting
import PegMatcher.Primitive
import PegMatcher.Tracker
import PegMatcher.Parser
import PegMatcher.Block
import PegMatcher.Scanner
import PegMatcher.Routine
import PegMatcher.Expr
import PegMatcher.Operand
import PegMatcher.Lexical
import PegMatcher.Notice
import PegMatcher.Grammar
import PegMatcher.Mismatch
import PegMatcher.Cursor
import PegMatcher.Matching
import PegMatcher.Session.Basic
import PegMatcher.Session.Blueprint
import PegMatcher.Session.Command
import PegMatcher.Proofs.Likeness
import PegMatcher.Proofs.Nesting
import PegMatcher.Proofs.Depth
import PegMatcher.Proofs.PrimitiveMatches
import PegMatcher.Proofs.Equality
import PegMatcher.Proofs.Motion
import PegMatcher.Proofs.Consumption
import PegMatcher.Proofs.Termination
import PegMatcher.Proofs.Derivation
import PegMatcher.Proofs.Recognition
import PegMatcher.Proofs.Limits
import PegMatcher.Proofs.Refusal
import PegMatcher.Proofs.Faults
import PegMatcher.Proofs.Alignment
import PegMatcher.Proofs.Locality
import PegMatcher.Proofs.Preservation
import PegMatcher.Proofs.Watching
import PegMatcher.Proofs.Answers
import PegMatcher.Proofs.EntryPoints
import PegMatcher.Proofs.Misses
import PegMatcher.Proofs.Furthest
import PegMatcher.Proofs.Reports
import PegMatcher.Proofs.Confinement
import PegMatcher.Proofs.SoundSessions
import PegMatcher.Proofs.SoundBuilding
import PegMatcher.Proofs.ReachableSessions
import PegMatcher.Proofs.Tables
import PegMatcher.Proofs.Definitions
import PegMatcher.Proofs.LateBinding
import PegMatcher.Proofs.Leaving
import PegMatcher.Proofs.Positions
import PegMatcher.Proofs.Carets
import PegMatcher.Proofs.GrammarHistories
import PegMatcher.Proofs.Inlining
import PegMatcher.Proofs.Lookahead
import PegMatcher.Proofs.Excerpts
import PegMatcher.Proofs.RefusedDefinitions
import PegMatcher.Proofs.LeftRecursion
import PegMatcher.Proofs.Grouping
import PegMatcher.Proofs.Replay
import PegMatcher.Proofs.OperatorLaws
import PegMatcher.Proofs.Expansions
import PegMatcher.Proofs.TrackerHistories
import PegMatcher.Proofs.Coordinates
import PegMatcher.Proofs.Characters
import PegMatcher.Proofs.QuotedStrings
import PegMatcher.Proofs.Words
import PegMatcher.Proofs.LongestMatches
import PegMatcher.Proofs.Numbers
import PegMatcher.Proofs.Identifiers
import PegMatcher.Proofs.RecursionDepth
import PegMatcher.Proofs.DelimitedLists
import PegMatcher.Proofs.BalancedWords
