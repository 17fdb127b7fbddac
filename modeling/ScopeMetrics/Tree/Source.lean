import ScopeMetrics.Text.Blank
import ScopeMetrics.Text.Utf8
import ScopeMetrics.Tree.Node

/-!
# Sources

A source is a list of bytes.  Its lines are numbered from one and end at line feeds; a node is
read off the source by its range of bytes.
-/

namespace ScopeMetrics

/-- The bytes of a unit of source code. -/
structure Source where
  bytes : List UInt8
  deriving DecidableEq

namespace Source

/-- The byte that ends a line. -/
def lineFeed : UInt8 := 10

def ofText (s : String) : Source := ⟨Text.encode s⟩

def length (s : Source) : Nat := s.bytes.length

/-- Whether nothing but blanks is in the source. -/
def isBlank (s : Source) : Bool := s.bytes.all Text.isBlankByte

/-- How many lines end before an offset. -/
def row (s : Source) (offset : Nat) : Nat :=
  (s.bytes.take offset).count lineFeed

/-- Whether an offset is the first of its line. -/
def startsLine (s : Source) (offset : Nat) : Bool :=
  match (s.bytes.take offset).getLast? with
  | none => offset == 0
  | some b => offset ≤ s.length && b == lineFeed

/-- The line on which a node starts. -/
def startLine (s : Source) (l : Label) : Nat := s.row l.start + 1

/-- The line on which a node ends: a node that ends at the start of a later line stops on the
line before it. -/
def endLine (s : Source) (l : Label) : Nat :=
  if s.startsLine l.stop && s.row l.start < s.row l.stop then s.row l.stop else s.row l.stop + 1

/-- The text of a node. -/
def text (s : Source) (l : Label) : String :=
  Text.decode ((s.bytes.take l.stop).drop l.start)

/-- The number of lines; a line feed at the very end opens no further line. -/
def lineCount (s : Source) : Nat :=
  match s.bytes.getLast? with
  | none => 0
  | some b => s.bytes.count lineFeed + if b == lineFeed then 0 else 1

/-- The numbers of the lines that hold nothing but blanks. What follows the last line feed counts
as a line here, even if it is empty. -/
def blankLines (s : Source) : List Int :=
  ((Text.splitBy (· == lineFeed) s.bytes).zipIdx 1).filterMap fun (line, number) =>
    if line.all Text.isBlankByte then some (Int.ofNat number) else none

end Source

end ScopeMetrics
