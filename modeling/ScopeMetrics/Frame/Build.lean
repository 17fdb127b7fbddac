import ScopeMetrics.Classify
import ScopeMetrics.Declaration
import ScopeMetrics.Frame

/-!
# Building frames

A walk over a syntax tree in preorder.  A node that opens a scope starts a frame, and its whole
subtree belongs to that frame; any other classified node gives one event to the innermost frame
that is open.  What the parser could not read and what is inside a comment is not entered.

A node adds something to the frame it stands in (`Yield`): events, frames, and a change of the
access that later members have.
-/

namespace ScopeMetrics

/-- What a node is told about where it stands. -/
structure Surroundings where
  /-- The kind of the innermost frame. -/
  kind : SpaceKind
  /-- The node that opened the innermost frame. -/
  opener : Node
  /-- How many nesting constructs are open in the innermost frame. -/
  nesting : Int := 0
  /-- Whether the node is part of something that counts as one operand. -/
  inOperand : Bool := false

/-- What nodes add to the frame they stand in. -/
structure Yield where
  /-- The access of the frame after the nodes. -/
  access : Option Bool
  events : List Event := []
  frames : List Frame := []
  /-- How many nodes were looked at. -/
  visited : Nat := 0
  /-- How many of them the parser could not read. -/
  skipped : Nat := 0

namespace Yield

/-- What two runs of nodes add, one after the other. -/
def andThen (a b : Yield) : Yield where
  access := b.access
  events := a.events ++ b.events
  frames := a.frames ++ b.frames
  visited := a.visited + b.visited
  skipped := a.skipped + b.skipped

end Yield

namespace Reading

/-- The category of a node for its frame: inside an operand there are no further tokens. -/
def categoryIn (r : Reading) (s : Surroundings) (p : Place) : Category :=
  if s.inOperand then r.classify p \ .token else r.classify p

/-- The access after a node: only classes have sections. -/
def accessAfter (r : Reading) (s : Surroundings) (access : Option Bool) (n : Node) : Option Bool :=
  if s.kind = .class_ then (r.accessChange? n).or access else access

/-- The scope that a node opens. -/
def scopeOf (r : Reading) (n : Node) (c : Category) : Scope where
  kind := .ofCategory c
  name := some (r.spaceName n c)
  startLine := r.source.startLine n.label
  endLine := r.source.endLine n.label
  startByte := n.label.start
  endByte := n.label.stop

/-- The event by which a scope opener starts its own frame. -/
def openingEvent (r : Reading) (n : Node) (c : Category) : Event where
  kind := n.kind
  category := c ∩ .scope
  startLine := r.source.startLine n.label
  endLine := r.source.endLine n.label
  arity := if c.meets .callable then some (r.arity n) else none

/-- The event by which a class hears of a method. -/
def methodEvent (r : Reading) (s : Surroundings) (access : Option Bool) (n : Node)
    (c : Category) : List Event :=
  if s.kind = .class_ && c.has .function then
    [{ kind := n.kind
       category := {.function}
       text := r.spaceName n c
       startLine := r.source.startLine n.label
       endLine := r.source.startLine n.label
       visible := some (r.isPublic n s.opener access) }]
  else []

/-- The event of a node that opens no scope; a node without a category gives none. -/
def nodeEvent (r : Reading) (s : Surroundings) (access : Option Bool) (p : Place)
    (c : Category) : List Event :=
  if c = ∅ then []
  else
    [{ kind := p.kind
       category := c
       text := if c.meets .token then r.text p.node else ""
       startLine := r.source.startLine p.node.label
       endLine := r.source.endLine p.node.label
       nesting := s.nesting
       sequence := if c.has .logical then startsSequence p else true
       visible :=
         if c.has .attribute && s.kind = .class_ then some (r.isPublic p.node s.opener access)
         else none }]

/-- The access with which a frame starts. -/
def startAccess (r : Reading) (n : Node) (kind : SpaceKind) : Option Bool :=
  if kind = .class_ then some (r.defaultAccess n) else none

/-- What the children of a scope opener are told. -/
def opened (s : Surroundings) (n : Node) (c : Category) : Surroundings where
  kind := .ofCategory c
  opener := n
  inOperand := s.inOperand

/-- What the children of any other node are told. -/
def entered (r : Reading) (s : Surroundings) (n : Node) (c : Category) : Surroundings :=
  { s with
    nesting := if c.has .nesting then s.nesting + 1 else s.nesting
    inOperand := s.inOperand || r.isComposite n }

mutual

/-- What a node adds to the innermost frame. -/
def visit (r : Reading) (above : List Crumb) (s : Surroundings) (access : Option Bool) :
    Node → Yield
  | .mk l cs =>
    let n : Node := .mk l cs
    if l.isError then { access, visited := 1, skipped := 1 }
    else
      let c := r.categoryIn s ⟨n, above⟩
      let access := r.accessAfter s access n
      if c.meets .scope then
        let inner := r.visitAll l above (opened s n c) [] (r.startAccess n (.ofCategory c)) cs
        let body : Frame.Body :=
          { scope := r.scopeOf n c
            access := inner.access
            events := r.openingEvent n c :: inner.events }
        { access
          events := r.methodEvent s access n c
          frames := [.mk body inner.frames]
          visited := inner.visited + 1
          skipped := inner.skipped }
      else
        let here : Yield := { access, events := r.nodeEvent s access ⟨n, above⟩ c, visited := 1 }
        if c.has .comment then here
        else here.andThen (r.visitAll l above (r.entered s n c) [] access cs)

/-- What the children of a node add that are left, when `before` holds those passed. -/
def visitAll (r : Reading) (l : Label) (above : List Crumb) (s : Surroundings)
    (before : List Node) (access : Option Bool) : List Node → Yield
  | [] => { access }
  | c :: cs =>
    let first := r.visit (⟨l, before, cs⟩ :: above) s access c
    first.andThen (r.visitAll l above s (c :: before) first.access cs)

end

/-- What walking a whole tree gives. -/
structure Walk where
  draft : Draft
  visited : Nat
  skipped : Nat

/-- The scope of the whole unit. -/
def unitScope (r : Reading) (name : Option String) (root : Node) : Scope where
  kind := .unit
  name
  startLine := 1
  endLine := max (r.source.endLine root.label) r.source.lineCount
  startByte := 0
  endByte := r.source.length

/-- Walks a tree and drafts its spaces. -/
def walk (r : Reading) (name : Option String) (root : Node) : Walk :=
  let inner := r.visit [] { kind := .unit, opener := root } none root
  { draft :=
      { unit := .mk { scope := r.unitScope name root, events := inner.events } inner.frames
        blankLines := r.source.blankLines }
    visited := inner.visited
    skipped := inner.skipped }

end Reading

end ScopeMetrics
