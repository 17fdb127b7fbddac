import ScopeMetrics.Event
import ScopeMetrics.Metric.Complexity
import ScopeMetrics.Metric.Counts
import ScopeMetrics.Metric.Halstead

/-!
# Tallies

What the events of one space add up to.  Each event has a tally of its own (`Tally.ofEvent`),
tallies are merged part by part, and the tally of a list of events is the merge of theirs.
-/

namespace ScopeMetrics

/-- The sums, sets and bags that the events of a space give. -/
structure Tally where
  decisions : Int := 0
  /-- The cognitive score. -/
  score : Int := 0
  maxNesting : Int := 0
  halstead : Halstead := {}
  abc : Abc := {}
  codeLines : LineSet := ∅
  commentLines : LineSet := ∅
  /-- The number of statements. -/
  lloc : Int := 0
  methods : Methods := {}
  arguments : Arguments := {}
  exits : Int := 0
  publicMethods : Members := {}
  publicAttributes : Members := {}
  deriving DecidableEq

namespace Tally

/-- One if a condition holds. -/
def one (b : Bool) : Int := if b then 1 else 0

/-- What a node scores: a nesting construct one more than its nesting, an else or a new sequence
of logical operators one. -/
def scoreOf (e : Event) : Int :=
  if e.has .nesting then 1 + e.nesting
  else if e.has .else_ then 1
  else one (e.has .logical && e.sequence)

/-- The bag of a counted token. A node with both flags is an operator. -/
def halsteadOf (e : Event) : Halstead :=
  if e.has .operator then { operators := .single e.text }
  else if e.has .operand then { operands := .single e.text }
  else {}

/-- A callable that opens its space; closures are told from functions by their flag. -/
def methodsOf (e : Event) : Methods :=
  if !e.opensCallable then {}
  else if e.has .closure then { closures := 1 } else { functions := 1 }

def argumentsOf (e : Event) : Arguments :=
  let n := e.arity.getD 0
  if !e.opensCallable then {}
  else if e.has .closure then { closureArgs := n, closures := 1, max := n }
  else { functionArgs := n, functions := 1, max := n }

/-- A class that opens its space, or a member with the given flag. -/
def membersOf (flag : Flag) (e : Event) : Members :=
  if e.opensClass then { classes := 1 }
  else if e.has flag then
    match e.visible with
    | some true => { public_ := 1 }
    | some false => { private_ := 1 }
    | none => {}
  else {}

/-- The tally of one event. -/
def ofEvent (e : Event) : Tally where
  decisions := one (e.has .decision)
  score := scoreOf e
  maxNesting := if e.has .nesting then max 0 (e.nesting + 1) else 0
  halstead := halsteadOf e
  abc := ⟨one (e.has .assignment), one (e.has .call), one (e.has .condition)⟩
  codeLines :=
    if !e.has .comment && e.category.meets .code then LineSet.range e.startLine e.endLine else ∅
  commentLines := if e.has .comment then LineSet.range e.startLine e.endLine else ∅
  lloc := one (e.has .statement)
  methods := methodsOf e
  arguments := argumentsOf e
  exits := one (e.has .exit)
  publicMethods := membersOf .function e
  publicAttributes := membersOf .attribute e

def merge (a b : Tally) : Tally where
  decisions := a.decisions + b.decisions
  score := a.score + b.score
  maxNesting := max a.maxNesting b.maxNesting
  halstead := a.halstead.combine b.halstead
  abc := a.abc.combine b.abc
  codeLines := a.codeLines.union b.codeLines
  commentLines := a.commentLines.union b.commentLines
  lloc := a.lloc + b.lloc
  methods := a.methods.combine b.methods
  arguments := a.arguments.combine b.arguments
  exits := a.exits + b.exits
  publicMethods := a.publicMethods.combine b.publicMethods
  publicAttributes := a.publicAttributes.combine b.publicAttributes

/-- A tally that has seen one more event. -/
def observe (t : Tally) (e : Event) : Tally := t.merge (ofEvent e)

/-- The tally of a list of events. -/
def ofEvents (es : List Event) : Tally := es.foldl observe {}

/-- The cognitive complexity of the space. -/
def cognitive (t : Tally) : Cognitive := .ofSpace t.score t.maxNesting

/-- The exits of the space. -/
def exitCounts (t : Tally) : Exits := .ofSpace t.exits

end Tally

end ScopeMetrics
