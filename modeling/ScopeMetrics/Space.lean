import ScopeMetrics.Bundle
import ScopeMetrics.Failure
import ScopeMetrics.Parcel

/-!
# Spaces

A space is a scope with two bundles of metrics: its own, and those of it and everything inside it.
`Draft.spaces` makes the spaces of a unit out of its frames.
-/

namespace ScopeMetrics

/-- A scope with its metrics and the spaces inside. -/
inductive Space where
  | mk (scope : Scope) (own metrics : Bundle) (inside : List Space)

namespace Space

/-- What holds of a space when it holds of the spaces inside holds of every space. -/
@[elab_as_elim, induction_eliminator]
theorem inductInside {motive : Space → Prop}
    (mk : ∀ scope own metrics inside, (∀ s ∈ inside, motive s) →
      motive (.mk scope own metrics inside)) : ∀ s, motive s
  | .mk scope own metrics inside => mk scope own metrics inside fun s _ => inductInside mk s

def scope : Space → Scope
  | .mk s _ _ _ => s

/-- The metrics of the space alone. -/
def own : Space → Bundle
  | .mk _ o _ _ => o

/-- The metrics of the space and of all spaces inside it. -/
def metrics : Space → Bundle
  | .mk _ _ m _ => m

def inside : Space → List Space
  | .mk _ _ _ ss => ss

def isLeaf (s : Space) : Bool := s.inside.isEmpty

mutual

/-- A space and all spaces inside it in preorder, with their depths. -/
def withDepthFrom (depth : Nat) : Space → List (Nat × Space)
  | .mk s o m ss => (depth, .mk s o m ss) :: withDepthAll (depth + 1) ss

def withDepthAll (depth : Nat) : List Space → List (Nat × Space)
  | [] => []
  | s :: ss => s.withDepthFrom depth ++ withDepthAll depth ss

end

/-- A space and all spaces inside it in preorder, the space itself at depth zero. -/
def withDepth (s : Space) : List (Nat × Space) := s.withDepthFrom 0

end Space

/-- The lines of a unit by what they carry, whichever space they belong to. -/
structure LineUse where
  code : LineSet
  comments : LineSet
  blank : List Int

namespace Parcel

/-- The complexities of the methods, for a class; nothing for another space. -/
def weighted (kind : SpaceKind) (inside : List Space) : Weighted :=
  if kind = .class_ then
    .ofClass ((inside.filter fun s => s.scope.kind = .function).map fun s =>
      s.metrics.cyclomatic.sum)
  else {}

/-- The metrics of a space alone. -/
def ownBundle (use : LineUse) (body : Frame.Body) (lines : List Int)
    (inside : List Space) : Bundle :=
  let t := body.tally
  { cyclomatic := .ofSpace t.decisions (body.scope.kind.isCallable || inside.isEmpty)
    cognitive := t.cognitive
    halstead := t.halstead
    abc := t.abc
    loc := .ofLines lines use.code.contains use.comments.contains t.lloc use.blank.contains
    methods := t.methods
    arguments := t.arguments
    exits := t.exitCounts
    publicMethods := t.publicMethods
    publicAttributes := t.publicAttributes
    weighted := weighted body.scope.kind inside : Bundle }.derive

/-- The metrics of a space and of the spaces inside it. -/
def rolledUp (own : Bundle) (inside : List Space) : Bundle :=
  (inside.foldl (fun b s => b.combine s.metrics) own).derive

mutual

/-- The space of a parcel. -/
def space (use : LineUse) : Parcel → Space
  | .mk b s ps =>
    let inside := spaceAll use ps
    let own := ownBundle use b (remaining s ps) inside
    .mk b.scope own (rolledUp own inside) inside

def spaceAll (use : LineUse) : List Parcel → List Space
  | [] => []
  | p :: ps => p.space use :: spaceAll use ps

end

end Parcel

namespace Draft

/-- What the lines of the unit carry. -/
def lineUse (d : Draft) : LineUse := ⟨d.unit.codeLines, d.unit.commentLines, d.blankLines⟩

/-- The spaces of a unit.  Every frame has to be closed; the first that is not is reported. -/
def spaces (d : Draft) : Except Failure Space :=
  match d.unit.open? with
  | some b => .error (.internal "frame was never closed" [("kind", .text b.scope.kind.name)])
  | none => .ok (d.unit.survey.space d.lineUse)

end Draft

end ScopeMetrics
