import ScopeMetrics.Space

/-!
# Exporting spaces

Spaces as plain data, down to a chosen depth.  The metrics of what is left out stay part of the
metrics of what surrounds it.
-/

namespace ScopeMetrics.Space

/-- Whether the spaces inside a space at some depth are still shown. -/
def showsInside (maxDepth : Option Int) (depth : Int) : Bool :=
  match maxDepth with
  | none => true
  | some d => depth < d

mutual

/-- A space at some depth as plain data. -/
def toValueAt (maxDepth : Option Int) (depth : Int) : Space → Except Arithmetic.Fault Value
  | .mk s _ m ss => do
    let metrics ← m.toValue
    let inside ← if showsInside maxDepth depth then toValueAll maxDepth (depth + 1) ss else .ok []
    return .map [("kind", .text s.kind.name), ("name", Value.ofText? s.name),
      ("start_line", .int s.startLine), ("end_line", .int s.endLine),
      ("metrics", metrics), ("spaces", .list inside)]

def toValueAll (maxDepth : Option Int) (depth : Int) :
    List Space → Except Arithmetic.Fault (List Value)
  | [] => .ok []
  | s :: ss => do
    let first ← s.toValueAt maxDepth depth
    return first :: (← toValueAll maxDepth depth ss)

end

/-- A space as plain data. -/
def toValue (s : Space) (maxDepth : Option Int := none) : Except Arithmetic.Fault Value :=
  s.toValueAt maxDepth 0

end ScopeMetrics.Space
