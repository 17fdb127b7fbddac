import ScopeMetrics.Frame

/-!
# Parcels

Every line of a unit belongs to exactly one space: to the innermost one that covers it, and to the
earlier of two neighbours that share it.  `Frame.survey` gives every frame a range of lines that
way; a parcel's own lines are those of its range that no parcel inside takes.
-/

namespace ScopeMetrics

/-- A range of lines; empty when `high` is below `low`. -/
structure Span where
  low : Int
  high : Int
  deriving DecidableEq, Repr

namespace Span

def lines (s : Span) : List Int := linesFrom s.low s.high

def contains (s : Span) (n : Int) : Bool := s.low ≤ n && n ≤ s.high

/-- The first line that is free after a range, if the lines were free from `cursor` on. -/
def freeAfter (s : Span) (cursor : Int) : Int := if s.low ≤ s.high then s.high + 1 else cursor

end Span

/-- A frame's body with the lines given to it, and the parcels inside. -/
inductive Parcel where
  | mk (body : Frame.Body) (span : Span) (inside : List Parcel)

namespace Parcel

/-- What holds of a parcel when it holds of the parcels inside holds of every parcel. -/
@[elab_as_elim, induction_eliminator]
theorem inductInside {motive : Parcel → Prop}
    (mk : ∀ body span inside, (∀ p ∈ inside, motive p) → motive (.mk body span inside)) :
    ∀ p, motive p
  | .mk body span inside => mk body span inside fun p _ => inductInside mk p

def body : Parcel → Frame.Body
  | .mk b _ _ => b

def span : Parcel → Span
  | .mk _ s _ => s

def inside : Parcel → List Parcel
  | .mk _ _ ps => ps

/-- The lines of a range that none of the parcels takes. -/
def remaining (s : Span) (inside : List Parcel) : List Int :=
  s.lines.filter fun n => !inside.any fun p => p.span.contains n

/-- The lines that are the parcel's own. -/
def ownLines (p : Parcel) : List Int := remaining p.span p.inside

mutual

/-- A parcel and all parcels inside it in preorder, with their depths. -/
def withDepth (depth : Nat) : Parcel → List (Nat × Parcel)
  | .mk b s ps => (depth, .mk b s ps) :: withDepthAll (depth + 1) ps

def withDepthAll (depth : Nat) : List Parcel → List (Nat × Parcel)
  | [] => []
  | p :: ps => p.withDepth depth ++ withDepthAll depth ps

end

end Parcel

namespace Frame

/-- The lines that a frame can still get inside a range. -/
def reach (f : Frame) (cursor high : Int) : Span :=
  ⟨max f.scope.startLine cursor, min f.scope.endLine high⟩

mutual

/-- Gives a frame its range, and the frames inside theirs. -/
def surveyIn (span : Span) : Frame → Parcel
  | .mk b fs => .mk b span (surveyAll span.high span.low fs)

/-- Gives neighbours their ranges, when the lines from `cursor` to `high` are free. -/
def surveyAll (high cursor : Int) : List Frame → List Parcel
  | [] => []
  | f :: fs =>
    let span := f.reach cursor high
    f.surveyIn span :: surveyAll high (span.freeAfter cursor) fs

end

/-- The parcels of a unit; the outermost frame gets all its lines. -/
def survey (f : Frame) : Parcel := f.surveyIn ⟨f.scope.startLine, f.scope.endLine⟩

end Frame

end ScopeMetrics
