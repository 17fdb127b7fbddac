import ScopeMetrics.Arithmetic
import ScopeMetrics.Value

/-!
# Cyclomatic and cognitive complexity

Values of one space, and of several spaces combined.
-/

namespace ScopeMetrics

/-- Cyclomatic complexity.  `sum` counts every decision and one entry path for each callable and
for each space without spaces inside; `min` and `max` range over the spaces' decisions plus one. -/
structure Cyclomatic where
  decisions : Int := 0
  sum : Int := 1
  spaces : Int := 1
  min : Int := 1
  max : Int := 1
  deriving DecidableEq, Repr

namespace Cyclomatic

/-- The value of one space; `entry` says whether it adds an entry path. -/
def ofSpace (decisions : Int) (entry : Bool := true) : Cyclomatic where
  decisions
  sum := decisions + if entry then 1 else 0
  spaces := 1
  min := decisions + 1
  max := decisions + 1

def combine (a b : Cyclomatic) : Cyclomatic where
  decisions := a.decisions + b.decisions
  sum := a.sum + b.sum
  spaces := a.spaces + b.spaces
  min := Min.min a.min b.min
  max := Max.max a.max b.max

def counts (a : Cyclomatic) : List Int := [a.decisions, a.sum, a.spaces, a.min, a.max]

def entries (a : Cyclomatic) : Except Arithmetic.Fault Entries := do
  let average ← Arithmetic.share a.sum a.spaces
  return [("sum", .int a.sum), ("average", .real average), ("min", .int a.min), ("max", .int a.max)]

end Cyclomatic

/-- Cognitive complexity. -/
structure Cognitive where
  sum : Int := 0
  spaces : Int := 1
  min : Int := 0
  max : Int := 0
  maxNesting : Int := 0
  deriving DecidableEq, Repr

namespace Cognitive

/-- The value of one space. -/
def ofSpace (score : Int) (maxNesting : Int := 0) : Cognitive where
  sum := score
  spaces := 1
  min := score
  max := score
  maxNesting

def combine (a b : Cognitive) : Cognitive where
  sum := a.sum + b.sum
  spaces := a.spaces + b.spaces
  min := Min.min a.min b.min
  max := Max.max a.max b.max
  maxNesting := Max.max a.maxNesting b.maxNesting

def counts (a : Cognitive) : List Int := [a.sum, a.spaces, a.min, a.max, a.maxNesting]

def entries (a : Cognitive) : Except Arithmetic.Fault Entries := do
  let average ← Arithmetic.share a.sum a.spaces
  return [("sum", .int a.sum), ("average", .real average), ("min", .int a.min), ("max", .int a.max),
    ("max_nesting", .int a.maxNesting)]

end Cognitive

end ScopeMetrics
