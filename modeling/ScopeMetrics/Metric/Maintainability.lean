import ScopeMetrics.Arithmetic
import ScopeMetrics.Value

/-!
# Maintainability index

Three variants, from the Halstead volume, the cyclomatic complexity and the line counts:

- `classic`: `171 - 5.2 ln V - 0.23 CC - 16.2 ln SLOC`, kept between 0 and 171;
- `sei`: the same with binary logarithms and `50 sin √(2.4 · CLOC / SLOC)` added, kept above 0;
- `percent`: `classic` on a scale of 100.
-/

namespace ScopeMetrics

structure Maintainability where
  classic : Float := 171
  sei : Float := 171
  percent : Float := 100
  deriving BEq

namespace Maintainability

open Arithmetic

/-- `x`, or zero if that is more. -/
def atLeastZero (x : Float) : Float := if 0 > x then 0 else x

/-- `x`, or 171 if that is less. -/
def atMostTop (x : Float) : Float := if 171 < x then 171 else x

def compute (volume cyclomatic : Float) (sloc cloc : Int) : Except Fault Maintainability := do
  let start := 171 - 5.2 * logOrZero Float.log volume - 0.23 * cyclomatic
  let classic := atMostTop (atLeastZero (start - 16.2 * logOfInt Float.log sloc))
  let commentShare ← share cloc sloc
  let bonus := 50 * (← sine (← root (2.4 * commentShare)))
  let start := 171 - 5.2 * logOrZero Float.log2 volume - 0.23 * cyclomatic
  let sei := atLeastZero (start - 16.2 * logOfInt Float.log2 sloc + bonus)
  return { classic, sei, percent := classic * 100 / 171 }

def measures (m : Maintainability) : List Float := [m.classic, m.sei, m.percent]

def entries (m : Maintainability) : Entries :=
  [("original", .real m.classic), ("sei", .real m.sei), ("visual_studio", .real m.percent)]

end Maintainability

end ScopeMetrics
