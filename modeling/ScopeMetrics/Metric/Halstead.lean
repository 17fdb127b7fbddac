import ScopeMetrics.Arithmetic
import ScopeMetrics.Bag
import ScopeMetrics.Value

/-!
# Halstead measures

The operators and the operands of a space as bags of texts, and the measures derived from their
sizes.  Bags and not numbers are combined, so a text that two spaces share is one word of their
common vocabulary.
-/

namespace ScopeMetrics

structure Halstead where
  operators : Bag := ∅
  operands : Bag := ∅
  deriving DecidableEq

namespace Halstead

open Arithmetic

def combine (a b : Halstead) : Halstead :=
  ⟨a.operators.merge b.operators, a.operands.merge b.operands⟩

/-- The number of tokens. -/
def length (h : Halstead) : Nat := h.operators.total + h.operands.total

/-- The number of different tokens. -/
def vocabulary (h : Halstead) : Nat := h.operators.distinct + h.operands.distinct

/-- `length · log₂ vocabulary`. -/
def volume (h : Halstead) : Except Fault Float := do
  return (← ofInt h.length) * logOfInt Float.log2 h.vocabulary

/-- Half the different operators, times how often an operand is used on average. -/
def difficulty (h : Halstead) : Except Fault Float := do
  return (← share h.operators.distinct 2) * (← share h.operands.total h.operands.distinct)

/-- The inverse of a double, zero for zero. -/
def inverse (x : Float) : Float := if x == 0 then 0 else 1 / x

/-- The length that the numbers of different tokens let expect. -/
def estimatedLength (h : Halstead) : Except Fault Float := do
  let part (n : Nat) : Except Fault Float := return (← ofInt n) * logOfInt Float.log2 n
  return (← part h.operators.distinct) + (← part h.operands.distinct)

def entries (h : Halstead) : Except Fault Entries := do
  let volume ← h.volume
  let difficulty ← h.difficulty
  let effort := difficulty * volume
  let estimated ← h.estimatedLength
  let length ← ofInt h.length
  return [("n1", .int h.operators.distinct), ("n2", .int h.operands.distinct),
    ("N1", .int h.operators.total), ("N2", .int h.operands.total),
    ("length", .int h.length), ("vocabulary", .int h.vocabulary),
    ("volume", .real volume), ("difficulty", .real difficulty),
    ("level", .real (inverse difficulty)), ("effort", .real effort),
    ("time", .real (effort / 18)), ("bugs", .real (effort.pow (2 / 3) / 3000)),
    ("estimated_program_length", .real estimated),
    ("purity_ratio", .real (if h.length = 0 then 0 else estimated / length))]

end Halstead

end ScopeMetrics
