import ScopeMetrics.Decimal.Binary

/-!
# Arithmetic of the measures

Counts are integers of any size and the measures derived from them are doubles.  The passage from
one to the other is exact up to one rounding, and fails where no double is near enough or where a
function has no value.
-/

namespace ScopeMetrics.Arithmetic

/-- Why a measure has no value. -/
inductive Fault where
  /-- A root of a negative number, or the sine of an infinite one. -/
  | outsideDomain
  /-- An integer beyond the largest double. -/
  | integerTooLarge
  /-- A quotient of integers beyond the largest double. -/
  | quotientTooLarge
  deriving DecidableEq, Repr

def Fault.message : Fault → String
  | .outsideDomain => "math domain error"
  | .integerTooLarge => "int too large to convert to float"
  | .quotientTooLarge => "integer division result too large for a float"

/-- The double nearest to an integer. -/
def ofInt (n : Int) : Except Fault Float :=
  match Decimal.roundFraction (n < 0) n.natAbs 1 with
  | some x => .ok x
  | none => .error .integerTooLarge

/-- The double nearest to `a / b`; nothing over a negative number is the negative zero. -/
def quotient (a b : Int) : Except Fault Float :=
  match Decimal.roundFraction ((a < 0) != (b < 0)) a.natAbs b.natAbs with
  | some x => .ok x
  | none => .error .quotientTooLarge

/-- `a / b`, and zero when `b` is zero. -/
def share (a b : Int) : Except Fault Float :=
  if b = 0 then .ok 0 else quotient a b

/-- A logarithm of a positive integer of any size, zero for the others: an integer beyond the
largest double is split into a number below one and a power of two. -/
def logOfInt (log : Float → Float) (n : Int) : Float :=
  if n ≤ 0 then 0
  else
    match ofInt n with
    | .ok x => log x
    | .error _ =>
      let bits := n.natAbs.log2 + 1
      let part := (Decimal.roundFraction false n.natAbs (Decimal.twoPow bits)).getD 0
      log part + log 2 * Float.ofNat bits

/-- A logarithm of a positive double, zero for the others. -/
def logOrZero (log : Float → Float) (x : Float) : Float :=
  if x > 0 then log x else 0

/-- The root of a double. -/
def root (x : Float) : Except Fault Float :=
  if x < 0 then .error .outsideDomain else .ok x.sqrt

/-- The sine of a double. -/
def sine (x : Float) : Except Fault Float :=
  if x.isInf then .error .outsideDomain else .ok x.sin

end ScopeMetrics.Arithmetic
