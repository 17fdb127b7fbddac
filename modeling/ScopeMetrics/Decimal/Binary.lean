/-!
# Binary floating point, exactly

A double is read as a sign and `m · 2^q`, and a fraction of natural numbers is rounded to the
nearest double, a tie to the even one.  Both work on the bits, in exact arithmetic.
-/

namespace ScopeMetrics.Decimal

/-- `2^k`. -/
def twoPow (k : Nat) : Nat := Nat.pow 2 k

/-- `10^k`. -/
def tenPow (k : Nat) : Nat := Nat.pow 10 k

/-- What the bits of a double say. -/
inductive Decoded where
  | finite (negative : Bool) (mantissa : Nat) (exponent : Int)
  | infinite (negative : Bool)
  | undefined

/-- Reads the bits of a double. -/
def Decoded.ofFloat (x : Float) : Decoded :=
  let bits := x.toBits.toNat
  let negative := bits / twoPow 63 == 1
  let biased := bits / twoPow 52 % 2048
  let fraction := bits % twoPow 52
  if biased = 2047 then if fraction = 0 then .infinite negative else .undefined
  else if biased = 0 then .finite negative fraction (-1074)
  else .finite negative (fraction + twoPow 52) (Int.ofNat biased - 1075)

/-- The fraction `m · 2^q` as numerator and denominator. -/
def fractionOf (m : Nat) (q : Int) : Nat × Nat :=
  match q with
  | .ofNat k => (m * twoPow k, 1)
  | .negSucc k => (m, twoPow (k + 1))

/-- The natural number nearest to `num / den`; a tie goes to the even one. -/
def nearest (num den : Nat) : Nat :=
  let q := num / den
  let r := num % den
  if 2 * r < den then q else if den < 2 * r then q + 1 else q + q % 2

/-- The exponent of the last bit kept of `num / den`: the one that leaves 53 bits, or that of
the least double if the fraction is smaller. -/
def lastBit (num den : Nat) : Int :=
  let d := Int.ofNat num.log2 - Int.ofNat den.log2
  let (scaled, whole) := match d with
    | .ofNat k => (num, den * twoPow k)
    | .negSucc k => (num * twoPow (k + 1), den)
  max (if scaled < whole then d - 53 else d - 52) (-1074)

/-- The double nearest to `num / den`, or nothing if that is beyond the largest one. -/
def roundFraction (negative : Bool) (num den : Nat) : Option Float :=
  let sign := if negative then twoPow 63 else 0
  if num = 0 then some (Float.ofBits (UInt64.ofNat sign))
  else
    let e := lastBit num den
    let mantissa := match e with
      | .ofNat k => nearest num (den * twoPow k)
      | .negSucc k => nearest (num * twoPow (k + 1)) den
    let bits := (e + 1074).toNat * twoPow 52 + mantissa
    if bits < 2047 * twoPow 52 then some (Float.ofBits (UInt64.ofNat (sign + bits))) else none

/-- The infinite double of the given sign. -/
def infinity (negative : Bool) : Float :=
  Float.ofBits (UInt64.ofNat ((if negative then twoPow 63 else 0) + 2047 * twoPow 52))

/-- The double nearest to `± m · 10^e`, infinite if that is beyond the largest one. A scale far
outside the range of doubles is settled by the number of digits alone. -/
def ofDecimal (negative : Bool) (m : Nat) (e : Int) : Float :=
  let digits := Int.ofNat (Nat.toDigits 10 m).length
  if m = 0 ∨ e + digits < -400 then (roundFraction negative 0 1).getD 0
  else if 400 < e + digits then infinity negative
  else
    let rounded := match e with
      | .ofNat k => roundFraction negative (m * tenPow k) 1
      | .negSucc k => roundFraction negative m (tenPow (k + 1))
    rounded.getD (infinity negative)

/-- The integer that a double is equal to; nothing if it has a fractional part or is not finite. -/
def toInt? (x : Float) : Option Int :=
  match Decoded.ofFloat x with
  | .finite negative m q =>
    let (num, den) := fractionOf m q
    if num % den = 0 then some (if negative then Int.negOfNat (num / den) else num / den) else none
  | _ => none

end ScopeMetrics.Decimal
