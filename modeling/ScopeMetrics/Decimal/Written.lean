import ScopeMetrics.Decimal.Binary

/-!
# Decimal forms of a double

Three ways to write a double, each computed from its exact value: with a fixed number of digits
and a power of ten (`scientific`), with a fixed number of places (`fixed`), and with the fewest
digits that read back as the same double (`shortest`).
-/

namespace ScopeMetrics.Decimal

/-- How many decimal digits a natural number has. -/
def digitCount (n : Nat) : Nat :=
  (Nat.toDigits 10 n).length

/-- The exponent `e` with `10^e ≤ num / den < 10^(e+1)`, for a positive fraction. -/
def magnitude (num den : Nat) : Int :=
  if den ≤ num then Int.ofNat (digitCount (num / den)) - 1
  else
    -- the least `k` with `den ≤ num * 10^k`
    let ceiling := (den + num - 1) / num
    Int.negOfNat (digitCount (ceiling - 1))

/-- The fraction `num / den` divided by `10^e`, as numerator and denominator. -/
def overTen (num den : Nat) (e : Int) : Nat × Nat :=
  match e with
  | .ofNat k => (num, den * tenPow k)
  | .negSucc k => (num * tenPow (k + 1), den)

/-- A number in at least `width` digits. -/
def padded (width n : Nat) : String :=
  let digits := Nat.toDigits 10 n
  String.ofList (List.replicate (width - digits.length) '0' ++ digits)

/-- An exponent of ten: its sign, and at least two digits. -/
def exponentText (e : Int) : String :=
  (if e < 0 then "-" else "+") ++ padded 2 e.natAbs

def signText (negative : Bool) : String :=
  if negative then "-" else ""

/-- The texts of the doubles that are no numbers. -/
def infiniteText (negative : Bool) : String := signText negative ++ "inf"

def undefinedText : String := "nan"

/-- One digit, a point, `places` digits and a power of ten; a tie goes to the even last digit. -/
def scientific (places : Nat) (x : Float) : String :=
  match Decoded.ofFloat x with
  | .infinite negative => infiniteText negative
  | .undefined => undefinedText
  | .finite negative m q =>
    let write (digits : Nat) (e : Int) : String :=
      let cs := (padded (places + 1) digits).toList
      let tail := if places = 0 then [] else '.' :: cs.drop 1
      signText negative ++ String.ofList (cs.take 1 ++ tail) ++ "e" ++ exponentText e
    if m = 0 then write 0 0
    else
      let (num, den) := fractionOf m q
      let e := magnitude num den
      let (n, d) := overTen num den (e - Int.ofNat places)
      let digits := nearest n d
      if digits < tenPow (places + 1) then write digits e else write (digits / 10) (e + 1)

/-- The whole part, a point and `places` digits; a tie goes to the even last digit. -/
def fixed (places : Nat) (x : Float) : String :=
  match Decoded.ofFloat x with
  | .infinite negative => infiniteText negative
  | .undefined => undefinedText
  | .finite negative m q =>
    let (num, den) := fractionOf m q
    let digits := nearest (num * tenPow places) den
    let whole := toString (digits / tenPow places)
    let rest := if places = 0 then "" else "." ++ padded places (digits % tenPow places)
    signText negative ++ whole ++ rest

/-- Of the two decimals `d · 10^e` and `(d + 1) · 10^e` around `num / den`, the nearer of those
that read back as `x`. -/
def readsBack? (x : Float) (num den : Nat) (e : Int) : Option Nat :=
  let (n, d) := overTen num den e
  let below := n / d
  let same (k : Nat) : Bool := (ofDecimal false k e).toBits == x.toBits
  match same below, same (below + 1) with
  | true, true => some (nearest n d)
  | true, false => some below
  | false, true => some (below + 1)
  | false, false => none

/-- The fewest digits, from `count` on, that read back as `x`, with the exponent of the last. -/
def fewestDigits (x : Float) (num den : Nat) (top : Int) : Nat → Nat → Nat × Int
  | 0, count => (nearest (overTen num den (top - count)).1 (overTen num den (top - count)).2, top - count)
  | tries + 1, count =>
    let e := top - count
    match readsBack? x num den e with
    | some d => (d, e)
    | none => fewestDigits x num den top tries (count + 1)

/-- Drops the zeros at the end of the digits. -/
def dropZeros (digits : List Char) : List Char :=
  (digits.reverse.dropWhile (· == '0')).reverse

/-- The fewest digits that read back as the same double: positional, and with at least one digit
after the point, while the leading digit stands between `10^-4` and `10^15`; otherwise with a
power of ten. -/
def shortest (x : Float) : String :=
  match Decoded.ofFloat x with
  | .infinite negative => infiniteText negative
  | .undefined => undefinedText
  | .finite negative 0 _ => signText negative ++ "0.0"
  | .finite negative m q =>
    let (num, den) := fractionOf m q
    let (d, e) := fewestDigits (Float.abs x) num den (magnitude num den) 16 0
    let all := Nat.toDigits 10 d
    let lead := e + Int.ofNat all.length - 1
    let digits := match dropZeros all with
      | [] => ['0']
      | kept => kept
    let text :=
      if -4 ≤ lead ∧ lead < 16 then
        match lead with
        | .ofNat k =>
          let whole := (digits.take (k + 1)) ++ List.replicate (k + 1 - digits.length) '0'
          let rest := digits.drop (k + 1)
          String.ofList whole ++ "." ++ String.ofList (if rest.isEmpty then ['0'] else rest)
        | .negSucc k => "0." ++ String.ofList (List.replicate k '0' ++ digits)
      else
        let rest := digits.drop 1
        String.ofList (digits.take 1 ++ (if rest.isEmpty then [] else '.' :: rest)) ++ "e" ++
          exponentText lead
    signText negative ++ text

end ScopeMetrics.Decimal
