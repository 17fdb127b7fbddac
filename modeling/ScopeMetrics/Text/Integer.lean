import ScopeMetrics.Text.Blank

/-!
# Written integers

An integer is written as a sign, which may be left out, and digits, with single underscores
allowed between them.  Which characters are digits depends on who reads; no one reads more than
`mostDigits` of them.  The decimal digits of every script are told by the number of the script's
zero: the nine digits after it follow in order.
-/

namespace ScopeMetrics.Text

/-- The zeros of the scripts that have decimal digits, in increasing order. -/
def zeros : List Nat := [
  0x30, 0x660, 0x6f0, 0x7c0, 0x966, 0x9e6, 0xa66, 0xae6, 0xb66, 0xbe6, 0xc66, 0xce6, 0xd66,
  0xde6, 0xe50, 0xed0, 0xf20, 0x1040, 0x1090, 0x17e0, 0x1810, 0x1946, 0x19d0, 0x1a80, 0x1a90,
  0x1b50, 0x1bb0, 0x1c40, 0x1c50, 0xa620, 0xa8d0, 0xa900, 0xa9d0, 0xa9f0, 0xaa50, 0xabf0, 0xff10,
  0x104a0, 0x10d30, 0x11066, 0x110f0, 0x11136, 0x111d0, 0x112f0, 0x11450, 0x114d0, 0x11650,
  0x116c0, 0x11730, 0x118e0, 0x11950, 0x11c50, 0x11d50, 0x11da0, 0x16a60, 0x16ac0, 0x16b50,
  0x1d7ce, 0x1d7d8, 0x1d7e2, 0x1d7ec, 0x1d7f6, 0x1e140, 0x1e2f0, 0x1e950, 0x1fbf0]

/-- The value of a decimal digit of any script. -/
def digitValue? (c : Char) : Option Nat :=
  (zeros.find? fun z => z ≤ c.toNat && c.toNat ≤ z + 9).map (c.toNat - ·)

/-- The most digits that are read as an integer. -/
def mostDigits : Nat := 4300

/-- The number that digits spell, single underscores between them allowed. -/
def grouped? (digit? : Char → Option Nat) (cs : List Char) : Option Nat :=
  let groups := splitBy (· == '_') cs
  if groups.any List.isEmpty then none
  else groups.flatten.foldlM (fun n c => (digit? c).map (10 * n + ·)) 0

/-- Whether a minus sign is in front, and what follows the sign. -/
def signed : List Char → Bool × List Char
  | '-' :: cs => (true, cs)
  | '+' :: cs => (false, cs)
  | cs => (false, cs)

/-- The integer of a sign and a magnitude. -/
def withSign (negative : Bool) (n : Nat) : Int := if negative then Int.negOfNat n else Int.ofNat n

/-- The integer that a text spells in digits of any script, blanks around it allowed. -/
def integer? (s : String) : Option Int :=
  let (negative, digits) := signed (trimWhile isBlank s.toList)
  if mostDigits < digits.countP (· != '_') then none
  else (grouped? digitValue? digits).map (withSign negative)

end ScopeMetrics.Text
