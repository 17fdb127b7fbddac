/-!
# Blanks and separators

Which characters count as blank, and the two things done with them: cutting them off the ends of
a text (`strip`) and cutting a text into words (`words`).  Source code is bytes and not characters,
so it has a smaller set of its own (`isBlankByte`).  Words are never empty; cutting at separators
(`splitBy`) gives a part between any two of them, even an empty one.
-/

namespace ScopeMetrics.Text

/-- A blank character: the white-space characters of Unicode and the four information separators. -/
def isBlank (c : Char) : Bool :=
  let n := c.toNat
  (9 ≤ n && n ≤ 13) || (28 ≤ n && n ≤ 32) || n == 0x85 || n == 0xa0 || n == 0x1680 ||
    (0x2000 ≤ n && n ≤ 0x200a) || n == 0x2028 || n == 0x2029 || n == 0x202f || n == 0x205f ||
    n == 0x3000

/-- A blank byte: tab, line feed, vertical tab, form feed, carriage return or space. -/
def isBlankByte (b : UInt8) : Bool :=
  (9 ≤ b && b ≤ 13) || b == 32

/-- The list without the longest run at its end whose elements all satisfy `p`. -/
def trimEndWhile {α : Type} (p : α → Bool) (xs : List α) : List α :=
  (xs.reverse.dropWhile p).reverse

/-- The list without the longest run at either end whose elements all satisfy `p`. -/
def trimWhile {α : Type} (p : α → Bool) (xs : List α) : List α :=
  trimEndWhile p (xs.dropWhile p)

/-- The text without the blanks at its ends. -/
def strip (s : String) : String :=
  String.ofList (trimWhile isBlank s.toList)

/-- Cuts a list at the elements that satisfy `p` and drops the empty pieces; `piece` is the part
of the current piece already read, last element first. -/
def pieces {α : Type} (p : α → Bool) (piece : List α) : List α → List (List α)
  | [] => if piece.isEmpty then [] else [piece.reverse]
  | x :: xs =>
    if p x then
      if piece.isEmpty then pieces p [] xs else piece.reverse :: pieces p [] xs
    else pieces p (x :: piece) xs

/-- The maximal runs of non-blank characters, in order. -/
def words (s : String) : List String :=
  (pieces isBlank [] s.toList).map String.ofList

/-- The words of a text, one space between neighbours. -/
def singleSpaced (s : String) : String :=
  " ".intercalate (words s)

/-- The parts between the elements that satisfy `p`; `part` is the part being read, last element
first. -/
def splitFrom {α : Type} (p : α → Bool) (part : List α) : List α → List (List α)
  | [] => [part.reverse]
  | x :: xs => if p x then part.reverse :: splitFrom p [] xs else splitFrom p (x :: part) xs

/-- The parts between the elements that satisfy `p`. -/
def splitBy {α : Type} (p : α → Bool) (xs : List α) : List (List α) := splitFrom p [] xs

/-- The text with its ASCII capitals made small; every other character stays. -/
def lowerAscii (s : String) : String :=
  s.map Char.toLower

end ScopeMetrics.Text
