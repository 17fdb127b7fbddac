/-!
# Similar texts

How much of two texts is the same.  The longest block that both share is set aside, then the
longest block that the parts before it share, and the one that the parts after it share, and so on;
the blocks together, counted in both texts, are their similarity.
-/

namespace ScopeMetrics.Text

/-- The number of characters that two texts share at their front. -/
def commonFront : List Char → List Char → Nat
  | a :: as, b :: bs => if a = b then commonFront as bs + 1 else 0
  | _, _ => 0

/-- A block that two texts share: where it starts in each of them, and its length. -/
structure Block where
  left : Nat
  right : Nat
  length : Nat

/-- The longer of two blocks, the first of equally long ones. -/
def Block.longer (x y : Block) : Block := if x.length < y.length then y else x

/-- The longest block that starts at the front of the first text, which is at `left`; `right` is
where the second text is. -/
def longestHere (left : Nat) (as : List Char) : Nat → List Char → Block
  | right, [] => ⟨left, right, 0⟩
  | right, b :: bs =>
    Block.longer ⟨left, right, commonFront as (b :: bs)⟩ (longestHere left as (right + 1) bs)

/-- The longest block of two texts, the first of which is at `left`.  Of equally long ones it is
the one that starts first in the first text, and then in the second. -/
def longestBlock (bs : List Char) : Nat → List Char → Block
  | left, [] => ⟨left, 0, 0⟩
  | left, a :: as =>
    Block.longer (longestHere left (a :: as) 0 bs) (longestBlock bs (left + 1) as)

/-- The length of all blocks together. -/
def shared (as bs : List Char) : Nat :=
  match longestBlock bs 0 as with
  | ⟨left, right, length⟩ =>
    if _h : left < as.length ∧ 0 < length then
      shared (as.take left) (bs.take right) + length +
        shared (as.drop (left + length)) (bs.drop (right + length))
    else 0
termination_by as.length
decreasing_by all_goals simp only [List.length_take, List.length_drop]; omega

/-- How alike a text is to a word: the length of what they share, and of both together. -/
structure Likeness where
  text : String
  shared : Nat
  total : Nat

namespace Likeness

/-- The likeness of a text to a word. -/
def of (word text : String) : Likeness :=
  ⟨text, Text.shared text.toList word.toList, text.length + word.length⟩

/-- Whether three fifths of both texts are the same. -/
def isClose (c : Likeness) : Bool := 3 * c.total ≤ 10 * c.shared

/-- The order of likenesses, the greatest first; of equal ones the one whose text comes
later. -/
def le (x y : Likeness) : Bool :=
  let a := x.shared * y.total
  let b := y.shared * x.total
  b < a || a == b && decide (y.text ≤ x.text)

end Likeness

/-- The texts that are close to a word, three at most, in order. -/
def closeTo (word : String) (texts : List String) : List String :=
  let close := (texts.map (Likeness.of word)).filter Likeness.isClose
  (((close.mergeSort Likeness.le).take 3).map Likeness.text).mergeSort fun a b => a ≤ b

end ScopeMetrics.Text
