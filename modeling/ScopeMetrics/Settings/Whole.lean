import ScopeMetrics.Text.Integer

/-!
# Whole numbers written in settings

A whole number in a text has blanks around it, a sign, single underscores between its digits, and a
point with zeros, all of which may be left out.  It is read in two steps: first everything that
does not matter is taken away, then what is left has to be a number without extras.

The program leaves this to pydantic, which reads integers out of texts in its own way; the steps
and their order are those of its core: blanks, a plus sign, zeros at the front, places, underscores
(`clean`), and then a reader of JSON integers (`spelled`), which stops at `Text.mostDigits` digits.
-/

namespace ScopeMetrics.Whole

/-- Why a text is not read as a whole number. -/
inductive Fault where
  | unreadable | tooLong
  deriving DecidableEq

/-- White space around a number: that of Unicode. -/
def isSpace (c : Char) : Bool := Text.isBlank c && !(28 ≤ c.toNat && c.toNat ≤ 31)

/-- Whether a number without extras can start with a character that is no zero. -/
def isStart (c : Char) : Bool := c == '-' || c != '0' && c.isDigit

/-- What zeros are followed by, underscores among them passed over.  The last of them is kept if
nothing or a point follows; `last` is the character before. -/
def afterZeros (last : Char) : List Char → Option (List Char)
  | [] => some [last]
  | c :: cs =>
    if c == '.' then some (last :: c :: cs)
    else if c == '0' || c == '_' then afterZeros c cs
    else if isStart c then some (c :: cs)
    else none

/-- A number without zeros at its front; nothing if no number starts so. -/
def withoutZeros : List Char → Option (List Char)
  | [] => none
  | c :: cs => if c == '0' then afterZeros c cs else if isStart c then some (c :: cs) else none

/-- A number without a plus sign at its front, unless another sign follows. -/
def withoutPlus : List Char → Option (List Char)
  | '+' :: '-' :: _ => none
  | '+' :: cs => some cs
  | cs => some cs

/-- A number without its places, if they are all zeros. -/
def withoutPlaces (cs : List Char) : List Char :=
  match cs.dropWhile (· != '.') with
  | _ :: '0' :: zeros => if zeros.all (· == '0') then cs.takeWhile (· != '.') else cs
  | _ => cs

/-- A number without underscores, if each stands alone between two characters after the sign. -/
def withoutGroups (cs : List Char) : List Char :=
  let sign := cs.takeWhile (· == '-')
  let groups := Text.splitBy (· == '_') (cs.drop sign.length)
  if groups.any List.isEmpty then cs else sign ++ groups.flatten

/-- A number without all that does not matter. -/
def clean (cs : List Char) : Option (List Char) := do
  let cs ← withoutPlus (Text.trimWhile isSpace cs)
  return withoutGroups (withoutPlaces (← withoutZeros cs))

/-- The number that a sign and digits spell, without a zero at the front of others.  Too many
digits are not looked beyond. -/
def spelled (cs : List Char) : Except Fault Int :=
  let sign := cs.takeWhile (· == '-')
  let digits := cs.drop sign.length
  let run := digits.takeWhile Char.isDigit
  if 1 < sign.length || run.isEmpty then .error .unreadable
  else if run.head? == some '0' then
    if digits.length == 1 then .ok 0 else .error .unreadable
  else if Text.mostDigits < sign.length + run.length then .error .tooLong
  else if run.length < digits.length then .error .unreadable
  else
    let n := run.foldl (fun n c => 10 * n + (c.toNat - 48)) 0
    .ok (Text.withSign (!sign.isEmpty) n)

/-- The whole number that a text spells. -/
def read (s : String) : Except Fault Int :=
  match clean s.toList with
  | none => .error .unreadable
  | some cs => spelled cs

end ScopeMetrics.Whole
