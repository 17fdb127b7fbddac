import ScopeMetrics.Text.Integer
import ScopeMetrics.Value

/-!
# JSON

Reading and writing values as JSON.  A number with a point or an exponent is a double and any
other number is an integer, of at most `Text.mostDigits` digits.  A name given twice keeps its first
place and its last value.
-/

namespace ScopeMetrics.Json

/-! ### Reading -/

def isGap (c : Char) : Bool :=
  c == ' ' || c == '\t' || c == '\n' || c == '\r'

def skip (cs : List Char) : List Char :=
  cs.dropWhile isGap

/-- The natural number that decimal digits spell. -/
def natOf (digits : List Char) : Nat :=
  digits.foldl (fun n d => 10 * n + (d.toNat - 48)) 0

/-- The value of a hexadecimal digit. -/
def hexDigit? (c : Char) : Option Nat :=
  let n := c.toNat
  if 48 ≤ n ∧ n ≤ 57 then some (n - 48)
  else if 97 ≤ n ∧ n ≤ 102 then some (n - 87)
  else if 65 ≤ n ∧ n ≤ 70 then some (n - 55)
  else none

/-- Four hexadecimal digits at the front. -/
def unit? : List Char → Option (Nat × List Char)
  | a :: b :: c :: d :: rest => do
    let a ← hexDigit? a
    let b ← hexDigit? b
    let c ← hexDigit? c
    let d ← hexDigit? d
    return (((a * 16 + b) * 16 + c) * 16 + d, rest)
  | _ => none

/-- The character of an escape `\u`, whose second half may follow in an escape of its own. A half
without its other half is a replacement character. -/
def escapedUnit? (cs : List Char) : Option (Char × List Char) := do
  let (high, rest) ← unit? cs
  if 0xd800 ≤ high ∧ high < 0xdc00 then
    match rest with
    | '\\' :: 'u' :: more =>
      match unit? more with
      | some (low, rest') =>
        if 0xdc00 ≤ low ∧ low < 0xe000 then
          return (Char.ofNat (0x10000 + (high - 0xd800) * 0x400 + (low - 0xdc00)), rest')
        else return (Char.ofNat 0xfffd, rest)
      | none => none
    | _ => return (Char.ofNat 0xfffd, rest)
  else if 0xdc00 ≤ high ∧ high < 0xe000 then return (Char.ofNat 0xfffd, rest)
  else return (Char.ofNat high, rest)

/-- The character of an escape with one letter. -/
def escapedLetter? (c : Char) : Option Char :=
  if c == '"' || c == '\\' || c == '/' then some c
  else if c == 'b' then some (Char.ofNat 8)
  else if c == 'f' then some (Char.ofNat 12)
  else if c == 'n' then some '\n'
  else if c == 'r' then some '\r'
  else if c == 't' then some '\t'
  else none

/-- The rest of a text after its opening quote; `seen` is what was read, last character first. -/
def readText (seen : List Char) : Nat → List Char → Option (String × List Char)
  | 0, _ => none
  | fuel + 1, cs =>
    match cs with
    | [] => none
    | '"' :: rest => some (String.ofList seen.reverse, rest)
    | '\\' :: 'u' :: rest =>
      match escapedUnit? rest with
      | some (c, rest') => readText (c :: seen) fuel rest'
      | none => none
    | '\\' :: c :: rest =>
      match escapedLetter? c with
      | some c' => readText (c' :: seen) fuel rest
      | none => none
    | c :: rest => if c.toNat < 32 || c == '\\' then none else readText (c :: seen) fuel rest

/-- The digits at the front, at least one. -/
def digits? (cs : List Char) : Option (List Char × List Char) :=
  match cs.takeWhile Char.isDigit with
  | [] => none
  | ds => some (ds, cs.drop ds.length)

/-- The digits after a point, if a point with digits is next. -/
def fraction (cs : List Char) : List Char × List Char :=
  match cs with
  | '.' :: rest => (digits? rest).getD ([], cs)
  | _ => ([], cs)

/-- The power of ten after an `e`, if one with digits is next. -/
def power? (cs : List Char) : Option (Int × List Char) :=
  match cs with
  | e :: rest =>
    if e == 'e' || e == 'E' then
      match rest with
      | '-' :: more => (digits? more).map fun (ds, r) => (-Int.ofNat (natOf ds), r)
      | '+' :: more => (digits? more).map fun (ds, r) => (Int.ofNat (natOf ds), r)
      | _ => (digits? rest).map fun (ds, r) => (Int.ofNat (natOf ds), r)
    else none
  | [] => none

/-- A number without its sign. A leading zero stands alone. -/
def readNumber (negative : Bool) (cs : List Char) : Option (Value × List Char) := do
  let (whole, rest) ← match cs with
    | '0' :: rest => some (['0'], rest)
    | _ => digits? cs
  let (places, rest) := fraction rest
  match power? rest, places with
  | none, [] =>
    let n := Int.ofNat (natOf whole)
    if Text.mostDigits < whole.length then none
    else return (.int (if negative then -n else n), rest)
  | p, _ =>
    let (e, rest) := p.getD (0, rest)
    let m := natOf (whole ++ places)
    return (.real (Decimal.ofDecimal negative m (e - Int.ofNat places.length)), rest)

/-- The double that is no number. -/
def undefined : Float := 0.0 / 0.0

/-- What follows a word, if the characters start with it. -/
def after? (word : String) (cs : List Char) : Option (List Char) :=
  if word.toList.isPrefixOf cs then some (cs.drop word.length) else none

/-- A value spelled by one word. -/
def readWord (cs : List Char) : Option (Value × List Char) :=
  let words : List (String × Value) :=
    [("null", .null), ("true", .bool true), ("false", .bool false), ("NaN", .real undefined),
      ("Infinity", .real (Decimal.infinity false)), ("-Infinity", .real (Decimal.infinity true))]
  words.findSome? fun (w, v) => (after? w cs).map ((v, ·))

/-- Why a text cannot be read. -/
inductive Fault where
  | malformed
  /-- A list, or a map, is inside too many others. -/
  | deepList | deepMap
  deriving DecidableEq

/-- What reading the front of some characters gives: something, and the rest of them. -/
abbrev Read (α : Type) := Except Fault (α × List Char)

/-- A reading that fails for no other reason than that the text is malformed. -/
def Read.ofOption {α : Type} : Option (α × List Char) → Read α
  | some x => .ok x
  | none => .error .malformed

mutual

/-- A value at the front of the characters; `depth` is how many lists and maps may be one inside the
other. -/
def readValue (depth : Nat) : Nat → List Char → Read Value
  | 0, _ => .error .malformed
  | fuel + 1, cs =>
    match cs with
    | '"' :: rest =>
      .ofOption ((readText [] fuel rest).map fun (s, r) => (.text s, r))
    | '[' :: rest =>
      match depth with
      | 0 => .error .deepList
      | depth + 1 =>
        match skip rest with
        | ']' :: r => .ok (.list [], r)
        | r => (readItems depth fuel r).map fun (vs, r') => (.list vs, r')
    | '\x7b' :: rest =>
      match depth with
      | 0 => .error .deepMap
      | depth + 1 =>
        match skip rest with
        | '\x7d' :: r => .ok (.map [], r)
        | r => (readEntries depth [] fuel r).map fun (es, r') => (.map es, r')
    | '-' :: rest =>
      match readNumber true rest with
      | some result => .ok result
      | none => .ofOption (readWord cs)
    | c :: _ => .ofOption (if c.isDigit then readNumber false cs else readWord cs)
    | [] => .error .malformed

/-- The items of a list up to its closing bracket. -/
def readItems (depth : Nat) : Nat → List Char → Read (List Value)
  | 0, _ => .error .malformed
  | fuel + 1, cs =>
    match readValue depth fuel cs with
    | .error fault => .error fault
    | .ok (v, rest) =>
      match skip rest with
      | ',' :: r => (readItems depth fuel (skip r)).map fun (vs, r') => (v :: vs, r')
      | ']' :: r => .ok ([v], r)
      | _ => .error .malformed

/-- The entries of a map up to its closing brace; `seen` holds those before them. -/
def readEntries (depth : Nat) (seen : Entries) : Nat → List Char → Read Entries
  | 0, _ => .error .malformed
  | fuel + 1, cs =>
    match cs with
    | '"' :: rest =>
      match readText [] fuel rest with
      | none => .error .malformed
      | some (name, rest) =>
        match skip rest with
        | ':' :: r =>
          match readValue depth fuel (skip r) with
          | .error fault => .error fault
          | .ok (v, rest) =>
            let seen := seen.put name v
            match skip rest with
            | ',' :: r => readEntries depth seen fuel (skip r)
            | '\x7d' :: r => .ok (seen, r)
            | _ => .error .malformed
        | _ => .error .malformed
    | _ => .error .malformed

end

/-- The value that a text spells, if it spells exactly one and no more than `depth` lists and maps
are one inside the other.  No character takes more than two steps, so the fuel is enough. -/
def parse (depth : Nat) (s : String) : Except Fault Value :=
  let cs := skip s.toList
  match readValue depth (2 * cs.length + 2) cs with
  | .ok (v, rest) => if (skip rest).isEmpty then .ok v else .error .malformed
  | .error fault => .error fault

/-- The value that a text spells, if it spells exactly one. -/
def parse? (s : String) : Option Value := (parse s.length s).toOption

/-! ### Writing -/

/-- A sixteen-bit unit as an escape. -/
def unitText (n : Nat) : String := "\\u" ++ Text.hex 4 n

/-- One character of a text: plain ASCII stands for itself and the rest is escaped. -/
def charText (c : Char) : String :=
  let n := c.toNat
  if c == '"' then "\\\"" else if c == '\\' then "\\\\" else if c == '\n' then "\\n"
  else if c == '\r' then "\\r" else if c == '\t' then "\\t" else if n = 8 then "\\b"
  else if n = 12 then "\\f" else if 32 ≤ n ∧ n < 127 then c.toString
  else if n < 0x10000 then unitText n
  else unitText (0xd800 + (n - 0x10000) / 0x400) ++ unitText (0xdc00 + (n - 0x10000) % 0x400)

def textText (s : String) : String :=
  "\"" ++ String.join (s.toList.map charText) ++ "\""

/-- A double: the fewest digits that read back, or the words of the doubles that are no numbers. -/
def realText (x : Float) : String :=
  if x.isNaN then "NaN"
  else if x.isInf then (if x < 0 then "-Infinity" else "Infinity")
  else Decimal.shortest x

/-- How the parts of a list or map are laid out: what stands before each part, given its depth,
and what separates neighbours. -/
structure Layout where
  lineStart : Nat → String
  separator : String

/-- One line, with a space after each comma. -/
def Layout.oneLine : Layout := ⟨fun _ => "", ", "⟩

/-- A line for each part, moved in by `indent` spaces a level; an indent that is not positive
moves nothing. -/
def Layout.lines (indent : Int) : Layout :=
  ⟨fun depth => "\n" ++ String.ofList (List.replicate (indent.toNat * depth) ' '), ","⟩

/-- Parts between brackets; no parts are written without a line of their own. -/
def Layout.enclose (l : Layout) (left right : String) (depth : Nat) (parts : List String) : String :=
  if parts.isEmpty then left ++ right
  else
    left ++ l.separator.intercalate (parts.map (l.lineStart (depth + 1) ++ ·)) ++
      l.lineStart depth ++ right

mutual

/-- A value in a layout, with doubles written by `real`. -/
def write (l : Layout) (real : Float → String) (depth : Nat) : Value → String
  | .null => "null"
  | .bool true => "true"
  | .bool false => "false"
  | .int n => toString n
  | .real x => real x
  | .text s => textText s
  | .list items => l.enclose "[" "]" depth (writeItems l real (depth + 1) items)
  | .map es => l.enclose "\x7b" "\x7d" depth (writeEntries l real (depth + 1) es)

def writeItems (l : Layout) (real : Float → String) (depth : Nat) : List Value → List String
  | [] => []
  | v :: vs => write l real depth v :: writeItems l real depth vs

def writeEntries (l : Layout) (real : Float → String) (depth : Nat) :
    List (String × Value) → List String
  | [] => []
  | (k, v) :: es => (textText k ++ ": " ++ write l real depth v) :: writeEntries l real depth es

end

/-- A value on one line. -/
def compact (v : Value) : String :=
  write .oneLine realText 0 v

/-- A value with a line for each part. -/
def indented (indent : Int) (v : Value) : String :=
  write (.lines indent) realText 0 v

end ScopeMetrics.Json
