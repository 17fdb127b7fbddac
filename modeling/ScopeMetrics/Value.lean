import ScopeMetrics.Decimal.Written
import ScopeMetrics.Text.Quoted

/-!
# Values

Data whose shape is not fixed in advance: what a configuration file holds, what an environment
variable spells, the fields of a log record, and the plain-data form of a result.  The entries of
a map keep the order in which they were given, and their names are texts.  Maps under other names,
dates, binary data and sets, which a configuration file can hold as well, are no values here.
-/

namespace ScopeMetrics

/-- A value of unfixed shape. -/
inductive Value where
  | null
  | bool (b : Bool)
  | int (n : Int)
  | real (x : Float)
  | text (s : String)
  | list (items : List Value)
  | map (entries : List (String × Value))
  deriving Inhabited, BEq

/-- Entries under names, in order. -/
abbrev Entries := List (String × Value)

namespace Entries

/-- The value under a name. -/
def get? (es : Entries) (name : String) : Option Value :=
  List.lookup name es

/-- Gives a name a value: in place if the name is there, at the end otherwise. -/
def put : Entries → String → Value → Entries
  | [], name, v => [(name, v)]
  | (n, w) :: es, name, v => if n = name then (n, v) :: es else (n, w) :: put es name v

/-- Drops a name. -/
def erase (es : Entries) (name : String) : Entries :=
  es.filter fun e => e.1 != name

/-- Entries in the order of their names, by code point. -/
def sorted (es : Entries) : Entries :=
  es.mergeSort fun a b => a.1 ≤ b.1

end Entries

namespace Value

/-- The entry of a map under a name; nothing for other values. -/
def get? : Value → String → Option Value
  | .map es, name => Entries.get? es name
  | _, _ => none

/-- Whether a value counts as nothing: null, false, zero, and whatever is empty. -/
def isEmpty : Value → Bool
  | .null => true
  | .bool b => !b
  | .int n => n == 0
  | .real x => x == 0
  | .text s => s.isEmpty
  | .list items => items.isEmpty
  | .map es => es.isEmpty

def ofText? : Option String → Value
  | some s => .text s
  | none => .null

def ofInt? : Option Int → Value
  | some n => .int n
  | none => .null

/-! ### The text of a value -/

mutual

/-- A value as it is shown inside another one: texts are quoted. -/
def inner : Value → String
  | .null => "None"
  | .bool true => "True"
  | .bool false => "False"
  | .int n => toString n
  | .real x => Decimal.shortest x
  | .text s => Text.quoted s
  | .list items => "[" ++ ", ".intercalate (innerItems items) ++ "]"
  | .map es => "\x7b" ++ ", ".intercalate (innerEntries es) ++ "\x7d"

def innerItems : List Value → List String
  | [] => []
  | v :: vs => inner v :: innerItems vs

def innerEntries : List (String × Value) → List String
  | [] => []
  | (k, v) :: es => (Text.quoted k ++ ": " ++ inner v) :: innerEntries es

end

/-- A value as messages show it: a text stands for itself. -/
def display : Value → String
  | .text s => s
  | v => v.inner

end Value

end ScopeMetrics
