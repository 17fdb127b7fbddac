import ScopeMetrics.Text.Blank

/-!
# Paths

A path is an anchor (nothing, one slash or two) and the parts between slashes, without empty
parts and without the parts that name the directory itself.  So each path has one written form.
-/

namespace ScopeMetrics

/-- A path in its normal form. -/
structure Path where
  anchor : String
  parts : List String
  deriving DecidableEq, Repr

/-- Where users have their home directories. -/
structure Homes where
  /-- That of the user who runs the program. -/
  own : String := "/"
  others : List (String × String) := []

/-- The home directory of a user; no name stands for the user who runs the program. -/
def Homes.of? (h : Homes) (user : String) : Option String :=
  if user.isEmpty then some h.own else h.others.lookup user

namespace Path

/-- The path of the folder that holds everything. -/
def root : Path := ⟨"/", []⟩

/-- The anchor of a text: two slashes at the front are kept, any other number of them is one. -/
def anchorOf (cs : List Char) : String :=
  match (cs.takeWhile (· == '/')).length with
  | 0 => ""
  | 2 => "//"
  | _ => "/"

/-- Reads a path. -/
def ofString (s : String) : Path :=
  let cs := s.toList
  ⟨anchorOf cs,
    ((Text.splitBy (· == '/') cs).map String.ofList).filter fun p => p != "" && p != "."⟩

/-- Writes a path; the path without anchor and parts is the current directory. -/
def text (p : Path) : String :=
  if p.anchor == "" && p.parts.isEmpty then "."
  else p.anchor ++ "/".intercalate p.parts

def isAbsolute (p : Path) : Bool := p.anchor != ""

/-- The path `q` seen from `p`. -/
def join (p q : Path) : Path :=
  if q.isAbsolute then q else ⟨p.anchor, p.parts ++ q.parts⟩

/-- The last part, empty if there is none. -/
def name (p : Path) : String := p.parts.getLast?.getD ""

/-- The path without its last part. -/
def parent (p : Path) : Path := ⟨p.anchor, p.parts.dropLast⟩

/-- The end of a name from its last dot on, unless the dot is its first or last character. -/
def suffixOf (name : String) : String :=
  let cs := name.toList
  let tail := (cs.reverse.takeWhile (· != '.')).reverse
  if tail.isEmpty || cs.length ≤ tail.length + 1 then ""
  else String.ofList ('.' :: tail)

/-- The suffix of the last part. -/
def suffix (p : Path) : String := suffixOf p.name

/-- A path whose first part starts with a tilde, seen from the home directory that the part stands
for; nothing if that home is not known, or is itself seen from a home. -/
def expandHome? (homes : Homes) (p : Path) : Option Path :=
  match p.anchor, p.parts with
  | "", first :: rest =>
    match first.toList with
    | '~' :: user => do
      let home ← homes.of? (String.ofList user)
      let bare := Text.trimEndWhile (· == '/') home.toList
      if bare.head? == some '~' then none
      else return join (if bare.isEmpty then root else ofString (String.ofList bare)) ⟨"", rest⟩
    | _ => some p
  | _, _ => some p

/-- The order of paths: by their parts, each by code point. -/
def le (p q : Path) : Bool :=
  if q.parts < p.parts then false else true

end Path

end ScopeMetrics
