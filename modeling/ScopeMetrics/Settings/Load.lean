import ScopeMetrics.Disk
import ScopeMetrics.Failure
import ScopeMetrics.Settings.Check
import ScopeMetrics.Text.Lowercase
import ScopeMetrics.Value.Json

/-!
# Loading settings

Settings come from a document in the project's folder, from environment variables and from the
caller.  They are merged name by name, the caller's over those of the environment over those of
the document, and checked together, and the result is checked once more; what none of them gives
has a default.

Reading variables and merging sources is left to pydantic-settings, which is not part of the
program.  The definitions follow it in this:

* a variable counts if its name starts with `codegauge__`, in capitals or not; pairs of underscores
  cut the rest into the name of a group and the names of what is inside it (`splitName`, `putDeep`);
* the variable of a whole group has to be JSON, and so has that of the log's outputs; that of the
  languages, which may be null, is JSON if it can be, and every other text stays as it is, as an
  empty one always does (`decodingOf`, `decode`);
* a variable that has to be JSON and is not ends in an error of its own kind, which is no refused
  value (`LoadFault.undecodable`);
* sources are merged map by map (`Entries.mergeOver`);
* the names of groups that the caller gives and the names in the JSON of a group may be spelled with
  capitals (`canonical`, `renamed`).

A document is YAML and is read into a `Value`.  YAML can hold more: maps whose names are no texts,
dates, binary data and sets.  Documents with these are left out here.  A name at their top that is
no text would end the loading neither with settings nor with a failure of the program.
-/

namespace ScopeMetrics

/-- How loading settings can fail. -/
inductive LoadFault where
  | failed (f : Failure)
  /-- A variable that sets something in a group cannot be read. -/
  | undecodable (group : String)
  /-- The value in a variable has lists, or maps, inside too many others. -/
  | deepList | deepMap
  | homeUnknown
  /-- Settings that were checked are refused when they are checked once more. -/
  | refusedAgain (r : Rejection)

def LoadFault.message : LoadFault → String
  | .failed f => f.text
  | .undecodable group =>
    "error parsing value for field \"" ++ group ++ "\" from source \"EnvSettingsSource\""
  | .deepList => deepText "array"
  | .deepMap => deepText "object"
  | .homeUnknown => "Could not determine home directory."
  | .refusedAgain r => r.text
where
  deepText (what : String) : String :=
    "maximum recursion depth exceeded while decoding a JSON " ++ what ++ " from a unicode string"

namespace Entries

mutual

/-- The value `new` put over the value `old`: maps are merged, anything else is replaced. -/
def overValue (old : Value) : Value → Value
  | .map es =>
    match old with
    | .map olds => .map (mergeOver olds es)
    | _ => .map es
  | v => v

/-- The entries of both, those of the second over those of the first. -/
def mergeOver (old : Entries) : Entries → Entries
  | [] => old
  | (k, v) :: es =>
    mergeOver (put old k (overValue ((get? old k).getD .null) v)) es

end

end Entries

namespace Settings

/-! ### Environment -/

/-- The front of the name of every variable that is looked at. -/
def variableStart : String := "codegauge__"

/-- Cuts characters at each pair of underscores. -/
def splitName (part : List Char) : List Char → List String
  | '_' :: '_' :: cs => String.ofList part.reverse :: splitName [] cs
  | c :: cs => splitName (c :: part) cs
  | [] => [String.ofList part.reverse]

/-- The rest of a text after a start that it has. -/
def after? (start text : String) : Option String :=
  if start.toList.isPrefixOf text.toList then
    some (String.ofList (text.toList.drop start.length))
  else none

/-- Variables with their names in small letters; of equal names the last counts. -/
def lowered (environment : List (String × String)) : List (String × String) :=
  environment.foldl (fun acc (k, v) =>
    let k := Text.lower k
    if acc.any (fun e => e.1 == k) then acc.map fun e => if e.1 == k then (k, v) else e
    else acc ++ [(k, v)]) []

/-- How the text of a variable is read. -/
inductive Decoding where
  /-- As it is. -/
  | plain
  /-- As JSON if it is that, else as it is. -/
  | lenient
  /-- As JSON. -/
  | strict

/-- How the value under a name in a group is read. -/
def decodingOf (group : String) (name : List String) : Decoding :=
  match group, name with
  | "analysis", ["languages"] => .lenient
  | "logging", ["outputs"] => .strict
  | _, _ => .plain

section

-- how many lists and maps may be one inside the other in a variable
variable (deepest : Nat)

/-- The value that the text of a variable spells, nothing if it is malformed. -/
def spelled (text : String) : Except LoadFault (Option Value) :=
  match Json.parse deepest text with
  | .ok v => .ok (some v)
  | .error .malformed => .ok none
  | .error .deepList => .error .deepList
  | .error .deepMap => .error .deepMap

/-- The value of a variable for a group; an empty text is kept. -/
def decode (group : String) (d : Decoding) (text : String) : Except LoadFault Value :=
  if text.isEmpty then .ok (.text text)
  else
    match d with
    | .plain => .ok (.text text)
    | .lenient => do return (← spelled deepest text).getD (.text text)
    | .strict => do
      match ← spelled deepest text with
      | some v => return v
      | none => throw (.undecodable group)

/-- Puts a value under a name of several parts.  What is no map is not looked into. -/
def putDeep (v : Value) : List String → Entries → Entries
  | [], es => es
  | [last], es => Entries.put es last v
  | name :: names, es =>
    match (Entries.get? es name).getD (.map []) with
    | .map inner => Entries.put es name (.map (putDeep v names inner))
    | _ => es

/-- The names of the settings in a group. -/
def namesIn : String → List String
  | "logging" => ["level", "outputs"]
  | "analysis" => ["max_file_size_mb", "max_workers", "languages"]
  | "output" => ["format", "max_depth", "indent"]
  | _ => []

/-- The settings of a group with their names in small letters; what is no setting stays as it is. Of
several spellings of one name the last counts. -/
def renamed (group : String) (es : Entries) : Entries :=
  es.foldl (fun acc (k, v) =>
    let small := Text.lower k
    Entries.put acc (if (namesIn group).contains small then small else k) v) []

/-- The settings of a group that have a variable of their own. -/
def singles (environment : List (String × String)) (group : String) :
    Except LoadFault Entries :=
  environment.foldlM (fun es (name, text) =>
    match after? (variableStart ++ group ++ "__") name with
    | none => .ok es
    | some rest => do
      let parts := splitName [] rest.toList
      return putDeep (← decode deepest group (decodingOf group parts) text) parts es) []

/-- What the variables say about a group: nothing, or a value. -/
def ofVariables (environment : List (String × String)) (group : String) :
    Except LoadFault (Option Value) :=
  match environment.lookup (variableStart ++ group) with
  | none => do
    let es ← singles deepest environment group
    return if es.isEmpty then none else some (.map es)
  | some text => do
    match ← spelled deepest text with
    | none => throw (.undecodable group)
    | some .null => return none
    | some (.map whole) =>
      let es ← singles deepest environment group
      return some (.map (renamed group (Entries.mergeOver whole es)))
    | some v => return some v

/-- What the environment says. -/
def ofEnvironment (environment : List (String × String)) : Except LoadFault Entries :=
  let environment := lowered environment
  groups.foldlM (fun es group => do
    match ← ofVariables deepest environment group with
    | none => return es
    | some v => return es ++ [(group, v)]) []

end

/-- The names of the variables, in capitals, that hold a group or one setting of a group. -/
def variableNames : List String :=
  let names := groups.flatMap fun group =>
    group :: (namesIn group).map fun name => group ++ "__" ++ name
  names.map fun name => (variableStart ++ name).toUpper

/-! ### Document -/

/-- The names of a settings document, the first that is there counts. -/
def documentNames : List String := [".codegauge.yaml", ".codegauge.yml"]

/-- The settings document of a folder. -/
def document? (d : Disk) (folder : Path) : Option Path :=
  (documentNames.map fun name => folder.join (.ofString name)).find? d.isFile

/-- What a settings document says. An empty document says nothing. -/
def ofDocument (d : Disk) (p : Path) : Except Failure Entries :=
  match d.read p with
  | .error fault => .error (.unreadable p.text (.ofPath fault))
  | .ok f =>
    match f.document with
    | .error reason => .error (.configUnreadable p.text reason)
    | .ok v =>
      if v.isEmpty then .ok []
      else
        match v with
        | .map es => .ok es
        | _ => .error (.configUnreadable p.text "top level must be a mapping")

/-! ### All together -/

/-- Settings that a caller gives, with the names of groups in small letters.  Of several spellings
of one name the first counts. -/
def canonical (given : Entries) : Entries :=
  let known := groups.filterMap fun group =>
    (given.find? fun e => Text.lower e.1 == group).map fun e => (group, e.2)
  known ++ given.filter fun e => !groups.contains (Text.lower e.1)

/-- Where settings are looked for. -/
structure Origin where
  disk : Disk
  environment : List (String × String) := []
  homes : Homes := {}
  /-- How many lists and maps may be one inside the other in a variable.  Each of them takes a
  nested call of the decoder, and the runtime stops at 1000 nested calls, those of the callers
  included; the default takes 22 of them to be in use when a variable is read. -/
  deepest : Nat := 978

/-- A fault of the check as a fault of loading. -/
def loadFault : CheckFault → LoadFault
  | .rejected r => .failed (.configInvalid r.field r.value r.reason.message)
  | .homeUnknown => .homeUnknown

/-- Checks settings once more, in the form of plain data that they have.  Nobody waits for a refusal
here, so it would be no failure of the program. -/
def recheck (homes : Homes) (s : Settings) : Except LoadFault Settings :=
  (Checked.group "CodeGaugeConfig" (Settings.check homes) s.toValue).mapError fun
    | .rejected r => .refusedAgain r
    | .homeUnknown => .homeUnknown

/-- The settings that hold for a project: those of the document in its folder, those of the
environment over them, and the given ones over both. -/
def load (o : Origin) (folder : Path) (given : Entries) : Except LoadFault Settings := do
  let document ← match document? o.disk folder with
    | none => .ok []
    | some p => (ofDocument o.disk p).mapError .failed
  let environment ← ofEnvironment o.deepest o.environment
  let merged := Entries.mergeOver document (Entries.mergeOver environment (canonical given))
  let settings ← (checkClosed o.homes merged).mapError loadFault
  recheck o.homes settings

end Settings

end ScopeMetrics
