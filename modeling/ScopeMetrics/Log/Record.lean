import ScopeMetrics.Log.Setup
import ScopeMetrics.Text.Blank
import ScopeMetrics.Value.Json

/-!
# Records

A record is a map; its fields are the context, the name of the logger, the fields given with the
event, the event and the level, a later one taking the place of an earlier one of the same name.  It
is written as data, or as console text: some fields first, each in its place, then the others by
name, and at last the stack and the exception, on lines of their own.
-/

namespace ScopeMetrics.Log

/-- A piece of output: a record as data, a record as text, or a text that is no record.  The first
two get the time when they are written out. -/
inductive Line where
  | json (record : Entries)
  | console (text : String)
  | plain (text : String)

/-- A line as it is written at a time. -/
def Line.text (time : String) : Line → String
  | .json record => Json.compact (.map (record ++ [("timestamp", .text time)]))
  | .console text => time ++ " " ++ text
  | .plain text => text

/-- Gives each name of the second list its value. -/
def overlay (es new : Entries) : Entries := new.foldl (fun acc (k, v) => Entries.put acc k v) es

/-- The name of the field that holds the time, which every record gets when it is written. -/
def timeKey : String := "timestamp"

/-- The fields of a record.  A logger whose name counts as nothing leaves none, and so does an event
that is null. -/
def record (context : Entries) (logger : Value) (level : Level) (event : Value)
    (fields : Entries) : Entries :=
  let named := if logger.isEmpty then context else Entries.put context "logger" logger
  let given := overlay named fields
  let told := match event with
    | .null => given
    | v => Entries.put given "event" v
  Entries.erase (Entries.put told "level" (.text level.word)) timeKey

/-! ### Console text -/

/-- Whether a character in a value would make a console line ambiguous. -/
def needsQuotes (c : Char) : Bool :=
  c == ' ' || c == '\t' || c == '=' || c == '\r' || c == '\n' || c == '"' || c == '\''

/-- A value in a console line. -/
def consoleValue : Value → String
  | .text s => if s.toList.any needsQuotes then Text.quoted s else s
  | v => v.inner

/-- A text filled up with spaces. -/
def padded (width : Nat) (s : String) : String :=
  s ++ String.ofList (List.replicate (width - s.length) ' ')

/-- A field with a place of its own at the front of a console line. -/
structure Leading where
  name : String
  width : Nat := 0
  bracketed : Bool := true

/-- The fields at the front of a console line, in order. -/
def leadingFields (columns : Columns) : List Leading :=
  [⟨"level", columns.level, true⟩, ⟨"event", columns.event, false⟩, ⟨"logger", 0, true⟩,
    ⟨"logger_name", 0, true⟩]

/-- A value at the front of a console line. -/
def Leading.text (l : Leading) (v : Value) : String :=
  let shown := padded l.width v.display
  if l.bracketed then "[" ++ shown ++ "]" else shown

/-- The fields that are told on lines of their own. -/
def traceFields : List String := ["stack", "exception", "exc_info"]

/-- The front of a console line. -/
def leading (columns : Columns) (record : Entries) : List String :=
  (leadingFields columns).filterMap fun l => (Entries.get? record l.name).map l.text

/-- The other fields of a console line, in the order of their names. -/
def trailing (record : Entries) : List String :=
  let placed := (leadingFields {}).map Leading.name ++ traceFields
  let rest := record.filter fun e => !placed.contains e.1
  (Entries.sorted rest).map fun (k, v) => k ++ "=" ++ consoleValue v

/-- The text of a field that is told on lines of its own. -/
def trace? (record : Entries) (name : String) : Option String :=
  match Entries.get? record name with
  | none | some .null => none
  | some v => some v.display

/-- The line between a stack and an exception. -/
def traceRule : String := String.ofList (List.replicate 79 '=')

/-- The stack and the exception of a record.  An exception that is only announced is announced by
the rule under the stack. -/
def traces (record : Entries) : String :=
  let announced := match Entries.get? record "exc_info" with
    | some v => !v.isEmpty
    | none => false
  let exception := trace? record "exception"
  let stack := match trace? record "stack" with
    | none => ""
    | some s =>
      "\n" ++ s ++ if announced || exception.isSome then "\n\n" ++ traceRule ++ "\n" else ""
  stack ++ match exception with
    | none => ""
    | some s => "\n" ++ s

/-- A record as console text. -/
def consoleText (columns : Columns) (record : Entries) : String :=
  let parts := (leading columns record ++ trailing record).filter fun p => !p.isEmpty
  let line := " ".intercalate parts
  String.ofList (Text.trimEndWhile (· == ' ') line.toList) ++ traces record

/-- A record as a handler writes it. -/
def Handler.line (h : Handler) (record : Entries) : Line :=
  match h.format with
  | .json => .json record
  | .console => .console (consoleText h.columns record)

end ScopeMetrics.Log
