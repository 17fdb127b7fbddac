import ScopeMetrics.Log.Record

/-!
# Journals

What has been logged, and the context that every further record carries.
-/

namespace ScopeMetrics.Log

/-- The context of the records to come, the log as it is set up, and what was written. -/
structure Journal where
  context : Entries := []
  writer : Writer := .initial
  lines : List (Destination × Line) := []
  /-- The names of fields that a log keeps for itself once it is set up. -/
  reserved : List String := []

namespace Journal

/-- Logs an event to every handler that takes its level. -/
def log (j : Journal) (logger : Value) (level : Level) (event : Value) (fields : Entries) :
    Journal :=
  if level.number < j.writer.threshold then j
  else
    let all := record j.context logger level event fields
    let r := all.filter fun e => !j.writer.hidden.contains e.1
    let new := (j.writer.handlers.filter fun h => h.level.number ≤ level.number).map fun h =>
      (h.destination, h.line r)
    { j with lines := j.lines ++ new }

/-- Starts to set up the log anew; it has no handlers yet. -/
def restart (j : Journal) (threshold : Nat) : Journal :=
  { j with writer := { threshold, handlers := [], hidden := j.reserved } }

/-- Adds a handler. -/
def addHandler (j : Journal) (h : Handler) : Journal :=
  { j with writer := { j.writer with handlers := j.writer.handlers ++ [h] } }

/-- Writes a text that is no record. -/
def print (j : Journal) (d : Destination) (text : String) : Journal :=
  { j with lines := j.lines ++ [(d, .plain text)] }

/-- Adds to the context. -/
def bind (j : Journal) (fields : Entries) : Journal := { j with context := overlay j.context fields }

def unbind (j : Journal) (name : String) : Journal :=
  { j with context := Entries.erase j.context name }

/-- Gives names back the values that they had in an earlier context. -/
def restore (j : Journal) (earlier : Entries) (names : List String) : Journal :=
  names.foldl (fun j name =>
    match Entries.get? earlier name with
    | some v => j.bind [(name, v)]
    | none => j.unbind name) j

/-- What was written to a destination, piece by piece. -/
def written (j : Journal) (d : Destination) : List Line :=
  (j.lines.filter fun e => e.1 = d).map Prod.snd

/-- The text that was written to a destination, all at one time. -/
def text (j : Journal) (time : String) (d : Destination) : String :=
  String.join ((j.written d).map fun l => l.text time ++ "\n")

/-- The name under which the context holds what ties the records of one request together. -/
def requestKey : String := "request_id"

/-- The request that is being served. -/
def request? (j : Journal) : Option String :=
  match Entries.get? j.context requestKey with
  | none | some .null => none
  | some v => some v.display

/-- The context that tells which unit is analysed. -/
def unitFields (path : Option String) (language : String) : Entries :=
  let shown := match path with
    | some p => if p.isEmpty then "<source>" else p
    | none => "<source>"
  [("unit", .text shown), ("language", .text language)]

end Journal

end ScopeMetrics.Log
