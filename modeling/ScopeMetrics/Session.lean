import ScopeMetrics.Disk
import ScopeMetrics.Failure
import ScopeMetrics.Log.Journal
import ScopeMetrics.Pack.All

/-!
# Sessions

What a run keeps between two analyses: the languages whose tables have been built, the grammars
that have been loaded, the journal and the disk.
-/

namespace ScopeMetrics

/-- The state of a run. -/
structure Session where
  disk : Disk := {}
  journal : Log.Journal := {}
  /-- The languages whose grammar is not installed. -/
  uninstalled : List Language := []
  /-- The languages with a table, in the order in which they were built. -/
  tables : List Language := []
  /-- The languages with a loaded grammar. -/
  grammars : List Language := []

/-- A step of a run that can fail. -/
abbrev Act (α : Type) := ExceptT Failure (StateM Session) α

/-- How work on files can fail. -/
inductive WorkFault where
  | failed (f : Failure)
  /-- A path cannot even be looked up. -/
  | unusable (b : BadPath)
  /-- The number of workers is below one. -/
  | noWorkers

/-- A step of a run that works on files. -/
abbrev FileAct (α : Type) := ExceptT WorkFault (StateM Session) α

namespace Session

/-- Changes the journal. -/
def record (f : Log.Journal → Log.Journal) : StateM Session Unit :=
  modify fun s => { s with journal := f s.journal }

/-- Logs an event of the program itself. -/
def log (level : Log.Level) (event : String) (fields : Entries) : StateM Session Unit :=
  record fun j => j.log .null level (.text event) fields

/-- Makes an output ready to be written to.  A file to be written to is made. -/
def openHandler (h : Log.Handler) : ExceptT BadPath (StateM Session) Unit := do
  let s ← get
  let (disk, destination) ← match h.destination with
    | .file p => do
      let (disk, direct) ← liftExcept (s.disk.openFile p)
      pure (disk, Log.Destination.file direct)
    | d => pure (s.disk, d)
  set { s with disk, journal := s.journal.addHandler { h with destination } }
where
  liftExcept {α : Type} (x : Except BadPath α) : ExceptT BadPath (StateM Session) α :=
    ExceptT.mk (pure x)

/-- Sets up the log.  An output that cannot be made ready leaves the log with those before it. -/
def configure (setup : Log.Setup) (verbose : Bool) : ExceptT BadPath (StateM Session) Unit := do
  record fun j => j.restart (setup.threshold verbose)
  (setup.handlers verbose).forM openHandler

/-- Builds the table of a language, the first time that it is asked for. -/
def buildTable (l : Language) : StateM Session Unit := do
  if !(← get).tables.contains l then
    modify fun s => { s with tables := s.tables ++ [l] }
    log .debug "registry.table_built" [("language", .text l.id),
      ("kinds", .int (Group.kindsOf l.pack.kinds).length),
      ("tokens", .int (Group.kindsOf l.pack.tokens).length)]

/-- The languages with a table, in the order of their names. -/
def loaded (s : Session) : List Language := Language.sorted s.tables

/-- Loads the grammar of a language, the first time that it is asked for. -/
def loadGrammar (l : Language) : Act Unit := do
  let s ← get
  if s.grammars.contains l then return
  if s.uninstalled.contains l then throw (.grammarMissing l.id l.definition.grammarPackage)
  set { s with grammars := s.grammars ++ [l] }
  log .debug "parser.grammar_loaded" [("language", .text l.id),
    ("module", .text l.definition.grammarModule)]

/-- Runs a step while every record tells the unit that is analysed. -/
def inUnit {α : Type} (path : Option String) (language : String) (act : Act α) : Act α :=
  ExceptT.mk do
    let earlier := (← get).journal.context
    let fields := Log.Journal.unitFields path language
    record fun j => j.bind fields
    let result ← act.run
    record fun j => j.restore earlier (fields.map Prod.fst)
    return result

end Session

end ScopeMetrics
