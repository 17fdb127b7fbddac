import ScopeMetrics.Batch
import ScopeMetrics.Command.Arguments
import ScopeMetrics.Command.Table
import ScopeMetrics.Settings.Load
import ScopeMetrics.Text.Integer

/-!
# Commands

The command line: `analyze` prints the spaces of source files, `languages` the languages that are
known.
-/

namespace ScopeMetrics.Command

/-- How a command ends. -/
inductive Ending where
  | done (code : Int)
  | refused (r : Refusal)
  /-- The settings could not be loaded, for a reason other than their content. -/
  | unloadable (f : LoadFault)
  /-- A path could not be used. -/
  | unusable (b : BadPath)
  | miscalculated (f : Arithmetic.Fault)

namespace Ending

/-- The exit code. -/
def code : Ending → Int
  | .done code => code
  | .refused r => r.exitCode
  | .unloadable _ | .unusable _ | .miscalculated _ => 1

/-- What is said about a command that did not end well. -/
def complaint? : Ending → Option String
  | .done _ => none
  | .refused r => some ("Error: " ++ r.message)
  | .unloadable f => some f.message
  | .unusable b => some b.message
  | .miscalculated f => some f.message

end Ending

/-- The state of a command: the session, and what was printed for people. -/
structure Run where
  session : Session
  printed : List Printed := []

/-- A step of a command; it may end the command early. -/
abbrev Step (α : Type) := ExceptT Ending (StateM Run) α

namespace Step

/-- A step of the session. -/
def ofSession {α : Type} (act : StateM Session α) : Step α := do
  let run ← get
  let (a, session) := act.run run.session
  set { run with session }
  return a

def refuse {α : Type} (r : Refusal) : Step α := throw (.refused r)

/-- A step that refusing ends. -/
def ofRefusal {α : Type} : Except Refusal α → Step α
  | .ok a => return a
  | .error r => refuse r

/-- A step that a fault of arithmetic ends. -/
def ofArithmetic {α : Type} : Except Arithmetic.Fault α → Step α
  | .ok a => return a
  | .error f => throw (.miscalculated f)

/-- Prints a line of plain text. -/
def echo (d : Log.Destination) (text : String) : Step Unit :=
  ofSession (Session.record fun j => j.print d text)

/-- Prints for people. -/
def print (ps : List Printed) : Step Unit :=
  modify fun run => { run with printed := run.printed ++ ps }

end Step

open Step

/-- The version, as it is printed. -/
def versionLine : String := "codegauge, version 0.1.0"

/-- The option of every command that explains it. -/
def helpSwitch : Switch := ⟨["--help"], false, "Show this message and exit."⟩

/-- The options before the name of a command. -/
def outer : Grammar where
  usage := "codegauge [OPTIONS] COMMAND [ARGS]..."
  purpose := "Metrics of source code, scope by scope. Commands: analyze, languages."
  options := [⟨["--version"], false, "Show the version and exit."⟩,
    ⟨["--verbose", "-v"], false, "Log everything."⟩, helpSwitch]
  interspersed := false

/-- The options of `analyze`. -/
def analyzeGrammar : Grammar where
  usage := "codegauge analyze [OPTIONS] PATHS..."
  purpose := "Analyze source files, and those in folders."
  options := [⟨["--language", "-l"], true, "The language of every file, by name."⟩,
    ⟨["--format"], true, "The output format, json or table."⟩,
    ⟨["--max-depth"], true, "The deepest level of spaces to print."⟩, helpSwitch]

/-- The options of `languages`. -/
def languagesGrammar : Grammar where
  usage := "codegauge languages [OPTIONS]"
  purpose := "List the languages that are known."
  options := [⟨["--json"], false, "Print as JSON."⟩, helpSwitch]

/-- Reads the arguments of a command.  An option that asks for help or for the version ends the
command. -/
def readArguments (g : Grammar) (arguments : List String) : Step Seen := do
  let seen ← ofRefusal (g.read arguments)
  match seen.options.find? fun o => o == "--help" || o == "--version" with
  | none => return seen
  | some o =>
    (if o == "--help" then g.help else [versionLine]).forM (echo .stdout)
    throw (.done 0)

/-! ### Analyze -/

/-- What `analyze` is asked to do. -/
structure Request where
  paths : List Path
  language : Option String
  format : Option OutputFormat
  maxDepth : Option Int

/-- Checks the value of an option. -/
def checkOption (option value : String) : Except Refusal Unit :=
  if option == "--format" then
    if OutputFormat.all.any fun f => f.name == value then .ok ()
    else .error (.invalidValue "'--format'"
      (Text.quoted value ++ " is not one of 'json', 'table'."))
  else if option == "--max-depth" then
    if (Text.integer? value).isSome then .ok ()
    else .error (.invalidValue "'--max-depth'" (Text.quoted value ++ " is not a valid integer."))
  else .ok ()

/-- The name of the operands of `analyze`. -/
def operandName : String := "PATHS..."

/-- Whether a text can only name a folder: it ends in a slash, or in a slash and a dot. -/
def namesFolder (text : String) : Bool :=
  match text.toList.reverse with
  | '/' :: _ | '.' :: '/' :: _ => true
  | _ => false

/-- Checks that there is something at a path. -/
def checkPath (text : String) : Step Path := do
  let d := (← get).session.disk
  let p := Path.ofString text
  if p.fault? = some .nullCharacter then throw (.unusable ⟨p, .nullCharacter⟩)
  if !text.isEmpty && (if namesFolder text then d.isFolder p else d.has p) then return p
  refuse (.invalidValue ("'" ++ operandName ++ "'")
    ("Path " ++ Text.quoted text ++ " does not exist."))

/-- Reads the arguments of `analyze`: first the options in the order in which they were given, then
the paths. -/
def request (arguments : List String) : Step Request := do
  let seen ← readArguments analyzeGrammar arguments
  seen.options.forM fun option =>
    ofRefusal (checkOption option ((seen.value? option).getD ""))
  if seen.operands.isEmpty then refuse (.missingOperand operandName)
  let paths ← seen.operands.mapM checkPath
  return {
    paths
    language := seen.value? "--language"
    format := (seen.value? "--format").bind fun v => OutputFormat.all.find? fun f => f.name == v
    maxDepth := (seen.value? "--max-depth").bind Text.integer? }

/-- Whether a path is a file that no language recognises. -/
def isUnknown (d : Disk) (p : Path) : Bool := d.isFile p && (Language.ofPath? p).isNone

/-- The exit code when a file of an unknown type was named. -/
def unknownTypeCode : Int := 2

/-- Prints analyses in the asked format. -/
def present (format : OutputFormat) (indent : Int) (maxDepth : Option Int) (as : List Analysis) :
    Step Unit :=
  match format with
  | .json => do
    let values ← as.mapM fun a => ofArithmetic (a.toValue maxDepth)
    echo .stdout (Json.indented indent (.list values))
  | .table => as.forM fun a => do print (← ofArithmetic (printAnalysis a maxDepth))

/-- Runs `analyze`; `requestId` ties its log records together. -/
def analyze (settings : Settings) (requestId : String) (arguments : List String) : Step Int := do
  let r ← request arguments
  ofSession (Session.record fun j => j.bind [(Log.Journal.requestKey, .text requestId)])
  let forced ← match r.language with
    | none => pure none
    | some name =>
      match Language.named name with
      | .ok l => pure (some l)
      | .error f => refuse (.invalidValue "--language" f.text)
  let d := (← get).session.disk
  let unknown := if forced.isSome then [] else r.paths.filter (isUnknown d)
  unknown.forM fun p => echo .stderr ("Unsupported file type: " ++ p.text)
  let targets := if forced.isSome then r.paths else r.paths.filter fun p => !isUnknown d p
  let search : Search := { settings := settings.analysis, forced }
  match ← ofSession (Session.analyzePaths search none targets).run with
  | .error (.failed f) => refuse (.failed f.text)
  | .error (.unusable b) => throw (.unusable b)
  | .error .noWorkers => refuse (.failed "max_workers must be greater than 0")
  | .ok as =>
    present (r.format.getD settings.output.format) settings.output.indent
      (r.maxDepth.or settings.output.maxDepth) as
    return if unknown.isEmpty then 0 else unknownTypeCode

/-! ### Languages -/

/-- Runs `languages`. -/
def languages (arguments : List String) : Step Int := do
  let seen ← readArguments languagesGrammar arguments
  if !seen.operands.isEmpty then refuse (.extraOperands seen.operands)
  if seen.has "--json" then echo .stdout (Json.indented 2 languageData)
  else print [languageTable]
  return 0

/-! ### The command line -/

/-- The commands. -/
inductive Name where
  | analyze | languages

namespace Name

def all : List Name := [.analyze, .languages]

def text : Name → String
  | .analyze => "analyze"
  | .languages => "languages"

def ofText? (s : String) : Option Name := all.find? fun n => n.text == s

end Name

/-- The command that arguments start with.  What looks like an option is read as one once more. -/
def commandOf (name : String) (rest : List String) : Step Name :=
  match Name.ofText? name with
  | some n => return n
  | none => do
    if Grammar.isOption name then let _ ← readArguments outer (name :: rest)
    refuse (.noSuchCommand name (Text.closeTo name (Name.all.map Name.text)))

/-- Loads the settings and sets up the log. -/
def prepare (o : Settings.Origin) (verbose : Bool) : Step Settings := do
  match Settings.load o o.disk.workingFolder [] with
  | .error (.failed f) => refuse (.failed f.text)
  | .error f => throw (.unloadable f)
  | .ok settings =>
    match ← ofSession (Session.configure settings.logging verbose).run with
    | .error b => throw (.unusable b)
    | .ok () => return settings

/-- Runs the program with its arguments and gives the exit code. -/
def program (o : Settings.Origin) (requestId : String) (arguments : List String) : Step Int := do
  let seen ← readArguments outer arguments
  match seen.operands with
  | [] => refuse .missingCommand
  | name :: rest =>
    let command ← commandOf name rest
    let settings ← prepare o (seen.has "--verbose")
    match command with
    | .analyze => analyze settings requestId rest
    | .languages => languages rest

/-- Runs the program, and says how it ended. -/
def run (environment : List (String × String)) (homes : Homes) (requestId : String)
    (arguments : List String) (session : Session) : Ending × Run :=
  let o : Settings.Origin := { disk := session.disk, environment, homes }
  let (result, final) := (program o requestId arguments).run { session }
  match result with
  | .ok code => (.done code, final)
  | .error ending => (ending, final)

end ScopeMetrics.Command
