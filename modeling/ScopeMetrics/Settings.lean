import ScopeMetrics.Language
import ScopeMetrics.Log.Setup
import ScopeMetrics.Value

/-!
# Settings

What can be configured: the log, the analysis and the output of the command line.
-/

namespace ScopeMetrics

/-- Limits of an analysis of many files. -/
structure AnalysisSettings where
  /-- Larger files are skipped. -/
  maxFileSizeMb : Int := 10
  maxWorkers : Int := 4
  /-- The languages to analyse, all if there is none in the list. -/
  languages : Option (List Language) := none
  deriving DecidableEq

/-- How results are printed. -/
inductive OutputFormat where
  | json | table
  deriving DecidableEq, Repr

namespace OutputFormat

def all : List OutputFormat := [.json, .table]

def name : OutputFormat → String
  | .json => "json"
  | .table => "table"

end OutputFormat

/-- The output of the command line. -/
structure OutputSettings where
  format : OutputFormat := .table
  maxDepth : Option Int := none
  indent : Int := 2
  deriving DecidableEq

/-- Everything that can be configured. -/
structure Settings where
  logging : Log.Setup := {}
  analysis : AnalysisSettings := {}
  output : OutputSettings := {}
  deriving DecidableEq

/-! ### As plain data -/

def Log.Output.toValue (o : Log.Output) : Value :=
  .map [("format", .text o.format.name), ("destination", .text o.destination.text),
    ("level", Value.ofText? (o.level.map Log.Level.name))]

def Log.Setup.toValue (s : Log.Setup) : Value :=
  .map [("level", .text s.level.name), ("outputs", .list (s.outputs.map Log.Output.toValue))]

def AnalysisSettings.toValue (s : AnalysisSettings) : Value :=
  let languages := match s.languages with
    | none => .null
    | some ls => .list (ls.map fun l => .text l.id)
  .map [("max_file_size_mb", .int s.maxFileSizeMb), ("max_workers", .int s.maxWorkers),
    ("languages", languages)]

def OutputSettings.toValue (s : OutputSettings) : Value :=
  .map [("format", .text s.format.name), ("max_depth", Value.ofInt? s.maxDepth),
    ("indent", .int s.indent)]

def Settings.toValue (s : Settings) : Value :=
  .map [("logging", s.logging.toValue), ("analysis", s.analysis.toValue),
    ("output", s.output.toValue)]

end ScopeMetrics
