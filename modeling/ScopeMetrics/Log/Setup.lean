import ScopeMetrics.Path

/-!
# Where a log goes

Levels, formats and destinations, and the handlers that a setup gives.
-/

namespace ScopeMetrics.Log

inductive Level where
  | debug | info | warning | error | critical
  deriving DecidableEq, Repr

namespace Level

def all : List Level := [.debug, .info, .warning, .error, .critical]

/-- The rank of a level. -/
def number : Level → Nat
  | .debug => 10
  | .info => 20
  | .warning => 30
  | .error => 40
  | .critical => 50

/-- The name of a level in a setup. -/
def name : Level → String
  | .debug => "DEBUG"
  | .info => "INFO"
  | .warning => "WARNING"
  | .error => "ERROR"
  | .critical => "CRITICAL"

/-- The name of a level in a record. -/
def word : Level → String
  | .debug => "debug"
  | .info => "info"
  | .warning => "warning"
  | .error => "error"
  | .critical => "critical"

def ofName? (s : String) : Option Level := all.find? fun l => l.name == s

/-- The level with a name in records. -/
def ofWord? (s : String) : Option Level := all.find? fun l => l.word == s

/-- The level with a rank. -/
def ofNumber? (n : Nat) : Option Level := all.find? fun l => l.number == n

end Level

/-- How records are written. -/
inductive Format where
  | json | console
  deriving DecidableEq, Repr

namespace Format

def all : List Format := [.json, .console]

def name : Format → String
  | .json => "json"
  | .console => "console"

end Format

/-- Where records are written. -/
inductive Destination where
  | stderr | stdout
  | file (path : Path)
  deriving DecidableEq

namespace Destination

def text : Destination → String
  | .stderr => "stderr"
  | .stdout => "stdout"
  | .file p => p.text

end Destination

/-- One output of a log; without a level of its own it takes that of the setup. -/
structure Output where
  format : Format := .console
  destination : Destination := .stderr
  level : Option Level := none
  deriving DecidableEq

/-- What is written at all, and the outputs to write it to. -/
structure Setup where
  level : Level := .warning
  outputs : List Output := [{}]
  deriving DecidableEq

/-- How wide the level and the event of a record are written on a console, at least. -/
structure Columns where
  level : Nat := 0
  event : Nat := 0
  deriving DecidableEq

/-- An output that is ready to be written to. -/
structure Handler where
  format : Format
  destination : Destination
  level : Level
  columns : Columns := {}
  deriving DecidableEq

/-- A log that is ready to be written to. -/
structure Writer where
  /-- The rank below which nothing is written. -/
  threshold : Nat
  handlers : List Handler
  /-- The fields that are not written. -/
  hidden : List String := []
  deriving DecidableEq

/-- The log before it is set up: everything is printed, in columns. -/
def Writer.initial : Writer where
  threshold := 0
  handlers := [⟨.console, .stdout, .debug, ⟨9, 30⟩⟩]
  hidden := ["stack_info"]

/-- The level of a setup; `verbose` lowers it as far as possible. -/
def Setup.effectiveLevel (s : Setup) (verbose : Bool) : Level :=
  if verbose then .debug else s.level

/-- The rank below which nothing is written. -/
def Setup.threshold (s : Setup) (verbose : Bool) : Nat := (s.effectiveLevel verbose).number

/-- The handlers of a setup; `verbose` lowers every level as far as possible. -/
def Setup.handlers (s : Setup) (verbose : Bool) : List Handler :=
  s.outputs.map fun o =>
    { format := o.format
      destination := o.destination
      level := if verbose then .debug else o.level.getD s.level }

end ScopeMetrics.Log
