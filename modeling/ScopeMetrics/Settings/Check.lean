import ScopeMetrics.Settings
import ScopeMetrics.Settings.Whole

/-!
# Checking settings

Reading settings out of plain data.  Every part is checked, and of all that is wrong the first is
reported; only a home directory that cannot be found stops the check, whatever was wrong before.

The bounds and the rule for destinations are the program's own.  Everything else is the work of
pydantic, which is not part of the program, and the definitions follow its lenient mode:

* the fields of a group are checked in the order of their declaration and the errors are collected
  (`Checked.both`); an exception in a check that does not say that a value is wrong ends them all;
* what is not given has its default, which is not checked (`Checked.field`);
* an integer may be given as a truth value, as a double without places or as a text
  (`Checked.integer`, `Whole.read`); a text, a list or one of several choices only as itself;
* names that a group does not know are passed over, and are refused only beside the groups
  (`Settings.checkClosed`);
* the texts of refusals are those of `Reason.message`, and a location is the path of names and
  indexes to the value.
-/

namespace ScopeMetrics

/-- Why a value is refused. -/
inductive Reason where
  | notInteger | unreadableInteger | longInteger | fractional | infinite
  | notText | notList
  | notSection (name : String)
  | notOneOf (choices : List String)
  | tooSmall (field : String) (value : Int)
  | relativeDestination (text : String)
  | unknownName
  deriving DecidableEq

namespace Reason

/-- Choices in quotes, "or" before the last. -/
def choiceText (choices : List String) : String :=
  let shown := choices.map fun c => "'" ++ c ++ "'"
  match shown.getLast? with
  | none => ""
  | some last =>
    if shown.length ≤ 1 then last else ", ".intercalate shown.dropLast ++ " or " ++ last

def message : Reason → String
  | .notInteger => "Input should be a valid integer"
  | .unreadableInteger => "Input should be a valid integer, unable to parse string as an integer"
  | .longInteger => "Unable to parse input string as an integer, exceeded maximum size"
  | .fractional => "Input should be a valid integer, got a number with a fractional part"
  | .infinite => "Input should be a finite number"
  | .notText => "Input should be a valid string"
  | .notList => "Input should be a valid list"
  | .notSection name => "Input should be a valid dictionary or instance of " ++ name
  | .notOneOf choices => "Input should be " ++ choiceText choices
  | .tooSmall field value => "Value error, " ++ field ++ " must be >= 1, got " ++ toString value
  | .relativeDestination text => "Value error, File destination must be absolute path: " ++ text
  | .unknownName => "Extra inputs are not permitted"

end Reason

/-- A refused value: where it is, what it is, and why it is refused. -/
structure Rejection where
  location : List String
  value : Value
  reason : Reason

namespace Rejection

/-- The parts of the location, joined by dots. -/
def field (r : Rejection) : String := ".".intercalate r.location

def text (r : Rejection) : String := r.field ++ ": " ++ r.reason.message

end Rejection

/-- How checking settings can fail. -/
inductive CheckFault where
  | rejected (r : Rejection)
  /-- A path is seen from the home directory of a user that is not known. -/
  | homeUnknown

/-- What checking a value gives. -/
abbrev Checked (α : Type) := Except CheckFault α

namespace Checked

def reject {α : Type} (value : Value) (reason : Reason) : Checked α :=
  .error (.rejected ⟨[], value, reason⟩)

/-- Says where a value was. -/
def within {α : Type} (name : String) : Checked α → Checked α
  | .error (.rejected r) => .error (.rejected { r with location := name :: r.location })
  | x => x

/-- Both results together.  Of two faults the first is kept, unless the second stops the check. -/
def both {α β γ : Type} (f : α → β → γ) : Checked α → Checked β → Checked γ
  | .ok a, .ok b => .ok (f a b)
  | .ok _, .error e => .error e
  | .error (.rejected _), .error .homeUnknown => .error .homeUnknown
  | .error e, _ => .error e

/-- Checks the items of a list, each at its index. -/
def items {α : Type} (check : Value → Checked α) : Nat → List Value → Checked (List α)
  | _, [] => .ok []
  | i, v :: vs => both List.cons (within (toString i) (check v)) (items check (i + 1) vs)

/-- Checks the value under a name, where there is one. -/
def field {α : Type} (es : Entries) (name : String) (default : α) (check : Value → Checked α) :
    Checked α :=
  match Entries.get? es name with
  | none => .ok default
  | some v => within name (check v)

/-! ### Single values -/

def integer (v : Value) : Checked Int :=
  match v with
  | .int n => .ok n
  | .bool b => .ok (if b then 1 else 0)
  | .real x =>
    if x.isNaN || x.isInf then reject v .infinite
    else
      match Decimal.toInt? x with
      | none => reject v .fractional
      | some n => if n.natAbs < Decimal.twoPow 63 then .ok n else reject v .longInteger
  | .text s =>
    match Whole.read s with
    | .ok n => .ok n
    | .error .unreadable => reject v .unreadableInteger
    | .error .tooLong => reject v .longInteger
  | _ => reject v .notInteger

/-- An integer that is at least one. -/
def positive (name : String) (v : Value) : Checked Int :=
  match integer v with
  | .ok n => if n < 1 then reject v (.tooSmall name n) else .ok n
  | e => e

/-- Null stands for nothing. -/
def optional {α : Type} (check : Value → Checked α) : Value → Checked (Option α)
  | .null => .ok none
  | v => (check v).map some

/-- One of the listed things, by its name. -/
def choice {α : Type} (all : List α) (name : α → String) (v : Value) : Checked α :=
  let found := match v with
    | .text s => all.find? fun a => name a == s
    | _ => none
  match found with
  | some a => .ok a
  | none => reject v (.notOneOf (all.map name))

def list {α : Type} (check : Value → Checked α) : Value → Checked (List α)
  | .list vs => items check 0 vs
  | v => reject v .notList

/-- A group of settings under names. -/
def group {α : Type} (name : String) (check : Entries → Checked α) : Value → Checked α
  | .map es => check es
  | v => reject v (.notSection name)

/-- A destination of log records.  A file has to be given by an absolute path, or from the home
directory. -/
def destination (homes : Homes) : Value → Checked Log.Destination
  | .text "stderr" => .ok .stderr
  | .text "stdout" => .ok .stdout
  | .text s =>
    match (Path.ofString s).expandHome? homes with
    | none => .error .homeUnknown
    | some p =>
      if p.isAbsolute then .ok (.file p) else reject (.text s) (.relativeDestination s)
  | v => reject v .notText

end Checked

/-! ### Groups -/

open Checked

/-- Checks one output of the log. -/
def Log.Output.check (homes : Homes) (es : Entries) : Checked Log.Output :=
  both (fun format (rest : Log.Destination × Option Log.Level) => ⟨format, rest.1, rest.2⟩)
    (field es "format" .console (choice Log.Format.all Log.Format.name))
    (both Prod.mk
      (field es "destination" .stderr (Checked.destination homes))
      (field es "level" none (optional (choice Log.Level.all Log.Level.name))))

/-- Checks the settings of the log. -/
def Log.Setup.check (homes : Homes) (es : Entries) : Checked Log.Setup :=
  both Log.Setup.mk
    (field es "level" .warning (choice Log.Level.all Log.Level.name))
    (field es "outputs" [{}] (list (group "LogOutputConfig" (Log.Output.check homes))))

/-- Checks the settings of the analysis. -/
def AnalysisSettings.check (es : Entries) : Checked AnalysisSettings :=
  both (fun size (rest : Int × Option (List Language)) => ⟨size, rest.1, rest.2⟩)
    (field es "max_file_size_mb" 10 (positive "max_file_size_mb"))
    (both Prod.mk
      (field es "max_workers" 4 (positive "max_workers"))
      (field es "languages" none (optional (list (choice Language.all Language.id)))))

/-- Checks the settings of the output. -/
def OutputSettings.check (es : Entries) : Checked OutputSettings :=
  both (fun format (rest : Option Int × Int) => ⟨format, rest.1, rest.2⟩)
    (field es "format" .table (choice OutputFormat.all OutputFormat.name))
    (both Prod.mk
      (field es "max_depth" none (optional integer))
      (field es "indent" 2 integer))

/-- Checks all settings; names that are not those of a group are left aside. -/
def Settings.check (homes : Homes) (es : Entries) : Checked Settings :=
  both (fun logging (rest : AnalysisSettings × OutputSettings) => ⟨logging, rest.1, rest.2⟩)
    (field es "logging" {} (group "LoggingConfig" (Log.Setup.check homes)))
    (both Prod.mk
      (field es "analysis" {} (group "AnalysisConfig" AnalysisSettings.check))
      (field es "output" {} (group "OutputConfig" OutputSettings.check)))

/-- The names of the groups. -/
def Settings.groups : List String := ["logging", "analysis", "output"]

/-- Checks all settings; a name that is not that of a group is refused after everything else. -/
def Settings.checkClosed (homes : Homes) (es : Entries) : Checked Settings :=
  let extra : Checked Unit :=
    match es.find? fun e => !Settings.groups.contains e.1 with
    | none => .ok ()
    | some (name, v) => within name (reject v .unknownName)
  both (fun s _ => s) (Settings.check homes es) extra

end ScopeMetrics
