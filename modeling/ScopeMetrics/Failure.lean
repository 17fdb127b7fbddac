import ScopeMetrics.Language
import ScopeMetrics.Path.Fault
import ScopeMetrics.Value

/-!
# Failures

What a caller can be told went wrong.  Each failure is a cause with its data; its code, its name,
its message and the details that go with it are functions of the cause.
-/

namespace ScopeMetrics

/-- Why the operating system refused to read a file. -/
inductive ReadFault where
  /-- An error number and its description, and the arguments that came with them. -/
  | numbered (number description : Value) (more : List Value := [])
  /-- An error without a number. -/
  | plain (text : Value)
  | silent

namespace ReadFault

/-- The fault of a path that the operating system refused. -/
def ofPath (f : PathFault) : ReadFault :=
  match f.number? with
  | some n => .numbered (.int n) (.text f.description)
  | none => .plain (.text f.description)

/-- The description, or the whole error if there is none. -/
def text : ReadFault → String
  | .numbered number description more =>
    if !description.isEmpty then description.display
    else
      let whole := "[Errno " ++ number.display ++ "] " ++ description.display
      match more with
      | file :: _ => whole ++ ": " ++ file.inner
      | [] => whole
  | .plain v => v.display
  | .silent => ""

end ReadFault

/-- What went wrong. -/
inductive Failure where
  | configUnreadable (path reason : String)
  | configInvalid (field : String) (value : Value) (reason : String)
  | unknownLanguage (name : String)
  | unknownFileType (path : String)
  | grammarMissing (language package : String)
  | unreadable (path : String) (fault : ReadFault)
  | internal (reason : String) (details : Entries)

namespace Failure

/-- The number of a failure: 2000s for configuration, 3000s for analysis, 9000s for the rest. -/
def code : Failure → Int
  | .configUnreadable .. => 2001
  | .configInvalid .. => 2002
  | .unknownLanguage _ | .unknownFileType _ => 3001
  | .grammarMissing .. => 3002
  | .unreadable .. => 3003
  | .internal .. => 9001

def name : Failure → String
  | .configUnreadable .. => "CONFIG_PARSE_ERROR"
  | .configInvalid .. => "CONFIG_INVALID_VALUE"
  | .unknownLanguage _ | .unknownFileType _ => "UNSUPPORTED_LANGUAGE"
  | .grammarMissing .. => "GRAMMAR_UNAVAILABLE"
  | .unreadable .. => "SOURCE_READ_ERROR"
  | .internal .. => "INTERNAL_ERROR"

def message : Failure → String
  | .configUnreadable path reason => "Failed to parse config at " ++ path ++ ": " ++ reason
  | .configInvalid field _ reason => "Invalid value for '" ++ field ++ "': " ++ reason
  | .unknownLanguage name => "Language '" ++ name ++ "' is not supported"
  | .unknownFileType path => "No supported language for file: " ++ path
  | .grammarMissing language package =>
    "Grammar for '" ++ language ++ "' is not installed (pip install " ++ package ++ ")"
  | .unreadable path fault => "Failed to read " ++ path ++ ": " ++ fault.text
  | .internal reason _ => "Internal error: " ++ reason

/-- Whether a second try may succeed. -/
def retryable : Failure → Bool
  | .unreadable .. => true
  | _ => false

def details : Failure → Entries
  | .configUnreadable path reason => [("path", .text path), ("reason", .text reason)]
  | .configInvalid field value reason =>
    [("field", .text field), ("value", .text value.display), ("reason", .text reason)]
  | .unknownLanguage name => [("language", .text name)]
  | .unknownFileType path => [("path", .text path)]
  | .grammarMissing language package => [("language", .text language), ("package", .text package)]
  | .unreadable path _ => [("path", .text path)]
  | .internal _ details => details

/-- Whether the failure belongs to an analysis. -/
def isAnalysis : Failure → Bool
  | .configUnreadable .. | .configInvalid .. | .internal .. => false
  | _ => true

/-- The failure on one line. -/
def text (f : Failure) : String :=
  "[" ++ toString f.code ++ "] " ++ f.name ++ ": " ++ f.message

/-- The failure as plain data. -/
def toValue (f : Failure) : Value :=
  .map [("code", .int f.code), ("error", .text f.name), ("message", .text f.message),
    ("retryable", .bool f.retryable), ("details", .map f.details)]

end Failure

/-- The language of a name, or the failure to know it. -/
def Language.named (name : String) : Except Failure Language :=
  match Language.ofName? name with
  | some l => .ok l
  | none => .error (.unknownLanguage name)

/-- The language of a file, or the failure to know it. -/
def Language.ofFile (p : Path) : Except Failure Language :=
  match Language.ofPath? p with
  | some l => .ok l
  | none => .error (.unknownFileType p.text)

end ScopeMetrics
