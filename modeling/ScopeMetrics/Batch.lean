import ScopeMetrics.Analysis
import ScopeMetrics.Settings

/-!
# Batches

Finding the source files among given files and folders, and analysing them all.
-/

namespace ScopeMetrics

/-- Why a file is left out. -/
inductive Skip where
  | unsupported | filtered
  | tooLarge (size : Nat)
  deriving DecidableEq

/-- The fields of a record about a skipped file, apart from its path. -/
def Skip.fields : Skip → Entries
  | .unsupported => [("reason", .text "unsupported")]
  | .filtered => [("reason", .text "language_filtered")]
  | .tooLarge size => [("reason", .text "too_large"), ("size", .int size)]

/-- What a file turns out to be. -/
inductive Finding where
  | source (path : Path) (language : Language)
  | skipped (path : Path) (why : Skip)

/-- A file to look at, and whether it was named by the caller. -/
structure Candidate where
  path : Path
  explicit : Bool

/-- What to look for. -/
structure Search where
  settings : AnalysisSettings := {}
  /-- The language of every named file, and the only one to look for in folders. -/
  forced : Option Language := none

namespace Search

/-- Whether files of a language are wanted. -/
def wants (s : Search) (l : Language) : Bool :=
  match s.forced with
  | some f => l = f
  | none =>
    match s.settings.languages with
    | none | some [] => true
    | some ls => ls.contains l

/-- The size of the largest file that is read. -/
def maxBytes (s : Search) : Int := s.settings.maxFileSizeMb * 1024 * 1024

/-- The language of a file. -/
def languageOf? (s : Search) (c : Candidate) : Option Language :=
  match s.forced with
  | some f => if c.explicit then some f else Language.ofPath? c.path
  | none => Language.ofPath? c.path

/-- The number of bytes of what is at a path. A folder counts as empty. -/
def sizeOf (d : Disk) (p : Path) : Except WorkFault Nat :=
  match d.find p with
  | .error fault => .error (Session.pathFault p fault)
  | .ok (.folder _) => .ok 0
  | .ok (.file f) => .ok f.source.length

/-- What a file turns out to be. -/
def examine (s : Search) (d : Disk) (c : Candidate) : Except WorkFault Finding :=
  match s.languageOf? c with
  | none => .ok (.skipped c.path .unsupported)
  | some l =>
    if !s.wants l then .ok (.skipped c.path .filtered)
    else
      match sizeOf d c.path with
      | .error f => .error f
      | .ok size =>
        if s.maxBytes < size then .ok (.skipped c.path (.tooLarge size)) else .ok (.source c.path l)

/-- What was found before the first fault, and the fault. -/
def examineAll (s : Search) (d : Disk) : List Candidate → List Finding × Option WorkFault
  | [] => ([], none)
  | c :: cs =>
    match s.examine d c with
    | .error fault => ([], some fault)
    | .ok finding =>
      let (findings, fault) := examineAll s d cs
      (finding :: findings, fault)

/-- The files to look at for a path: those in a folder in order, anything else itself.  A name
that is too long cannot be told to be a folder or not. -/
def candidates (d : Disk) (p : Path) : Except WorkFault (List Candidate) :=
  match d.find p with
  | .error .nameTooLong => .error (.unusable ⟨p, .nameTooLong⟩)
  | .ok (.folder _) => .ok ((d.filesBelow p).map (⟨·, false⟩))
  | _ => .ok [⟨p, true⟩]

/-- What was found at paths before the first fault, and the fault. -/
def examinePaths (s : Search) (d : Disk) : List Path → List Finding × Option WorkFault
  | [] => ([], none)
  | p :: ps =>
    match candidates d p with
    | .error fault => ([], some fault)
    | .ok cs =>
      match s.examineAll d cs with
      | (findings, some fault) => (findings, some fault)
      | (findings, none) =>
        let (more, fault) := examinePaths s d ps
        (findings ++ more, fault)

end Search

namespace Session

/-- Logs a skipped file. -/
def noteSkip : Finding → StateM Session Unit
  | .source _ _ => pure ()
  | .skipped p why => log .debug "analysis.skipped" (("path", .text p.text) :: why.fields)

/-- The source files among files and folders, found before the first fault. -/
def sourceFiles (s : Search) (paths : List Path) :
    StateM Session (List (Path × Language) × Option WorkFault) := do
  let (findings, fault) := s.examinePaths (← get).disk paths
  findings.forM noteSkip
  let units := findings.filterMap fun
    | .source p l => some (p, l)
    | .skipped _ _ => none
  return (units, fault)

/-- Analyses source files of known languages, in order. -/
def analyzeAll : List (Path × Language) → FileAct (List Analysis)
  | [] => return []
  | (p, l) :: rest => do
    let f ← readFile p
    let first ← (analyzeUnit l (some p.text) {} f.toCodeUnit).adapt .failed
    return first :: (← analyzeAll rest)

/-- Analyses all source files among files and folders.  The number of workers is the given one if
it is not zero, else that of the settings. -/
def analyzePaths (s : Search) (workers : Option Int) (paths : List Path) :
    FileAct (List Analysis) := do
  let count := match workers with
    | none | some 0 => s.settings.maxWorkers
    | some n => n
  let (units, fault) ← sourceFiles s paths
  if let some f := fault then throw f
  if units.isEmpty then return []
  if count ≤ 0 then throw .noWorkers
  let results ← analyzeAll units
  log .debug "analysis.completed" [("units", .int results.length), ("workers", .int count)]
  return results

end Session

end ScopeMetrics
