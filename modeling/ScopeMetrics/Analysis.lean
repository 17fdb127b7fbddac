import ScopeMetrics.Frame.Build
import ScopeMetrics.Directives
import ScopeMetrics.Session
import ScopeMetrics.Space.Export

/-!
# Analyses

From a unit of source code to its spaces and their metrics.
-/

namespace ScopeMetrics

/-- What is known of a tree before its spaces are. -/
structure Parsed where
  language : Language
  root : Node

namespace Parsed

/-- How many nodes the parser put where it could not read the source. -/
def errorCount (p : Parsed) : Nat := p.root.count Label.isError

def totalNodes (p : Parsed) : Nat := p.root.size

end Parsed

/-- The outcome of analysing one unit. A unit without content has no spaces. -/
structure Analysis where
  language : Language
  path : Option String := none
  root : Option Space := none
  errorCount : Nat := 0
  totalNodes : Nat := 0

namespace Analysis

def isAbsent (a : Analysis) : Bool := a.root.isNone

/-- The outcome as plain data, down to a depth. -/
def toValue (a : Analysis) (maxDepth : Option Int) : Except Arithmetic.Fault Value := do
  let root ← match a.root with
    | none => .ok .null
    | some s => s.toValue maxDepth
  return .map [("path", Value.ofText? a.path), ("language", .text a.language.id),
    ("error_count", .int a.errorCount), ("total_nodes", .int a.totalNodes), ("root", root)]

end Analysis

namespace Session

/-- Has a unit parsed. -/
def parse (l : Language) (u : CodeUnit) : Act Parsed := do
  loadGrammar l
  return ⟨l, u.tree⟩

/-- The directives of a C or C++ unit. -/
def directives (u : CodeUnit) : Act Directives := do
  let parsed ← parse .cpp u
  return .collect u.source parsed.root

/-- Analyses a unit of a known language. -/
def analyzeUnit (l : Language) (path : Option String) (known : Directives) (u : CodeUnit) :
    Act Analysis :=
  inUnit path l.id do
    buildTable l
    if u.source.isBlank then return { language := l, path }
    let parsed ← parse l u
    let reading : Reading := { pack := l.pack, source := u.source, macros := known.macros }
    let walk := reading.walk path parsed.root
    let root ← ExceptT.mk (pure walk.draft.spaces)
    if parsed.errorCount != 0 then
      log .warning "analysis.error_nodes" [("error_nodes", .int parsed.errorCount),
        ("skipped_subtrees", .int walk.skipped), ("total_nodes", .int parsed.totalNodes)]
    return { language := l, path, root := some root, errorCount := parsed.errorCount,
             totalNodes := parsed.totalNodes }

/-- Analyses a unit of a language given by name. -/
def analyze (language : String) (path : Option String) (known : Directives) (u : CodeUnit) :
    Act Analysis := do
  let l ← ExceptT.mk (pure (Language.named language))
  analyzeUnit l path known u

/-- What a refusal of the disk means for the work on a file. -/
def pathFault (p : Path) : PathFault → WorkFault
  | .nullCharacter => .unusable ⟨p, .nullCharacter⟩
  | fault => .failed (.unreadable p.text (.ofPath fault))

/-- Reads a file. -/
def readFile (p : Path) : FileAct File := do
  match (← get).disk.read p with
  | .ok f => return f
  | .error fault => throw (pathFault p fault)

/-- Analyses a file.  The language comes from its name unless one is given; a given one is looked
at after the file has been read. -/
def analyzeFile (p : Path) (language : Option String) (known : Directives) : FileAct Analysis := do
  match language with
  | none =>
    let l ← ExceptT.mk (pure ((Language.ofFile p).mapError .failed))
    let f ← readFile p
    (analyzeUnit l (some p.text) known f.toCodeUnit).adapt .failed
  | some name =>
    let f ← readFile p
    (analyze name (some p.text) known f.toCodeUnit).adapt .failed

/-- Hands an analysis to consumers, one after the other, and counts them. A consumer that fails
ends it. -/
def publish {σ ε : Type} (consumers : List (Analysis → ExceptT ε (StateM σ) Unit))
    (a : Analysis) : ExceptT ε (StateM σ) Nat :=
  consumers.foldlM (fun n consume => do consume a; return n + 1) 0

end Session

end ScopeMetrics
