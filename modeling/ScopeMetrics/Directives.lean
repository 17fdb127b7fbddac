import ScopeMetrics.Failure
import ScopeMetrics.SortedSet
import ScopeMetrics.Text.Blank
import ScopeMetrics.Tree.Source

/-!
# Preprocessor directives

The macros that a C or C++ source defines and the files that it includes.  A macro is function-like
in use, so a name known to be one counts as an operator; the included files tell a caller where
further macros come from.
-/

namespace ScopeMetrics

/-- Names of macros, and paths of included files in order. -/
structure Directives where
  macros : SortedSet String := ∅
  includes : List String := []
  deriving DecidableEq

namespace Directives

/-- The directives of both; an included path that the left side has is not added again. -/
def merge (a b : Directives) : Directives where
  macros := a.macros.union b.macros
  includes := a.includes ++ b.includes.filter fun i => !a.includes.contains i

/-- The directives of all, merged from the left. -/
def mergeAll (ds : List Directives) : Directives := ds.foldl merge {}

/-- Whether a node of a kind defines a macro. -/
def definesMacro (kind : String) : Bool := kind == "preproc_def" || kind == "preproc_function_def"

/-- Whether a character encloses an included path. -/
def encloses (c : Char) : Bool := c == '"' || c == '<' || c == '>'

/-- The path that an include names, without what encloses it. -/
def includedPath (text : String) : String :=
  String.ofList (Text.trimWhile encloses (Text.strip text).toList)

/-- The directives that one node gives. -/
def ofNode (s : Source) (n : Node) : Directives :=
  if definesMacro n.kind then
    { macros := .ofList ((n.field? "name").toList.map fun m => s.text m.label) }
  else if n.kind == "preproc_include" then
    { includes := (n.field? "path").toList.map fun m => includedPath (s.text m.label) }
  else {}

/-- Adds directives as they come: every include counts, also a repeated one. -/
def append (a b : Directives) : Directives :=
  ⟨a.macros.union b.macros, a.includes ++ b.includes⟩

mutual

/-- The directives of a tree, in source order. What an include holds is not looked into. -/
def collect (s : Source) : Node → Directives
  | .mk l cs =>
    let here := ofNode s (.mk l cs)
    if l.kind == "preproc_include" then here else here.append (collectAll s cs)

def collectAll (s : Source) : List Node → Directives
  | [] => {}
  | c :: cs => (collect s c).append (collectAll s cs)

end

end Directives

end ScopeMetrics
