import ScopeMetrics.Analysis

/-!
# Tables

What the command line prints for people: tables of spaces and of languages, and single lines with
markup.
-/

namespace ScopeMetrics.Command

/-- Something printed for people. -/
inductive Printed where
  | text (line : String)
  | table (title : String) (header : List String) (rows : List (List String))

/-- A text, or another one if it is nothing or empty. -/
def orElse (s : Option String) (fallback : String) : String :=
  match s with
  | none => fallback
  | some t => if t.isEmpty then fallback else t

/-- The text filled with spaces at its end. -/
def padRight (width : Nat) (s : String) : String :=
  s ++ String.ofList (List.replicate (width - s.length) ' ')

/-- The width of each column. -/
def widths (rows : List (List String)) : List Nat :=
  rows.foldl (fun ws row =>
    (List.range (max ws.length row.length)).map fun i =>
      max (ws.getD i 0) (row.getD i "").length) []

/-- What is printed as lines of text, the columns of a table one under the other. -/
def Printed.lines : Printed → List String
  | .text line => [line]
  | .table title header rows =>
    let ws := widths (header :: rows)
    title :: (header :: rows).map fun row => "  ".intercalate (List.zipWith padRight ws row)

/-- The header of a table of spaces. -/
def spaceHeader : List String :=
  ["Space", "Kind", "Lines", "CC", "Cog", "Volume", "SLOC", "Args", "Exits", "MI"]

/-- The row of a space: its name, indented by its depth, and its metrics. -/
def spaceRow (depth : Nat) (s : Space) : Except Arithmetic.Fault (List String) := do
  let m := s.metrics
  let volume ← m.halstead.volume
  let index ← m.maintainability
  return [
    String.join (List.replicate depth "  ") ++ orElse s.scope.name "<unit>",
    s.scope.kind.name,
    toString s.scope.startLine ++ "-" ++ toString s.scope.endLine,
    toString m.cyclomatic.sum,
    toString m.cognitive.sum,
    Decimal.fixed 1 volume,
    toString m.loc.sloc,
    toString m.arguments.total,
    toString m.exits.sum,
    Decimal.fixed 1 index.percent]

/-- Whether spaces at a depth get a row. -/
def showsDepth (maxDepth : Option Int) (depth : Nat) : Bool :=
  match maxDepth with
  | none => true
  | some d => Int.ofNat depth ≤ d

/-- The spaces that get a row. -/
def shownSpaces (s : Space) (maxDepth : Option Int) : List (Nat × Space) :=
  s.withDepth.filter fun e => showsDepth maxDepth e.1

/-- What is printed of an analysis. -/
def printAnalysis (a : Analysis) (maxDepth : Option Int) :
    Except Arithmetic.Fault (List Printed) := do
  let title := orElse a.path a.language.id
  match a.root with
  | none => return [.text ("[dim]" ++ title ++ ": no analyzable content[/dim]")]
  | some s =>
    let rows ← (shownSpaces s maxDepth).mapM fun (depth, s) => spaceRow depth s
    let table := Printed.table (title ++ " (" ++ a.language.id ++ ")") spaceHeader rows
    let note := "[yellow]" ++ toString a.errorCount ++ " syntax error node(s) skipped[/yellow]"
    return if a.errorCount = 0 then [table] else [table, .text note]

/-- The table of the languages. -/
def languageTable : Printed :=
  .table "Supported languages" ["Language", "Extensions", "Aliases", "Grammar"]
    (Language.supported.map fun l =>
      [l.id, " ".intercalate l.definition.extensions, ", ".intercalate l.definition.aliases,
        l.definition.grammarPackage])

/-- The languages as plain data. -/
def languageData : Value :=
  .list (Language.supported.map fun l =>
    .map [("language", .text l.id),
      ("extensions", .list (l.definition.extensions.map .text)),
      ("aliases", .list (l.definition.aliases.map .text)),
      ("grammar", .text l.definition.grammarPackage)])

end ScopeMetrics.Command
