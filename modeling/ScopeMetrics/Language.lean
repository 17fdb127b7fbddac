import ScopeMetrics.Path
import ScopeMetrics.Text.Blank

/-!
# Languages

The closed set of languages that can be analysed, with the names, file extensions and grammar
distribution of each.
-/

namespace ScopeMetrics

/-- A language whose source can be analysed. -/
inductive Language where
  | cpp | csharp | css | go | html | java | javascript | python | rust | typescript | tsx
  deriving DecidableEq, Repr, Inhabited

/-- What is known of a language. The extensions are in order and in small letters. -/
structure Language.Definition where
  extensions : List String
  grammarPackage : String
  grammarModule : String
  grammarEntry : String := "language"
  aliases : List String := []

namespace Language

/-- Every language, in the order of declaration. -/
def all : List Language :=
  [.cpp, .csharp, .css, .go, .html, .java, .javascript, .python, .rust, .typescript, .tsx]

/-- The name of a language. -/
def id : Language → String
  | .cpp => "cpp"
  | .csharp => "csharp"
  | .css => "css"
  | .go => "go"
  | .html => "html"
  | .java => "java"
  | .javascript => "javascript"
  | .python => "python"
  | .rust => "rust"
  | .typescript => "typescript"
  | .tsx => "tsx"

def definition : Language → Definition
  | .cpp =>
    { extensions := [".c", ".cc", ".cpp", ".cxx", ".h", ".hh", ".hpp", ".hxx", ".inl", ".mm"]
      grammarPackage := "tree-sitter-cpp"
      grammarModule := "tree_sitter_cpp"
      aliases := ["c", "c++", "cc", "mozcpp"] }
  | .csharp =>
    { extensions := [".cs"]
      grammarPackage := "tree-sitter-c-sharp"
      grammarModule := "tree_sitter_c_sharp"
      aliases := ["c#", "cs", "c_sharp"] }
  | .css =>
    { extensions := [".css"]
      grammarPackage := "tree-sitter-css"
      grammarModule := "tree_sitter_css" }
  | .go =>
    { extensions := [".go"]
      grammarPackage := "tree-sitter-go"
      grammarModule := "tree_sitter_go"
      aliases := ["golang"] }
  | .html =>
    { extensions := [".htm", ".html"]
      grammarPackage := "tree-sitter-html"
      grammarModule := "tree_sitter_html" }
  | .java =>
    { extensions := [".java"]
      grammarPackage := "tree-sitter-java"
      grammarModule := "tree_sitter_java" }
  | .javascript =>
    { extensions := [".cjs", ".js", ".jsm", ".jsx", ".mjs"]
      grammarPackage := "tree-sitter-javascript"
      grammarModule := "tree_sitter_javascript"
      aliases := ["js", "jsx", "mozjs", "ecmascript"] }
  | .python =>
    { extensions := [".py", ".pyi", ".pyw"]
      grammarPackage := "tree-sitter-python"
      grammarModule := "tree_sitter_python"
      aliases := ["py", "python3"] }
  | .rust =>
    { extensions := [".rs"]
      grammarPackage := "tree-sitter-rust"
      grammarModule := "tree_sitter_rust"
      aliases := ["rs"] }
  | .typescript =>
    { extensions := [".cts", ".mts", ".ts"]
      grammarPackage := "tree-sitter-typescript"
      grammarModule := "tree_sitter_typescript"
      grammarEntry := "language_typescript"
      aliases := ["ts"] }
  | .tsx =>
    { extensions := [".tsx"]
      grammarPackage := "tree-sitter-typescript"
      grammarModule := "tree_sitter_typescript"
      grammarEntry := "language_tsx" }

/-- The language with a name. -/
def ofId? (s : String) : Option Language :=
  all.find? fun l => l.id == s

/-- The language that a name or an alias stands for. Blanks around it and the case of its letters
do not matter; names and aliases are ASCII, so only ASCII capitals are made small. -/
def ofName? (name : String) : Option Language :=
  let key := Text.lowerAscii (Text.strip name)
  (ofId? key).orElse fun _ => all.find? fun l => l.definition.aliases.contains key

/-- The language that claims the extension of a path. Extensions are ASCII. -/
def ofPath? (p : Path) : Option Language :=
  let extension := Text.lowerAscii p.suffix
  all.find? fun l => l.definition.extensions.contains extension

/-- Languages in the order of their names. -/
def sorted (ls : List Language) : List Language :=
  ls.mergeSort fun a b => a.id ≤ b.id

/-- Every language, in the order of the names. -/
def supported : List Language := sorted all

end Language

end ScopeMetrics
