import ScopeMetrics.Category
import ScopeMetrics.Language
import ScopeMetrics.Tree.Node

/-!
# Language packs

What is known of a grammar, as data: the flags of its named kinds and of its tokens, and the kinds
that take part in the rules that look at a node's surroundings.  Nothing outside the packs knows
a grammar's kinds.
-/

namespace ScopeMetrics

/-- How a language tells public members from private ones. -/
inductive Visibility.Style where
  /-- Every member is public. -/
  | open_
  /-- Keywords among the modifiers of the declaration. -/
  | modifiers
  /-- Labelled sections of the class body. -/
  | sections
  /-- A leading underscore marks a private name, unless two underscores stand at both ends. -/
  | underscore
  /-- Some kinds of names are private. -/
  | hash
  /-- An upper-case initial marks a public name. -/
  | capitalized
  deriving DecidableEq, Repr

/-- The visibility rule of a language. -/
structure Visibility where
  style : Visibility.Style := .open_
  modifierKinds : List String := []
  publicKeywords : List String := ["pub", "public"]
  privateKeywords : List String := ["private", "protected"]
  defaultPublic : Bool := true
  publicContainers : List String := []
  privateNameKinds : List String := ["private_property_identifier"]

/-- Kinds that carry the same flags. A kind may be in several groups and then has all their
flags. -/
structure Group where
  flags : Category
  kinds : List String

/-- The flags that groups give to a kind. -/
def Group.flagsOf (groups : List Group) (kind : String) : Category :=
  groups.foldl (fun c g => if g.kinds.contains kind then c ∪ g.flags else c) ∅

/-- The kinds of the groups, each once. -/
def Group.kindsOf (groups : List Group) : List String :=
  (groups.flatMap Group.kinds).eraseDups

/-- The classification data of a language. -/
structure Pack where
  language : Language
  /-- The flags of named kinds. -/
  kinds : List Group
  /-- The flags of tokens. -/
  tokens : List Group
  /-- Named kinds that count as one operand, whatever is inside. -/
  composites : List String := []
  /-- Named children of a parameter list that are no parameters. -/
  nonParameters : List String := []
  /-- Parameters that declare as many names as they hold, and at least one. -/
  multiNameParameters : List String := []
  /-- The field that holds the name, where it is not `name`. -/
  nameFields : List (String × String) := []
  /-- Scope openers that open no scope without a body. -/
  requiresBody : List String := []
  /-- The parents below which a comparison token is a condition. -/
  comparisonParents : List String := ["binary_expression"]
  /-- Assignments that count only if they give a value. -/
  valuedAssignments : List String := []
  /-- Exits that count only if they give a value. -/
  valuedExits : List String := []
  /-- Decisions that do not count if they are the default label. -/
  defaultLabels : List String := []
  /-- Decisions that do not count if their pattern is the wildcard. -/
  wildcardArms : List String := []
  /-- The parents below which the token `default` is a condition. -/
  defaultParents : List String := []
  /-- Declarators that make a member a method and no attribute. -/
  methodDeclarators : List String := []
  /-- The nodes that wrap what follows an `else`. -/
  elseContainers : List String := ["else_clause"]
  visibility : Visibility := {}

namespace Pack

/-- The flags that the tables alone give to a node. -/
def flags (p : Pack) (l : Label) : Category :=
  Group.flagsOf (if l.named then p.kinds else p.tokens) l.kind

/-- Whether a node counts as one operand, whatever is inside. -/
def isComposite (p : Pack) (l : Label) : Bool :=
  l.named && p.composites.contains l.kind

/-- Whether a node is an if-like construct. -/
def isBranch (p : Pack) (l : Label) : Bool :=
  l.named && (p.flags l).has .branch

/-! ### What the packs share -/

def ifFlags : Category := {.branch, .decision, .nesting, .statement}
def loopFlags : Category := {.loop, .decision, .nesting, .statement}
def switchFlags : Category := {.nesting, .statement}
def catchFlags : Category := {.decision, .nesting}
def ternaryFlags : Category := {.decision, .nesting}
def exitFlags : Category := {.exit, .statement}
def logicalFlags : Category := {.logical, .decision}
def elseFlags : Category := {.else_, .condition}

/-- The comparisons that most languages write alike. -/
def comparisons : List Group :=
  [⟨{.condition}, ["==", "!=", "<", ">", "<=", ">="]⟩]

/-- Every token that compares two values in some language. -/
def comparisonTokens : List String :=
  ["==", "!=", "<", ">", "<=", ">=", "===", "!==", "<=>", "<>", "is", "in", "not in", "is not"]

def delimiters : List Group :=
  [⟨{.delimiter}, [")", "]", "\x7d", ","]⟩, ⟨{.terminator}, [";"]⟩]

/-- The tokens of the languages with C-like expressions and statements. -/
def curlyTokens : List Group :=
  delimiters ++ comparisons ++
    [⟨logicalFlags, ["&&", "||"]⟩,
      ⟨elseFlags, ["else"]⟩,
      ⟨{.condition}, ["case", "default", "try", "catch"]⟩]

end Pack

end ScopeMetrics
