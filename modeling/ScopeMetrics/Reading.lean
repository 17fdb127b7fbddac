import ScopeMetrics.Pack.All
import ScopeMetrics.SortedSet
import ScopeMetrics.Tree.Place
import ScopeMetrics.Tree.Source

/-!
# Readings

A source read in a language: the pack of the language, the bytes, and the names known to be
macros.  Every question about what a node means is a question to a reading.
-/

namespace ScopeMetrics

/-- A source with what is needed to understand its syntax tree. -/
structure Reading where
  pack : Pack
  source : Source
  macros : SortedSet String := ∅

namespace Reading

/-- The text of a node. -/
def text (r : Reading) (n : Node) : String := r.source.text n.label

/-- The flags that the tables alone give to a node. -/
def flags (r : Reading) (n : Node) : Category := r.pack.flags n.label

/-- Whether a node counts as one operand, whatever is inside. -/
def isComposite (r : Reading) (n : Node) : Bool := r.pack.isComposite n.label

/-- Whether a node is the name of a macro. Only C and C++ have them. -/
def isMacro (r : Reading) (n : Node) : Bool :=
  r.pack.language == .cpp && r.macros.contains (r.text n)

end Reading

end ScopeMetrics
