import ScopeMetrics.Category

/-!
# Events

What the metrics of a space are told of a node: its category, and what the collectors need besides
it.
-/

namespace ScopeMetrics

/-- One classified node, as the space that it belongs to sees it. -/
structure Event where
  kind : String
  category : Category
  /-- The text of a counted token or of a declared method. -/
  text : String := ""
  startLine : Int := 0
  endLine : Int := 0
  /-- How many nesting constructs of the same space the node stands in. -/
  nesting : Int := 0
  /-- Whether a logical operator opens a new sequence of operators. -/
  sequence : Bool := true
  /-- The number of parameters, where a function or closure opens its space. -/
  arity : Option Int := none
  /-- The visibility of a method or attribute, where a class hears of it. -/
  visible : Option Bool := none

namespace Event

def has (e : Event) (f : Flag) : Bool := e.category.has f

/-- Whether a callable opens its own space. -/
def opensCallable (e : Event) : Bool :=
  e.arity.isSome && e.category.meets .callable

/-- Whether a class opens its own space. -/
def opensClass (e : Event) : Bool :=
  e.has .class_ && e.visible.isNone

end Event

end ScopeMetrics
