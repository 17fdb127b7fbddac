import ScopeMetrics.Metric.Complexity
import ScopeMetrics.Metric.Counts
import ScopeMetrics.Metric.Halstead
import ScopeMetrics.Metric.Maintainability

/-!
# Bundles

Every metric of one space, or of several combined.  The maintainability index is derived from the
others and never combined: a combined bundle keeps the index of its left part until it is derived
again.
-/

namespace ScopeMetrics

/-- Every metric of one space, or of several spaces together. -/
structure Bundle where
  cyclomatic : Cyclomatic := {}
  cognitive : Cognitive := {}
  halstead : Halstead := {}
  abc : Abc := {}
  loc : Loc := {}
  methods : Methods := {}
  arguments : Arguments := {}
  exits : Exits := {}
  publicMethods : Members := {}
  publicAttributes : Members := {}
  weighted : Weighted := {}
  /-- The index, or why it has no value. -/
  maintainability : Except Arithmetic.Fault Maintainability := .ok {}

namespace Bundle

/-- Whether two bundles have the same metrics, indexes compared as numbers. -/
def agrees (a b : Bundle) : Bool :=
  a.cyclomatic = b.cyclomatic && a.cognitive = b.cognitive && a.halstead = b.halstead &&
    a.abc = b.abc && a.loc = b.loc && a.methods = b.methods && a.arguments = b.arguments &&
    a.exits = b.exits && a.publicMethods = b.publicMethods &&
    a.publicAttributes = b.publicAttributes && a.weighted = b.weighted &&
    match a.maintainability, b.maintainability with
    | .ok x, .ok y => x == y
    | .error x, .error y => x = y
    | _, _ => false

/-- The bundle of both parts together, its index not yet derived. -/
def combine (a b : Bundle) : Bundle where
  cyclomatic := a.cyclomatic.combine b.cyclomatic
  cognitive := a.cognitive.combine b.cognitive
  halstead := a.halstead.combine b.halstead
  abc := a.abc.combine b.abc
  loc := a.loc.combine b.loc
  methods := a.methods.combine b.methods
  arguments := a.arguments.combine b.arguments
  exits := a.exits.combine b.exits
  publicMethods := a.publicMethods.combine b.publicMethods
  publicAttributes := a.publicAttributes.combine b.publicAttributes
  weighted := a.weighted.combine b.weighted
  maintainability := a.maintainability

/-- The index that the other metrics of a bundle give. -/
def index (b : Bundle) : Except Arithmetic.Fault Maintainability := do
  let volume ← b.halstead.volume
  let cyclomatic ← Arithmetic.ofInt b.cyclomatic.sum
  Maintainability.compute volume cyclomatic b.loc.sloc b.loc.cloc

/-- The bundle with its index derived. -/
def derive (b : Bundle) : Bundle := { b with maintainability := b.index }

/-- The metrics as plain data, family by family. -/
def toValue (b : Bundle) : Except Arithmetic.Fault Value := do
  let maintainability ← b.maintainability
  return .map [
    ("cyclomatic", .map (← b.cyclomatic.entries)),
    ("cognitive", .map (← b.cognitive.entries)),
    ("halstead", .map (← b.halstead.entries)),
    ("abc", .map (← b.abc.entries)),
    ("loc", .map b.loc.entries),
    ("nom", .map b.methods.entries),
    ("nargs", .map (← b.arguments.entries)),
    ("nexits", .map (← b.exits.entries)),
    ("npm", .map (← b.publicMethods.entries "coa")),
    ("npa", .map (← b.publicAttributes.entries "cda")),
    ("wmc", .map (← b.weighted.entries)),
    ("mi", .map maintainability.entries)]

end Bundle

end ScopeMetrics
