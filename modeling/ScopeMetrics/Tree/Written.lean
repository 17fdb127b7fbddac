import ScopeMetrics.Tree.Node
import ScopeMetrics.Value

/-!
# Written trees

A syntax tree as plain data: the list of its nodes in preorder, each a list of its depth, its kind,
its marks (1 for a named node, 2 for a missing one, added up), its first byte, the byte after its
last and, if its parent holds it under one, the name of the field.
-/

namespace ScopeMetrics.Node

/-- The field name at the end of a written node. -/
def fieldOf : List Value → Option String
  | .text name :: _ => some name
  | _ => none

/-- A written node. -/
def rowOf? : Value → Option Row
  | .list (.int depth :: .text kind :: .int marks :: .int start :: .int stop :: rest) =>
    some (depth.toNat,
      { kind, named := marks % 2 == 1, missing := marks / 2 % 2 == 1,
        start := start.toNat, stop := stop.toNat, field := fieldOf rest })
  | _ => none

/-- Reads a written tree. -/
def ofValue? : Value → Option Node
  | .list rows => (rows.mapM rowOf?).bind ofRows?
  | _ => none

end ScopeMetrics.Node
