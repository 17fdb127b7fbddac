import ScopeMetrics.Reading

/-!
# Classification

The category of a node in its place.  The tables of the pack give base flags; a leaf or a
composite becomes a counted token; then each of a few rules may take flags away, because what the
node stands in, stands next to or holds shows that they do not apply.

- An error node has no flag, and a comment has the flag of a comment and no other.
- The rules run in a fixed order, each on what the ones before it left.
-/

namespace ScopeMetrics.Reading

/-! ### Tokens -/

/-- A composite is an operand.  Of the leaves, a named one is an operand, or an operator if it is
a macro; an anonymous one is an operator, unless it is punctuation or covers no byte. -/
def tokenRule (r : Reading) (n : Node) (c : Category) : Category :=
  if r.isComposite n then c ∪ {.operand}
  else if !n.isLeaf then c
  else if n.named then
    if r.isMacro n then c ∪ {.operator} else c ∪ {.operand}
  else if c.meets .punctuation || n.isEmpty then c
  else c ∪ {.operator}

/-! ### Surroundings -/

/-- Whether a node continues a chain of conditions: it stands in the wrapper of an `else`, or right
after the token itself. -/
def continuesChain (r : Reading) (p : Place) : Bool :=
  p.parentLabel?.any (fun l => r.pack.elseContainers.contains l.kind) ||
    p.prev?.any fun n => !n.named && n.kind == "else"

/-- The node that an `else` token belongs to: its parent, or its grandparent if the parent only
wraps the `else`. -/
def governor? (r : Reading) (p : Place) : Option Label :=
  match p.above with
  | [] => none
  | c :: above =>
    if r.pack.elseContainers.contains c.label.kind then above.head?.map Crumb.label
    else some c.label

/-- The first sibling after a place that is no comment. -/
def nextCode? (r : Reading) (p : Place) : Option Node :=
  p.following.find? fun n => !(r.flags n).has .comment

/-- Whether an `else` token scores: it belongs to an if, and no if follows it. -/
def elseScores (r : Reading) (p : Place) : Bool :=
  (r.governor? p).any r.pack.isBranch && !(r.nextCode? p).any fun n => r.pack.isBranch n.label

/-- Whether the parent of a place is of one of the kinds. -/
def isBelow (p : Place) (kinds : List String) : Bool :=
  p.parentLabel?.any fun l => kinds.contains l.kind

/-- Whether a label starts with the default keyword. -/
def isDefaultLabel (n : Node) : Bool :=
  n.children.head?.any fun c => c.kind == "default" || c.kind == "default_switch_label"

/-- The pattern of an arm: the child under that field, or the first named child. -/
def pattern? (n : Node) : Option Node :=
  (n.field? "pattern").orElse fun _ => n.namedChildren.head?

/-- Whether the pattern of an arm is exactly the wildcard. -/
def isWildcardArm (r : Reading) (n : Node) : Bool :=
  (pattern? n).any fun m => Text.strip (r.text m) == "_"

/-- Whether a declarator gives a value. -/
def givesValue (n : Node) : Bool :=
  n.children.any fun c => (!c.named && c.kind == "=") || c.kind == "equals_value_clause"

/-- Whether an exit carries something besides a label. -/
def carriesValue (n : Node) : Bool :=
  n.namedChildren.any fun c => c.kind != "label"

/-- Whether the declarator of a member makes it a method. -/
def declaresMethod (r : Reading) (n : Node) : Bool :=
  (n.field? "declarator").any fun d => r.pack.methodDeclarators.contains d.kind

/-! ### Rules -/

/-- A scope opener that needs a body and has none opens no scope. -/
def bodyRule (r : Reading) (p : Place) (c : Category) : Category :=
  if c.meets .scope && r.pack.requiresBody.contains p.kind && (p.node.field? "body").isNone then
    c \ .scope
  else c

/-- An if that continues a chain scores flat instead of nesting. -/
def chainRule (r : Reading) (p : Place) (c : Category) : Category :=
  if c.has .branch && c.has .nesting && r.continuesChain p then (c \ {.nesting}) ∪ {.else_} else c

/-- An `else` token that does not score loses its flag. -/
def elseRule (r : Reading) (p : Place) (c : Category) : Category :=
  if c.has .else_ && !p.named && !r.elseScores p then c \ {.else_} else c

/-- A comparison token outside a comparison is no condition. -/
def comparisonRule (r : Reading) (p : Place) (c : Category) : Category :=
  if c.has .condition && Pack.comparisonTokens.contains p.kind &&
      !isBelow p r.pack.comparisonParents then
    c \ {.condition}
  else c

/-- A `default` token that is no label of a switch is no condition. -/
def defaultTokenRule (r : Reading) (p : Place) (c : Category) : Category :=
  if c.has .condition && p.kind == "default" && !p.named && !isBelow p r.pack.defaultParents then
    c \ {.condition}
  else c

/-- A default label is no decision. -/
def defaultLabelRule (r : Reading) (p : Place) (c : Category) : Category :=
  if c.has .decision && r.pack.defaultLabels.contains p.kind && isDefaultLabel p.node then
    c \ {.decision}
  else c

/-- A wildcard arm is no decision. -/
def wildcardRule (r : Reading) (p : Place) (c : Category) : Category :=
  if c.has .decision && r.pack.wildcardArms.contains p.kind && r.isWildcardArm p.node then
    c \ {.decision}
  else c

/-- A declarator without a value is no assignment. -/
def assignmentRule (r : Reading) (p : Place) (c : Category) : Category :=
  if c.has .assignment && r.pack.valuedAssignments.contains p.kind && !givesValue p.node then
    c \ {.assignment}
  else c

/-- A break without a value is no exit. -/
def exitRule (r : Reading) (p : Place) (c : Category) : Category :=
  if c.has .exit && r.pack.valuedExits.contains p.kind && !carriesValue p.node then
    c \ {.exit}
  else c

/-- A member declared as a method is no attribute. -/
def attributeRule (r : Reading) (p : Place) (c : Category) : Category :=
  if c.has .attribute && r.declaresMethod p.node then c \ {.attribute} else c

/-- The category of a node in its place. -/
def classify (r : Reading) (p : Place) : Category :=
  if p.node.isError then ∅
  else
    let base := r.flags p.node
    if base.has .comment then {.comment}
    else
      r.tokenRule p.node base |> r.bodyRule p |> r.chainRule p |> r.elseRule p |>
        r.comparisonRule p |> r.defaultTokenRule p |> r.defaultLabelRule p |> r.wildcardRule p |>
        r.assignmentRule p |> r.exitRule p |> r.attributeRule p

/-! ### Sequences of logical operators -/

/-- The left operand of an operator node: the child under that field, or the first named child. -/
def leftOperand? (n : Node) : Option Node :=
  (n.field? "left").orElse fun _ => n.namedChildren.head?

/-- Whether a logical operator opens a new sequence.  It continues one when the left operand is
an operation of the same kind with the same operator. -/
def startsSequence (p : Place) : Bool :=
  match p.parent? with
  | none => true
  | some parent =>
    match leftOperand? parent.node with
    | none => true
    | some left =>
      left.kind != parent.kind || !left.children.any fun c => !c.named && c.kind == p.kind

end ScopeMetrics.Reading
