/-!
# Syntax trees

A syntax tree is what a parser says of a source: nodes with a kind, a range of bytes and children
in order.  A node is named when the grammar has a rule for it and anonymous when it is a bare
token; a parent may hold a child under a field name.  Where the source has no correct reading the
parser puts a node of the kind `ERROR`, or invents a token and marks it missing.

A tree is given as the list of its nodes in preorder, each with its depth (`Node.ofRows?`).
-/

namespace ScopeMetrics

/-- A node without its children. -/
structure Label where
  kind : String
  named : Bool
  missing : Bool
  start : Nat
  stop : Nat
  field : Option String
  deriving DecidableEq, Repr, Inhabited

/-- Whether the parser put the node where it could not read the source. -/
def Label.isError (l : Label) : Bool :=
  l.kind == "ERROR" || l.missing

/-- A node of a syntax tree. -/
inductive Node where
  | mk (label : Label) (children : List Node)
  deriving Repr, Inhabited

namespace Node

def label : Node → Label
  | .mk l _ => l

def children : Node → List Node
  | .mk _ cs => cs

def kind (n : Node) : String := n.label.kind
def named (n : Node) : Bool := n.label.named
def isError (n : Node) : Bool := n.label.isError
def isLeaf (n : Node) : Bool := n.children.isEmpty

/-- Whether the node covers no byte. -/
def isEmpty (n : Node) : Bool := n.label.start == n.label.stop

/-- The children that the grammar has a rule for. -/
def namedChildren (n : Node) : List Node := n.children.filter named

/-- The children under a field name. -/
def fields (n : Node) (name : String) : List Node :=
  n.children.filter fun c => c.label.field == some name

/-- The first child under a field name. -/
def field? (n : Node) (name : String) : Option Node :=
  n.children.find? fun c => c.label.field == some name

/-! ### Counting -/

mutual

/-- The number of nodes of a tree. -/
def size : Node → Nat
  | .mk _ cs => sizeAll cs + 1

def sizeAll : List Node → Nat
  | [] => 0
  | c :: cs => c.size + sizeAll cs

end

mutual

/-- The number of nodes that satisfy `p`. -/
def count (p : Label → Bool) : Node → Nat
  | .mk l cs => countAll p cs + if p l then 1 else 0

def countAll (p : Label → Bool) : List Node → Nat
  | [] => 0
  | c :: cs => c.count p + countAll p cs

end

theorem size_le_sizeAll {c : Node} : ∀ {cs : List Node}, c ∈ cs → c.size ≤ sizeAll cs
  | d :: cs, h => by
    rw [sizeAll]
    rcases List.mem_cons.mp h with rfl | h
    · omega
    · have := size_le_sizeAll h; omega

/-- A child is smaller than its parent. -/
theorem size_lt_of_mem {n c : Node} (h : c ∈ n.children) : c.size < n.size := by
  obtain ⟨l, cs⟩ := n
  have : c.size ≤ sizeAll cs := size_le_sizeAll h
  rw [size]
  omega

theorem mem_of_field? {n c : Node} {name : String} (h : n.field? name = some c) :
    c ∈ n.children :=
  List.mem_of_find?_eq_some h

theorem size_lt_of_field? {n c : Node} {name : String} (h : n.field? name = some c) :
    c.size < n.size :=
  size_lt_of_mem (mem_of_field? h)

/-! ### Preorder -/

/-- A node of a tree written in preorder: its depth and its label. -/
abbrev Row := Nat × Label

/-- The trees at the front of the rows whose roots have the given depth, and the rows after them.
The fuel bounds the number of nodes read. -/
def readForest : Nat → Nat → List Row → List Node × List Row
  | 0, _, rows => ([], rows)
  | _ + 1, _, [] => ([], [])
  | fuel + 1, depth, (d, l) :: rows =>
    if d = depth then
      let (children, rest) := readForest fuel (depth + 1) rows
      let (siblings, rest') := readForest fuel depth rest
      (.mk l children :: siblings, rest')
    else ([], (d, l) :: rows)

/-- The tree that the rows spell: the first one whose root has depth zero. -/
def ofRows? (rows : List Row) : Option Node :=
  (readForest (rows.length + 1) 0 rows).1.head?

mutual

/-- The rows of a tree, its root at the given depth. -/
def rows (depth : Nat) : Node → List Row
  | .mk l cs => (depth, l) :: rowsAll (depth + 1) cs

def rowsAll (depth : Nat) : List Node → List Row
  | [] => []
  | c :: cs => c.rows depth ++ rowsAll depth cs

end

end Node

end ScopeMetrics
