import ScopeMetrics.Tree.Node

/-!
# Places

A place is a node together with what surrounds it: for each ancestor its label, the siblings
before and the siblings after.  Equal subtrees at two places are told apart by what surrounds
them, so the parent and the neighbours of a node are questions to its place and not to the node.
-/

namespace ScopeMetrics

/-- What surrounds a node below one ancestor: the ancestor's label, and the siblings before
(nearest first) and after. -/
structure Crumb where
  label : Label
  before : List Node
  after : List Node
  deriving Inhabited

/-- A node in its surroundings, the nearest ancestor first. -/
structure Place where
  node : Node
  above : List Crumb
  deriving Inhabited

namespace Place

/-- The root of a tree. -/
def root (n : Node) : Place := ⟨n, []⟩

def kind (p : Place) : String := p.node.kind
def named (p : Place) : Bool := p.node.named

/-- The label of the parent. -/
def parentLabel? (p : Place) : Option Label := p.above.head?.map Crumb.label

/-- The parent, in its own surroundings. -/
def parent? (p : Place) : Option Place :=
  match p.above with
  | [] => none
  | c :: above => some ⟨.mk c.label (c.before.reverse ++ p.node :: c.after), above⟩

/-- The sibling right before. -/
def prev? (p : Place) : Option Node := p.above.head?.bind fun c => c.before.head?

/-- The siblings after, nearest first. -/
def following (p : Place) : List Node := (p.above.head?.map Crumb.after).getD []

/-- The sibling right after. -/
def next? (p : Place) : Option Node := p.following.head?

end Place

namespace Node

mutual

/-- The places of a tree in preorder, when `above` surrounds the root. -/
def placesFrom (above : List Crumb) : Node → List Place
  | .mk l cs => ⟨.mk l cs, above⟩ :: placesAll l above [] cs

/-- The places below the children that are left, when `before` holds those passed. -/
def placesAll (l : Label) (above : List Crumb) (before : List Node) : List Node → List Place
  | [] => []
  | c :: cs => placesFrom (⟨l, before, cs⟩ :: above) c ++ placesAll l above (c :: before) cs

end

/-- The places of a tree in preorder. -/
def places (n : Node) : List Place := n.placesFrom []

end Node

end ScopeMetrics
