import Mathlib.Data.List.Basic
import ScopeMetrics.Tree.Place

/-!
# Above and below a place

A place has the children of its node as places of their own, so a tree is its root and the trees
at the children (`subtree_eq`), and what holds of a place when it holds of its children holds of
every place (`Place.induct`).

* `ancestors_of_mem_children`: above a child are its parent and what is above the parent.
* `exists_ancestors_of_mem_descendants`: above a place that is below `p` are places below `p`,
  then `p`, then what is above `p`.
* `address`: places of one tree are told apart by how many siblings are before them and before
  each ancestor; what is below a place has an address that ends in the place's.
-/

namespace ScopeMetrics.Place

/-! ### Above -/

/-- The places above a node that stands under the given crumbs, the nearest first. -/
def ancestorsOf : Node → List Crumb → List Place
  | _, [] => []
  | n, c :: above =>
    let parent : Node := .mk c.label (c.before.reverse ++ n :: c.after)
    ⟨parent, above⟩ :: ancestorsOf parent above

/-- The places above a place, the nearest first. -/
def ancestors (p : Place) : List Place := ancestorsOf p.node p.above

/-- Where a place is in its tree: how many siblings are before it, and before each ancestor. -/
def address (p : Place) : List Nat := p.above.map fun c => c.before.length

/-- An ancestor has a shorter address, with which the place's ends. -/
theorem address_of_mem_ancestorsOf {q : Place} :
    ∀ {above : List Crumb} {n : Node}, q ∈ ancestorsOf n above →
      q.address.length < above.length ∧ q.address <:+ above.map fun c => c.before.length
  | c :: above, n, h => by
      rcases List.mem_cons.mp h with rfl | h
      · exact ⟨by simp [address], List.suffix_cons _ _⟩
      · obtain ⟨hlen, hsuf⟩ := address_of_mem_ancestorsOf h
        exact ⟨Nat.lt_succ_of_lt hlen, hsuf.trans (List.suffix_cons _ _)⟩

theorem length_address_of_mem_ancestors {p q : Place} (h : q ∈ p.ancestors) :
    q.address.length < p.address.length := by
  simpa [address] using (address_of_mem_ancestorsOf h).1

theorem address_suffix_of_mem_ancestors {p q : Place} (h : q ∈ p.ancestors) :
    q.address <:+ p.address :=
  (address_of_mem_ancestorsOf h).2

/-- Above an ancestor is what is above the place from there on. -/
theorem ancestors_suffix_of_mem_ancestorsOf {a : Place} :
    ∀ {above : List Crumb} {n : Node}, a ∈ ancestorsOf n above →
      a :: a.ancestors <:+ ancestorsOf n above
  | c :: above, n, h => by
      rcases List.mem_cons.mp h with rfl | h
      · exact List.suffix_rfl
      · exact (ancestors_suffix_of_mem_ancestorsOf h).trans (List.suffix_cons _ _)

theorem ancestors_suffix_of_mem_ancestors {p a : Place} (h : a ∈ p.ancestors) :
    a :: a.ancestors <:+ p.ancestors :=
  ancestors_suffix_of_mem_ancestorsOf h

theorem not_isLeaf_of_mem_ancestorsOf {a : Place} :
    ∀ {above : List Crumb} {n : Node}, a ∈ ancestorsOf n above → a.node.isLeaf = false
  | c :: above, n, h => by
      rcases List.mem_cons.mp h with rfl | h
      · simp [Node.isLeaf, Node.children]
      · exact not_isLeaf_of_mem_ancestorsOf h

/-- What is above a place is no leaf. -/
theorem not_isLeaf_of_mem_ancestors {p a : Place} (h : a ∈ p.ancestors) : a.node.isLeaf = false :=
  not_isLeaf_of_mem_ancestorsOf h

theorem pairwise_ancestorsOf : ∀ (above : List Crumb) (n : Node),
    (ancestorsOf n above).Pairwise fun q a => a ∈ q.ancestors
  | [], _ => .nil
  | _ :: above, _ => List.pairwise_cons.mpr ⟨fun _ h => h, pairwise_ancestorsOf above _⟩

/-- From a place upwards, each is above those before it. -/
theorem pairwise_ancestors (p : Place) :
    (p :: p.ancestors).Pairwise fun q a => a ∈ q.ancestors :=
  List.pairwise_cons.mpr ⟨fun _ h => h, pairwise_ancestorsOf _ _⟩

/-! ### Below -/

/-- The places of the children that are left, when `before` holds those passed. -/
def childrenFrom (l : Label) (above : List Crumb) (before : List Node) : List Node → List Place
  | [] => []
  | c :: cs => ⟨c, ⟨l, before, cs⟩ :: above⟩ :: childrenFrom l above (c :: before) cs

/-- The places right below a place, in order. -/
def children (p : Place) : List Place := childrenFrom p.node.label p.above [] p.node.children

/-- A place and all places below it, in preorder. -/
def subtree (p : Place) : List Place := p.node.placesFrom p.above

/-- The places below a place, in preorder. -/
def descendants (p : Place) : List Place := p.children.flatMap subtree

theorem placesAll_eq (l : Label) (above : List Crumb) :
    ∀ (cs before : List Node),
      Node.placesAll l above before cs = (childrenFrom l above before cs).flatMap subtree
  | [], _ => by rw [Node.placesAll]; rfl
  | c :: cs, before => by
      rw [Node.placesAll, childrenFrom, List.flatMap_cons, placesAll_eq l above cs]
      rfl

theorem subtree_eq (p : Place) : p.subtree = p :: p.descendants := by
  obtain ⟨⟨l, cs⟩, above⟩ := p
  rw [subtree, Node.placesFrom, placesAll_eq]
  rfl

theorem mem_subtree {p q : Place} : q ∈ p.subtree ↔ q = p ∨ q ∈ p.descendants := by
  rw [subtree_eq, List.mem_cons]

theorem self_mem_subtree (p : Place) : p ∈ p.subtree := mem_subtree.mpr (.inl rfl)

theorem mem_descendants {p q : Place} : q ∈ p.descendants ↔ ∃ c ∈ p.children, q ∈ c.subtree := by
  rw [descendants, List.mem_flatMap]

/-- What holds of the children, each with those before and after it, holds of the places of the
children. -/
theorem forall_mem_childrenFrom {motive : Place → Prop} {l : Label} {above : List Crumb} :
    ∀ (cs before : List Node),
      (∀ pre c post, before.reverse ++ cs = pre ++ c :: post → before.length ≤ pre.length →
        motive ⟨c, ⟨l, pre.reverse, post⟩ :: above⟩) →
      ∀ q ∈ childrenFrom l above before cs, motive q
  | [], _, _, q, hq => by cases hq
  | c :: cs, before, h, q, hq => by
      rcases List.mem_cons.mp hq with rfl | hq
      · simpa using h before.reverse c cs rfl (by simp)
      · refine forall_mem_childrenFrom cs (c :: before) (fun pre d post e hlen => ?_) q hq
        refine h pre d post ?_ (Nat.le_of_succ_le hlen)
        rw [← e, List.reverse_cons, List.append_assoc, List.singleton_append]

/-- The children of a place are the children of its node, each with those before and after it. -/
theorem forall_mem_children {motive : Place → Prop} {p : Place}
    (h : ∀ pre c post, p.node.children = pre ++ c :: post →
      motive ⟨c, ⟨p.node.label, pre.reverse, post⟩ :: p.above⟩) :
    ∀ q ∈ p.children, motive q :=
  forall_mem_childrenFrom _ _ fun pre c post e _ => h pre c post e

theorem map_node_childrenFrom (l : Label) (above : List Crumb) :
    ∀ cs before : List Node, (childrenFrom l above before cs).map node = cs
  | [], _ => rfl
  | c :: cs, before => by rw [childrenFrom, List.map_cons, map_node_childrenFrom l above cs]

theorem map_node_children (p : Place) : p.children.map node = p.node.children :=
  map_node_childrenFrom _ _ _ _

theorem ancestors_of_mem_children {p q : Place} (h : q ∈ p.children) :
    q.ancestors = p :: p.ancestors := by
  refine forall_mem_children (motive := fun q => q.ancestors = p :: p.ancestors)
    (fun pre c post e => ?_) q h
  obtain ⟨⟨l, cs⟩, above⟩ := p
  have e' : cs = pre ++ c :: post := e
  simp [ancestors, ancestorsOf, Node.label, e']

theorem size_lt_of_mem_children {p q : Place} (h : q ∈ p.children) : q.node.size < p.node.size := by
  refine forall_mem_children (motive := fun q => q.node.size < p.node.size)
    (fun pre c post e => Node.size_lt_of_mem ?_) q h
  rw [e]
  simp

/-- What holds of a place when it holds of its children holds of every place. -/
theorem induct {motive : Place → Prop} (h : ∀ p, (∀ q ∈ p.children, motive q) → motive p)
    (p : Place) : motive p :=
  h p fun q _hq => induct h q
termination_by p.node.size
decreasing_by exact size_lt_of_mem_children _hq

/-- Above a place that is below `p` are places below `p`, then `p`, then what is above `p`. -/
theorem exists_ancestors_of_mem_descendants {p : Place} :
    ∀ q ∈ p.descendants, ∃ inner : List Place,
      q.ancestors = inner ++ p :: p.ancestors ∧ ∀ a ∈ inner, a ∈ p.descendants := by
  induction p using induct with
  | h p ih =>
      intro q hq
      obtain ⟨c, hc, hqc⟩ := mem_descendants.mp hq
      have below : ∀ a ∈ c.subtree, a ∈ p.descendants := fun a ha => mem_descendants.mpr ⟨c, hc, ha⟩
      rcases mem_subtree.mp hqc with rfl | hqc
      · exact ⟨[], by rw [ancestors_of_mem_children hc, List.nil_append], by simp⟩
      · obtain ⟨inner, hin, hall⟩ := ih c hc q hqc
        refine ⟨inner ++ [c], ?_, fun a ha => ?_⟩
        · rw [hin, ancestors_of_mem_children hc, List.append_assoc, List.singleton_append]
        · rcases List.mem_append.mp ha with ha | ha
          · exact below a (mem_subtree.mpr (.inr (hall a ha)))
          · rw [List.mem_singleton] at ha
            exact below a (ha ▸ self_mem_subtree c)

theorem mem_ancestors_of_mem_descendants {p q : Place} (h : q ∈ p.descendants) :
    p ∈ q.ancestors := by
  obtain ⟨inner, hin, -⟩ := exists_ancestors_of_mem_descendants q h
  rw [hin]
  exact List.mem_append_right _ List.mem_cons_self

/-- What is above a place of a tree is in the tree. -/
theorem mem_places_of_mem_ancestors {root : Node} {p a : Place} (hp : p ∈ root.places)
    (ha : a ∈ p.ancestors) : a ∈ root.places := by
  rcases (mem_subtree (p := .root root)).mp hp with rfl | hp
  · cases ha
  · obtain ⟨inner, hin, hall⟩ := exists_ancestors_of_mem_descendants p hp
    rw [hin] at ha
    refine (mem_subtree (p := .root root)).mpr ?_
    rcases List.mem_append.mp ha with ha | ha
    · exact .inr (hall a ha)
    · exact .inl (List.mem_singleton.mp ha)

theorem address_suffix_of_mem_subtree {p q : Place} (h : q ∈ p.subtree) :
    p.address <:+ q.address := by
  rcases mem_subtree.mp h with rfl | h
  · exact List.suffix_rfl
  · exact address_suffix_of_mem_ancestors (mem_ancestors_of_mem_descendants h)

/-! ### Different children -/

theorem address_of_mem_childrenFrom {l : Label} {above : List Crumb} {q : Place}
    (cs before : List Node) (h : q ∈ childrenFrom l above before cs) :
    ∃ k, before.length ≤ k ∧ q.address = k :: above.map fun c => c.before.length := by
  refine forall_mem_childrenFrom (motive := fun q => ∃ k, before.length ≤ k ∧
    q.address = k :: above.map fun c => c.before.length) cs before (fun pre c post _ hlen => ?_) q h
  exact ⟨pre.length, hlen, by simp [address]⟩

theorem length_address_of_mem_children {p q : Place} (h : q ∈ p.children) :
    q.address.length = p.address.length + 1 := by
  obtain ⟨k, -, hk⟩ := address_of_mem_childrenFrom _ _ h
  rw [hk, List.length_cons]
  rfl

theorem pairwise_address_childrenFrom (l : Label) (above : List Crumb) :
    ∀ cs before : List Node,
      (childrenFrom l above before cs).Pairwise fun p q => p.address ≠ q.address
  | [], _ => .nil
  | c :: cs, before => by
      refine List.pairwise_cons.mpr ⟨fun q hq he => ?_, pairwise_address_childrenFrom l above cs _⟩
      obtain ⟨k, hk, hq⟩ := address_of_mem_childrenFrom _ _ hq
      rw [hq] at he
      have : before.length = k := (List.cons.inj he).1
      rw [List.length_cons] at hk
      omega

/-- Two children of a place have different addresses. -/
theorem pairwise_address_children (p : Place) :
    p.children.Pairwise fun q q' => q.address ≠ q'.address :=
  pairwise_address_childrenFrom _ _ _ _

/-- Two places of a tree have different addresses. -/
theorem pairwise_address_subtree (p : Place) :
    p.subtree.Pairwise fun q q' => q.address ≠ q'.address := by
  induction p using induct with
  | h p ih =>
      rw [subtree_eq, List.pairwise_cons, descendants, List.pairwise_flatMap]
      refine ⟨fun q hq he => ?_, ih, ?_⟩
      · have := length_address_of_mem_ancestors (mem_ancestors_of_mem_descendants hq)
        rw [he] at this
        exact absurd this (Nat.lt_irrefl _)
      · refine (pairwise_address_children p).imp_of_mem fun hc hd hne q hq q' hq' he => hne ?_
        have hlen : _ = _ :=
          (length_address_of_mem_children hc).trans (length_address_of_mem_children hd).symm
        have hsuf := address_suffix_of_mem_subtree hq
        rw [he] at hsuf
        exact (List.suffix_of_suffix_length_le hsuf (address_suffix_of_mem_subtree hq')
          (Nat.le_of_eq hlen)).eq_of_length hlen

end ScopeMetrics.Place
