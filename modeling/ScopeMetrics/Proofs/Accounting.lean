import Mathlib.Data.List.Basic
import ScopeMetrics.Analysis
import ScopeMetrics.Proofs.Macros
import ScopeMetrics.Proofs.Stack

/-!
# Two ways to count the nodes of a tree

A parser counts all nodes of its tree and those that it could not read; a walk counts the nodes that
it looks at and the errors among them, and does not enter an error or a comment.  Both go through
the tree with a stack, the parser with the last child on top (`Node.scan`), the walk with the first
one (`Reading.build`).

* `Node.scan_eq`: whatever is on the stack, the parser counts the nodes of every tree there.
* `Reading.accounts_visit`: a visit counts the *reached* places of its subtree, those with no error
  and no comment above them.
* `Reading.exists_reached_error`: the topmost error of a tree is reached, unless it is in a comment.
* **`Reading.accounts_agree`**: so the two accounts of a tree agree.
-/

namespace ScopeMetrics

/-! ### The parser's account -/

/-- How many nodes were met, and how many of them are errors. -/
structure NodeCount where
  nodes : Nat := 0
  errors : Nat := 0
  deriving DecidableEq, Repr

/-- One more node is met. -/
def NodeCount.meet (counted : NodeCount) (n : Node) : NodeCount where
  nodes := counted.nodes + 1
  errors := counted.errors + if n.label.isError then 1 else 0

namespace Node

theorem countAll_append (f : Label → Bool) : ∀ cs ds : List Node,
    countAll f (cs ++ ds) = countAll f cs + countAll f ds
  | [], ds => by rw [countAll, List.nil_append, Nat.zero_add]
  | c :: cs, ds => by
      rw [List.cons_append, countAll, countAll, countAll_append f cs ds, Nat.add_assoc]

theorem countAll_reverse (f : Label → Bool) : ∀ cs : List Node,
    countAll f cs.reverse = countAll f cs
  | [] => rfl
  | c :: cs => by
      rw [List.reverse_cons, countAll_append, countAll_reverse f cs]
      simp only [countAll]
      omega

/-- A node counts for itself and for what is below it. -/
theorem count_eq (f : Label → Bool) (n : Node) :
    n.count f = countAll f n.children + if f n.label then 1 else 0 := by
  obtain ⟨l, cs⟩ := n
  rw [count]
  rfl

mutual

theorem count_true : ∀ n : Node, n.count (fun _ => true) = n.size
  | .mk l cs => by rw [count, size, countAll_true cs, if_pos rfl]

theorem countAll_true : ∀ cs : List Node, countAll (fun _ => true) cs = sizeAll cs
  | [] => by rw [countAll, sizeAll]
  | c :: cs => by rw [countAll, sizeAll, count_true c, countAll_true cs]

end

/-- Counts the nodes of the trees on a stack.  The topmost node is taken and its children are put
in its place, the last one topmost. -/
def scan (counted : NodeCount) : List Node → NodeCount
  | [] => counted
  | n :: stack => scan (counted.meet n) (n.children.reverse ++ stack)
termination_by stack => countAll (fun _ => true) stack
decreasing_by
  rw [countAll_append, countAll_reverse, countAll, count_eq, if_pos rfl]
  omega

/-- **The stack counts every node.**  What is counted and what is left on the stack add up. -/
theorem scan_eq (counted : NodeCount) (stack : List Node) :
    scan counted stack =
      ⟨counted.nodes + countAll (fun _ => true) stack,
        counted.errors + countAll Label.isError stack⟩ := by
  fun_induction scan counted stack with
  | case1 counted => rfl
  | case2 counted n stack ih =>
      rw [ih, NodeCount.mk.injEq]
      simp only [NodeCount.meet, countAll_append, countAll_reverse, countAll, count_eq _ n,
        if_true]
      omega

mutual

/-- A tree has as many places with a label of some sort as it has such nodes. -/
theorem countP_placesFrom (f : Label → Bool) (above : List Crumb) : ∀ n : Node,
    (n.placesFrom above).countP (fun p => f p.node.label) = n.count f
  | .mk l cs => by
      rw [placesFrom, List.countP_cons, countP_placesAll f l above [] cs, count]
      rfl

theorem countP_placesAll (f : Label → Bool) (l : Label) (above : List Crumb) :
    ∀ before cs : List Node,
      (placesAll l above before cs).countP (fun p => f p.node.label) = countAll f cs
  | _, [] => by rw [placesAll, countAll, List.countP_nil]
  | before, c :: cs => by
      rw [placesAll, List.countP_append, countP_placesFrom f _ c,
        countP_placesAll f l above (c :: before) cs, countAll]

end

theorem length_places (n : Node) : n.places.length = n.size := by
  rw [← count_true, ← countP_placesFrom (fun _ => true) [] n]
  exact (congrFun List.countP_true _).symm

theorem countP_isError_places (n : Node) :
    n.places.countP (·.node.isError) = n.count Label.isError :=
  countP_placesFrom Label.isError [] n

end Node

namespace Reading

variable {r : Reading} {p : Place}

/-! ### The walk's account -/

/-- A place is reached when nothing above it is an error or a comment. -/
theorem isReached_iff : r.isReached p = true ↔
    ∀ a ∈ p.ancestors, a.node.isError = false ∧ (r.classify a).has .comment = false := by
  simp only [isReached, List.all_eq_true, isEntered, Bool.and_eq_true, Bool.not_eq_true']

/-- Whether a yield counts the reached places among those given, and the reached errors. -/
structure Accounts (r : Reading) (y : Yield) (ps : List Place) : Prop where
  visited : y.visited = ps.countP r.isReached
  skipped : y.skipped = ps.countP fun p => r.isReached p && p.node.isError

theorem Accounts.andThen {y z : Yield} {ps qs : List Place} (hy : r.Accounts y ps)
    (hz : r.Accounts z qs) : r.Accounts (y.andThen z) (ps ++ qs) where
  visited := by rw [List.countP_append, ← hy.visited, ← hz.visited]; rfl
  skipped := by rw [List.countP_append, ← hy.skipped, ← hz.skipped]; rfl

/-- What is not reached is not counted. -/
theorem accounts_unreached {ps : List Place} (h : ∀ p ∈ ps, r.isReached p = false)
    (access : Option Bool) : r.Accounts { access } ps where
  visited := (List.countP_eq_zero.mpr fun p hp => by simp [h p hp]).symm
  skipped := (List.countP_eq_zero.mpr fun p hp => by simp [h p hp]).symm

/-- A reached place is counted once, whether it is an error or not. -/
theorem Accounts.subtree {y z : Yield} (hy : r.Accounts y p.descendants)
    (hp : r.isReached p = true) (hvisited : z.visited = y.visited + 1)
    (hskipped : z.skipped = y.skipped + if p.node.isError then 1 else 0) :
    r.Accounts z p.subtree where
  visited := by rw [Place.subtree_eq, List.countP_cons, if_pos hp, hvisited, hy.visited]
  skipped := by
    rw [Place.subtree_eq, List.countP_cons, hskipped, hy.skipped, hp, Bool.true_and]

theorem accounts_visitEach {s : Surroundings} : ∀ (ps : List Place) (access : Option Bool),
    (∀ p ∈ ps, ∀ access, r.Accounts (r.visit p.above s access p.node) p.subtree) →
      r.Accounts (r.visitEach s access ps) (ps.flatMap Place.subtree)
  | [], access, _ => accounts_unreached (fun _ hp => absurd hp List.not_mem_nil) access
  | p :: ps, access, h => by
      rw [List.flatMap_cons]
      exact (h p List.mem_cons_self access).andThen
        (accounts_visitEach ps _ fun q hq => h q (List.mem_cons_of_mem p hq))

/-- **A visit accounts for its subtree.**  It counts the reached places and the errors there. -/
theorem accounts_visit : ∀ p : Place, r.isReached p = true →
    ∀ (s : Surroundings) (access : Option Bool),
      r.Accounts (r.visit p.above s access p.node) p.subtree := by
  intro p
  induction p using Place.induct with
  | h p ih =>
      intro hp s access
      have unentered (hi : r.isEntered p = false) : r.Accounts { access } p.descendants :=
        accounts_unreached (fun q hq => not_isReached_of_mem_descendants hi hq) access
      have below (hi : r.isEntered p = true) (s : Surroundings) (access : Option Bool) :
          r.Accounts (r.visitEach s access p.children) p.descendants := by
        refine accounts_visitEach p.children access fun q hq => ih q hq ?_ s
        rw [isReached_of_mem_children hq, hi, hp]
        rfl
      rcases r.place_cases p with he | hc | ho | ⟨hi, ho⟩
      · rw [visit_error he]
        exact (unentered (not_isEntered_of_isError he)).subtree hp rfl (by rw [he]; rfl)
      · rw [visit_comment hc]
        exact (unentered (not_isEntered_of_comment hc)).subtree hp rfl
          (by rw [isError_of_comment hc]; rfl)
      · rw [visit_opener ho]
        exact (below (isEntered_of_opensScope ho) _ _).subtree hp rfl
          (by rw [isError_of_opensScope ho]; rfl)
      · rw [visit_plain hi ho]
        exact (below hi _ _).subtree hp (Nat.add_comm _ _)
          (by rw [isError_of_isEntered hi]; exact Nat.add_comm _ _)

/-- The walk counts the reached places of its tree and the reached errors. -/
theorem accounts_walk (r : Reading) (name : Option String) (root : Node) :
    (r.walk name root).visited = root.places.countP r.isReached ∧
      (r.walk name root).skipped =
        root.places.countP fun p => r.isReached p && p.node.isError :=
  have h := accounts_visit (r := r) (.root root) rfl { kind := .unit, opener := root } none
  ⟨h.visited, h.skipped⟩

/-- An error that is in no comment is reached, or is inside an error that is. -/
theorem exists_reached_error {root : Node}
    (hcomment : ∀ p ∈ root.places, p.node.isError = true →
      ∀ a ∈ p.ancestors, (r.classify a).has .comment = false)
    (p : Place) (hp : p ∈ root.places) (he : p.node.isError = true) :
    ∃ q ∈ root.places, r.isReached q = true ∧ q.node.isError = true := by
  by_cases hr : r.isReached p = true
  · exact ⟨p, hp, hr, he⟩
  rw [isReached, List.all_eq_true] at hr
  obtain ⟨a, hnot⟩ := not_forall.mp hr
  obtain ⟨ha, hi⟩ := Classical.not_imp.mp hnot
  have herror : a.node.isError = true := by
    rw [isEntered, hcomment p hp he a ha, Bool.not_false, Bool.and_true, Bool.not_eq_true',
      Bool.not_eq_false] at hi
    exact hi
  have _hshorter := Place.length_address_of_mem_ancestors ha
  exact exists_reached_error hcomment a (Place.mem_places_of_mem_ancestors hp ha) herror
termination_by p.address.length

/-- The walk skips errors only. -/
theorem skipped_le (r : Reading) (name : Option String) (root : Node) :
    (r.walk name root).skipped ≤ root.places.countP (·.node.isError) := by
  rw [(r.accounts_walk name root).2]
  exact List.countP_mono_left fun p _ hp => (Bool.and_eq_true_iff.mp hp).2

/-- The walk skips an error if there is one at all, unless errors are in comments. -/
theorem skipped_eq_zero_iff (name : Option String) {root : Node}
    (hcomment : ∀ p ∈ root.places, p.node.isError = true →
      ∀ a ∈ p.ancestors, (r.classify a).has .comment = false) :
    (r.walk name root).skipped = 0 ↔ root.places.countP (·.node.isError) = 0 := by
  constructor
  · intro hzero
    rw [(r.accounts_walk name root).2] at hzero
    refine List.countP_eq_zero.mpr fun p hp he => ?_
    obtain ⟨q, hq, hreached, herror⟩ := exists_reached_error hcomment p hp he
    exact List.countP_eq_zero.mp hzero q hq (Bool.and_eq_true_iff.mpr ⟨hreached, herror⟩)
  · intro hzero
    exact Nat.le_zero.mp (hzero ▸ r.skipped_le name root)

/-- **The accounts agree.**  For every reading and every unit whose grammar can be loaded, the unit
is parsed.  The parser counts all nodes of the tree and all errors, as the stack does that meets
the last child first.  The walk and the stack that builds its frames count the nodes above which
there is no error and no comment, and the errors among them.  So neither is more than what the
parser counts, and where no error is in a comment both find an error or neither does. -/
theorem accounts_agree (r : Reading) (name : Option String) (lang : Language) (u : CodeUnit)
    (s : Session) (h : lang ∈ s.grammars ∨ lang ∉ s.uninstalled) :
    let places := u.tree.places
    let reached (p : Place) : Prop :=
      ∀ a ∈ p.ancestors, a.node.isError = false ∧ (r.classify a).has .comment = false
    ∃ parsed s', (Session.parse lang u).run s = (.ok parsed, s') ∧
      parsed.totalNodes = places.length ∧
      parsed.errorCount = places.countP (·.node.isError) ∧
      Node.scan {} [u.tree] = ⟨parsed.totalNodes, parsed.errorCount⟩ ∧
      (∀ p, r.isReached p = true ↔ reached p) ∧
      (r.walk name u.tree).visited = places.countP r.isReached ∧
      (r.walk name u.tree).skipped = places.countP (fun p => r.isReached p && p.node.isError) ∧
      (r.build name u.tree).visited = (r.walk name u.tree).visited ∧
      (r.build name u.tree).skipped = (r.walk name u.tree).skipped ∧
      (r.walk name u.tree).visited ≤ parsed.totalNodes ∧
      (r.walk name u.tree).skipped ≤ parsed.errorCount ∧
      ((∀ p ∈ places, p.node.isError = true →
          ∀ a ∈ p.ancestors, (r.classify a).has .comment = false) →
        ((r.walk name u.tree).skipped = 0 ↔ parsed.errorCount = 0)) := by
  intro places reached
  obtain ⟨s', hparse⟩ := Session.run_parse h u
  obtain ⟨hvisited, hskipped⟩ := r.accounts_walk name u.tree
  obtain ⟨hbuilt, hpassed⟩ := r.counts_build name u.tree
  have hnodes : places.length = u.tree.size := u.tree.length_places
  have herrors : places.countP (·.node.isError) = u.tree.count Label.isError :=
    u.tree.countP_isError_places
  have hscan : Node.scan {} [u.tree] = ⟨u.tree.size, u.tree.count Label.isError⟩ := by
    rw [Node.scan_eq]
    simp only [Node.countAll, Node.count_true, Nat.zero_add, Nat.add_zero]
  refine ⟨_, s', hparse, hnodes.symm, herrors.symm, hscan, fun p => isReached_iff, hvisited,
    hskipped, hbuilt, hpassed, ?_, ?_, fun hcomment => ?_⟩
  · rw [hvisited]
    exact Nat.le_trans List.countP_le_length (Nat.le_of_eq hnodes)
  · exact Nat.le_trans (r.skipped_le name u.tree) (Nat.le_of_eq herrors)
  · rw [skipped_eq_zero_iff name hcomment]
    exact Eq.congr_left herrors

/-- A comment with a node in it, an error with an error in it, and a missing token: the walk does
not look into the first two. -/
theorem accounts_agree_nested :
    let node (kind : String) (start stop : Nat) (cs : List Node) : Node :=
      .mk ⟨kind, true, false, start, stop, none⟩ cs
    let missing : Node := .mk ⟨")", false, true, 9, 9, none⟩ []
    let tree := node "module" 0 9
      [node "comment" 0 3 [node "identifier" 1 2 []],
        node "ERROR" 4 7 [node "identifier" 4 5 [], node "ERROR" 6 7 []],
        node "call" 8 9 [node "identifier" 8 9 [], missing]]
    let u : CodeUnit := ⟨⟨List.replicate 9 120⟩, tree⟩
    let r : Reading := { pack := Language.python.pack, source := u.source }
    let s : Session := {}
    (Language.python ∈ s.grammars ∨ Language.python ∉ s.uninstalled) ∧
      (∀ p ∈ u.tree.places, p.node.isError = true →
        ∀ a ∈ p.ancestors, (r.classify a).has .comment = false) ∧
      (r.walk none u.tree).visited = 6 ∧ (r.walk none u.tree).skipped = 2 ∧
      ∃ parsed s', (Session.parse .python u).run s = (.ok parsed, s') ∧
        parsed.totalNodes = 9 ∧ parsed.errorCount = 3 ∧
        ((r.walk none u.tree).skipped = 0 ↔ parsed.errorCount = 0) := by
  intro node missing tree u r s
  have hs : Language.python ∈ s.grammars ∨ Language.python ∉ s.uninstalled := .inr List.not_mem_nil
  have hcomment : ∀ p ∈ u.tree.places, p.node.isError = true →
      ∀ a ∈ p.ancestors, (r.classify a).has .comment = false := by decide +kernel
  obtain ⟨parsed, s', hparse, hnodes, herrors, -, -, hvisited, hskipped, -, -, -, -, hzero⟩ :=
    accounts_agree r none .python u s hs
  refine ⟨hs, hcomment, hvisited.trans ?_, hskipped.trans ?_, parsed, s', hparse, hnodes.trans ?_,
    herrors.trans ?_, hzero hcomment⟩ <;> decide +kernel

end Reading

end ScopeMetrics
