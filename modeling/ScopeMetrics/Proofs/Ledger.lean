import ScopeMetrics.Proofs.Census
import ScopeMetrics.Proofs.Tokens

/-!
# What a node adds to its frame

The score and the decisions of a frame are sums over the places that belong to it, and what a
place adds depends on its own category, on its nesting and on nothing else.

* `has_nesting_classify`, `has_else_classify`, `has_decision_classify`, `has_logical_classify`: what
  the rules leave of the flags of control flow.
* `score_at`, `decisions_at`: what a place adds.
* **`part_bodyAround`**: what the places of a frame add up to is what the walk has tallied.
* `Adds`: some places of a frame, with their share of it.
-/

namespace ScopeMetrics

/-- A named node of some kind that the parser could read. -/
structure Node.Is (n : Node) (kind : String) : Prop where
  named : n.named = true
  kind_eq : n.kind = kind
  isError : n.isError = false

namespace Reading

variable {r : Reading} {root : Node} {p q : Place}

/-! ### Flags of control flow -/

theorem flags_of_is {lang : Language} (hr : r.pack = lang.pack) {n : Node} {kind : String}
    (h : n.Is kind) : r.flags n = Group.flagsOf lang.pack.kinds kind := by
  have hn : n.label.named = true := h.named
  have hk : n.label.kind = kind := h.kind_eq
  rw [flags, hr, Pack.flags, hn, hk]
  rfl

theorem classify_eq_of_isEntered (hi : r.isEntered p = true) :
    r.classify p = r.laterRules p (r.tokenRule p.node (r.flags p.node)) :=
  classify_eq_laterRules (isError_of_isEntered hi) (not_comment_of_isEntered hi)

/-- Before the rule for chains a flag of control flow is as the tables have it. -/
theorem has_bodyRule_tokenRule {f : Flag} (hscope : Category.scope.has f = false)
    (htoken : Category.token.has f = false) :
    (r.bodyRule p (r.tokenRule p.node (r.flags p.node))).has f = (r.flags p.node).has f := by
  rw [bodyRule, Category.has_ite_diff_of_not hscope, has_tokenRule_of_not htoken]

/-- An if that continues a chain does not nest. -/
theorem has_nesting_classify (hi : r.isEntered p = true) : (r.classify p).has .nesting =
    ((r.flags p.node).has .nesting && !((r.flags p.node).has .branch && r.continuesChain p)) := by
  rw [classify_eq_of_isEntered hi, has_laterRules (by decide), elseRule,
    Category.has_ite_diff_of_not (by decide), has_chainRule_eq, has_bodyRule_tokenRule rfl rfl,
    has_bodyRule_tokenRule rfl rfl]
  cases (r.flags p.node).has .nesting <;> cases (r.flags p.node).has .branch <;>
    cases r.continuesChain p <;> rfl

/-- An if that continues a chain scores flat, and so does an `else` token that scores. -/
theorem has_else_classify (hi : r.isEntered p = true) : (r.classify p).has .else_ =
    (((r.flags p.node).has .else_ ||
        (r.flags p.node).has .branch && (r.flags p.node).has .nesting && r.continuesChain p) &&
      (p.named || r.elseScores p)) := by
  have helse : ∀ c : Category, (r.elseRule p c).has .else_ =
      (c.has .else_ && (p.named || r.elseScores p)) := by
    intro c
    rw [elseRule]
    cases hc : c.has .else_ <;> cases p.named <;> cases r.elseScores p <;> simp [hc]
  rw [classify_eq_of_isEntered hi, has_laterRules (by decide), helse, has_chainRule_eq,
    has_bodyRule_tokenRule rfl rfl, has_bodyRule_tokenRule rfl rfl, has_bodyRule_tokenRule rfl rfl]
  congr 1
  cases (r.flags p.node).has .branch && (r.flags p.node).has .nesting && r.continuesChain p <;> simp

/-- No rule is about the flag of a logical operator. -/
theorem has_logical_classify (hi : r.isEntered p = true) :
    (r.classify p).has .logical = (r.flags p.node).has .logical := by
  rw [classify_eq_of_isEntered hi, has_laterRules (by decide), elseRule,
    Category.has_ite_diff_of_not (by decide), has_chainRule_of_ne (by decide) (by decide),
    has_bodyRule_tokenRule rfl rfl]

/-- A decision stays one unless it is a default label or a wildcard arm. -/
theorem has_decision_classify (hi : r.isEntered p = true) : (r.classify p).has .decision =
    ((r.flags p.node).has .decision &&
      !(r.pack.defaultLabels.contains p.kind && isDefaultLabel p.node) &&
      !(r.pack.wildcardArms.contains p.kind && r.isWildcardArm p.node)) := by
  have hlabel : ∀ c, (r.defaultLabelRule p c).has .decision =
      (c.has .decision && !(r.pack.defaultLabels.contains p.kind && isDefaultLabel p.node)) := by
    intro c
    rw [defaultLabelRule]
    cases hc : c.has .decision <;> cases r.pack.defaultLabels.contains p.kind <;>
      cases isDefaultLabel p.node <;> simp [hc]
  have hwildcard : ∀ c, (r.wildcardRule p c).has .decision =
      (c.has .decision && !(r.pack.wildcardArms.contains p.kind && r.isWildcardArm p.node)) := by
    intro c
    rw [wildcardRule]
    cases hc : c.has .decision <;> cases r.pack.wildcardArms.contains p.kind <;>
      cases r.isWildcardArm p.node <;> simp [hc]
  rw [classify_eq_of_isEntered hi, laterRules, attributeRule,
    Category.has_ite_diff_of_not (by decide), exitRule, Category.has_ite_diff_of_not (by decide),
    assignmentRule, Category.has_ite_diff_of_not (by decide), hwildcard, hlabel, defaultTokenRule,
    Category.has_ite_diff_of_not (by decide), comparisonRule,
    Category.has_ite_diff_of_not (by decide), elseRule, Category.has_ite_diff_of_not (by decide),
    has_chainRule_of_ne (by decide) (by decide), has_bodyRule_tokenRule rfl rfl]

end Reading

/-- Below a place of a tree are places of the tree, in the same order. -/
theorem Place.subtree_sublist {p q : Place} : p ∈ q.subtree → p.subtree.Sublist q.subtree := by
  induction q using Place.induct with
  | h q ih =>
      intro hp
      rcases mem_subtree.mp hp with rfl | hp
      · exact .refl _
      · obtain ⟨c, hc, hpc⟩ := mem_descendants.mp hp
        have hflat : c.subtree.Sublist (q.children.map subtree).flatten :=
          List.sublist_flatten_of_mem (List.mem_map_of_mem hc)
        rw [subtree_eq q]
        exact ((ih c hc hpc).trans hflat).cons _

/-! ### The share of a place -/

namespace Tally

/-- A part of a tally that adds up over events, to which the opening of a scope adds nothing and
for which the visibility of members does not matter. -/
structure Additive (part : Tally → Int) : Prop where
  empty : part {} = 0
  merge : ∀ a b, part (a.merge b) = part a + part b
  opening : ∀ (r : Reading) n c, part (ofEvent (r.openingEvent n c)) = 0
  visible : ∀ e e' : Event, { e with visible := none } = { e' with visible := none } →
    part (ofEvent e) = part (ofEvent e')

theorem additive_score : Additive (·.score) where
  empty := rfl
  merge _ _ := rfl
  opening r n c := by simp [ofEvent, scoreOf, Event.has, Reading.openingEvent, Category.scope, one]
  visible e e' h := by
    have := congrArg (fun e : Event => (ofEvent e).score) h
    exact this

theorem additive_decisions : Additive (·.decisions) where
  empty := rfl
  merge _ _ := rfl
  opening r n c := by simp [ofEvent, Event.has, Reading.openingEvent, Category.scope, one]
  visible e e' h := by
    have := congrArg (fun e : Event => (ofEvent e).decisions) h
    exact this

namespace Additive

variable {part : Tally → Int}

theorem append (h : Additive part) (es fs : List Event) :
    part (.ofEvents (es ++ fs)) = part (.ofEvents es) + part (.ofEvents fs) := by
  rw [part_ofEvents part h.empty h.merge, part_ofEvents part h.empty h.merge,
    part_ofEvents part h.empty h.merge, sumOf_append]

theorem singleton (h : Additive part) (e : Event) : part (.ofEvents [e]) = part (ofEvent e) := by
  rw [part_ofEvents part h.empty h.merge, sumOf_singleton]

end Additive

end Tally

namespace Reading

variable {r : Reading} {root : Node} {p q : Place} {part : Tally → Int}

/-- What a place adds to a part of the tally of its frame. -/
def partAt (r : Reading) (root : Node) (part : Tally → Int) (p : Place) : Int :=
  part (.ofEvents (r.eventsAt root none p))

/-- What a place adds does not depend on the access of its section. -/
theorem part_eventsAt (h : Tally.Additive part) (access : Option Bool) (p : Place) :
    part (.ofEvents (r.eventsAt root access p)) = r.partAt root part p := by
  rw [partAt, eventsAt, eventsAt]
  split
  · rw [methodEvent, methodEvent]
    split
    · rw [h.singleton, h.singleton]
      exact h.visible _ _ rfl
    · rfl
  · rw [nodeEvent, nodeEvent]
    split
    · rfl
    · rw [h.singleton, h.singleton]
      exact h.visible _ _ rfl

/-- The share of some places of a frame is the sum of their shares. -/
theorem part_eventsAlong (h : Tally.Additive part) : ∀ (ps : List Place) (access : Option Bool),
    part (.ofEvents (r.eventsAlong root access ps)) = sumOf (r.partAt root part) ps
  | [], _ => h.empty
  | p :: ps, access => by
      rw [eventsAlong, h.append, part_eventsAt h, part_eventsAlong h ps, sumOf_cons]

/-- A place that opens no scope scores by its flags and its nesting. -/
theorem score_at (ho : r.opensScope p = false) : r.partAt root (·.score) p =
    if (r.classify p).has .nesting then 1 + (r.surroundingsAt root p).nesting
    else if (r.classify p).has .else_ then 1
    else Tally.one ((r.classify p).has .logical && startsSequence p) := by
  have hflag : ∀ f, Category.token.has f = false →
      (r.categoryAt p).has f = (r.classify p).has f := fun f hf =>
    has_categoryIn (s := r.surroundingsAt root p) hf
  rw [← hflag .nesting rfl, ← hflag .else_ rfl, ← hflag .logical rfl, partAt, eventsAt, if_neg
    (by rw [ho]; exact Bool.false_ne_true), nodeEvent]
  split
  · rename_i hc
    simp only [hc, Category.has_empty]
    rfl
  · rw [Tally.additive_score.singleton]
    simp only [Tally.ofEvent, Tally.scoreOf, Event.has]
    cases (r.categoryAt p).has .logical <;> rfl

/-- A place that opens no scope adds one decision if it has the flag of one. -/
theorem decisions_at (ho : r.opensScope p = false) : r.partAt root (·.decisions) p =
    Tally.one ((r.classify p).has .decision) := by
  have hflag : (r.categoryAt p).has .decision = (r.classify p).has .decision :=
    has_categoryIn (s := r.surroundingsAt root p) rfl
  rw [← hflag, partAt, eventsAt, if_neg (by rw [ho]; exact Bool.false_ne_true), nodeEvent]
  split
  · rename_i hc
    simp only [hc, Category.has_empty]
    rfl
  · rw [Tally.additive_decisions.singleton]
    rfl

/-- A node that has no flag of a scope in the tables opens none. -/
theorem opensScope_of_flags (h : (r.flags p.node).meets .scope = false) :
    r.opensScope p = false := by
  rw [Bool.eq_false_iff]
  intro ho
  rw [meets_scope_flags ho] at h
  cases h

/-- What a node is whose flags are neither those of a comment nor of a scope. -/
theorem isPlain_of_flags (he : p.node.isError = false) (hc : (r.flags p.node).has .comment = false)
    (ho : (r.flags p.node).meets .scope = false) :
    r.isEntered p = true ∧ r.opensScope p = false := by
  refine ⟨?_, opensScope_of_flags ho⟩
  rw [isEntered, he, has_comment_classify he, hc]
  rfl

theorem isPlain_of_flags_eq_empty (hflags : r.flags p.node = ∅) (he : p.node.isError = false) :
    r.isEntered p = true ∧ r.opensScope p = false :=
  isPlain_of_flags he (by rw [hflags]; rfl) (by rw [hflags]; rfl)

/-- A place adds the decision that the tables give it, unless its kind is one of those whose
decision a rule may take away. -/
theorem decisions_of_kind (hplain : r.isEntered p = true ∧ r.opensScope p = false)
    (hkind : (r.pack.defaultLabels ++ r.pack.wildcardArms).contains p.kind = false) :
    r.partAt root (·.decisions) p = Tally.one ((r.flags p.node).has .decision) := by
  rw [List.contains_append, Bool.or_eq_false_iff] at hkind
  rw [decisions_at hplain.2, has_decision_classify hplain.1, hkind.1, hkind.2]
  simp

/-- A node of which the tables say nothing adds neither score nor decisions. -/
theorem partAt_of_flags_eq_empty (hflags : r.flags p.node = ∅) :
    r.partAt root (·.score) p = 0 ∧ r.partAt root (·.decisions) p = 0 := by
  have ho : r.opensScope p = false := opensScope_of_flags (by rw [hflags]; rfl)
  rw [score_at ho, decisions_at ho]
  cases he : p.node.isError with
  | true =>
      rw [classify_of_isError he]
      simp [Tally.one]
  | false =>
      have hi := (isPlain_of_flags_eq_empty hflags he).1
      rw [has_nesting_classify hi, has_else_classify hi, has_logical_classify hi,
        has_decision_classify hi, hflags]
      simp [Tally.one]

/-! ### The places below a place -/

/-- What is told of the frame below a place, after the place itself. -/
theorem cons_sublist_own (hp : r.isReached p = true)
    (hplain : r.isEntered p = true ∧ r.opensScope p = false) {places : List Place}
    (h : places.Sublist (p.children.flatMap r.own)) : (p :: places).Sublist (r.own p) := by
  rw [own_plain hp hplain.1 hplain.2]
  exact h.cons_cons p

theorem singleton_sublist_own (hp : r.isReached p = true) (hi : r.isEntered p = true) :
    [p].Sublist (r.own p) :=
  List.singleton_sublist.mpr (List.mem_filter.mpr
    ⟨p.self_mem_subtree, belongsTo_self hp (isError_of_isEntered hi)⟩)

/-- Places that are read are among what they tell of. -/
theorem sublist_flatMap_own : ∀ {ps : List Place},
    (∀ q ∈ ps, r.isReached q = true ∧ r.isEntered q = true) → ps.Sublist (ps.flatMap r.own)
  | [], _ => .slnil
  | q :: ps, h => by
      obtain ⟨hq, hi⟩ := h q List.mem_cons_self
      rw [List.flatMap_cons]
      exact (singleton_sublist_own hq hi).append
        (sublist_flatMap_own fun c hc => h c (List.mem_cons_of_mem q hc))

/-! ### The sum over a frame -/

/-- The frame that a place belongs to. -/
def bodyAround (r : Reading) (name : Option String) (root : Node) (p : Place) : Frame.Body :=
  ((r.owner? p).map (r.bodyAt root)).getD (r.unitBody name root)

/-- The places that belong to the frame of a place, in preorder. -/
def companions (r : Reading) (root : Node) (p : Place) : List Place :=
  root.places.filter (r.belongsTo (r.ownerAddress p))

/-- **A frame tallies its places.**  What its places add up to is what is in its tally. -/
theorem part_bodyAround (h : Tally.Additive part) (name : Option String) (root : Node) (p : Place) :
    part (r.bodyAround name root p).tally = sumOf (r.partAt root part) (r.companions root p) := by
  rw [bodyAround, companions, ownerAddress]
  cases r.owner? p with
  | none => exact part_eventsAlong h _ _
  | some o =>
      rw [Option.map_some, Option.map_some, Option.getD_some, Frame.Body.tally, bodyAt,
        ← List.singleton_append, h.append, h.singleton, h.opening, part_eventsAlong h, Int.zero_add]

/-- The frame of a reached place is one of the walk's. -/
theorem bodyAround_mem_bodies {lang : Language} (hr : r.pack = lang.pack) (name : Option String)
    (hp : p ∈ root.places) (hreached : r.isReached p = true) :
    r.bodyAround name root p ∈ (r.walk name root).draft.unit.bodies := by
  rw [bodies_eq_routing hr, bodyAround]
  cases howner : r.owner? p with
  | none => exact List.mem_cons_self
  | some o =>
      have ho : o ∈ p.ancestors := List.mem_of_find?_eq_some howner
      have hopens : r.opensScope o = true := List.find?_some howner
      refine List.mem_cons_of_mem _ (List.mem_map_of_mem (List.mem_filter.mpr ⟨?_, ?_⟩))
      · exact Place.mem_places_of_mem_ancestors hp ho
      · rw [opensFrame, (isReached_of_mem_ancestors hreached ho).1, hopens]
        rfl

/-- Places with their share of the frame around `p`: the walk has that frame, its tally is the sum
over the places that belong to it, and the given places are among these and add up to `total`. -/
structure Adds (r : Reading) (name : Option String) (root : Node) (part : Tally → Int) (p : Place)
    (places : List Place) (total : Int) : Prop where
  walked : r.bodyAround name root p ∈ (r.walk name root).draft.unit.bodies
  tallied : part (r.bodyAround name root p).tally = sumOf (r.partAt root part) (r.companions root p)
  among : places.Sublist (r.companions root p)
  share : sumOf (r.partAt root part) places = total

theorem own_sublist_companions (hp : p ∈ root.places) :
    (r.own p).Sublist (r.companions root p) :=
  (Place.subtree_sublist (q := .root root) hp).filter _

theorem adds_of_sublist {lang : Language} (hr : r.pack = lang.pack) (name : Option String)
    (h : Tally.Additive part) (hp : p ∈ root.places) (hreached : r.isReached p = true)
    {places : List Place} {total : Int} (hplaces : places.Sublist (r.own p))
    (htotal : sumOf (r.partAt root part) places = total) :
    r.Adds name root part p places total where
  walked := bodyAround_mem_bodies hr name hp hreached
  tallied := part_bodyAround h name root p
  among := hplaces.trans (own_sublist_companions hp)
  share := htotal

end Reading

end ScopeMetrics
