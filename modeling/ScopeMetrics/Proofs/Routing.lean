import ScopeMetrics.Proofs.Walk

/-!
# Where the events of a tree go

The walk threads a frame, a nesting and a mark for operands through a tree.  Here the same is said
of each node alone, from the nodes above it:

* a node is *reached* when no node above it is an error or a comment (`isReached`);
* its *owner* is the nearest node above it that opens a scope (`owner?`), and the unit if there is
  none; its nesting counts the nesting constructs below its owner (`nestingUnder`);
* it is part of an operand when a composite is above it (`isInOperand`).

`routing` lists the frames that this gives, in preorder, each with the frames around it: one for
the unit and one for every reached node that opens a scope.  The events of a frame are those of
the reached nodes that it owns, in preorder, after the one by which it opens.

**The walk routes** (`enclosed_walk`).  The frames of a walk, with the frames around each, are the
`routing` of the tree; and `Frame.enclosed_injective` says that such a list has one tree of frames.
-/

namespace ScopeMetrics

namespace Frame

mutual

/-- The bodies of a frame and of all frames inside it in preorder, each with the bodies of the
frames around it, the innermost first. -/
def enclosed (around : List Body) : Frame → List (List Body × Body)
  | .mk b fs => (around, b) :: enclosedAll (b :: around) fs

def enclosedAll (around : List Body) : List Frame → List (List Body × Body)
  | [] => []
  | f :: fs => f.enclosed around ++ enclosedAll around fs

end

theorem enclosedAll_append (around : List Body) : ∀ fs gs : List Frame,
    enclosedAll around (fs ++ gs) = enclosedAll around fs ++ enclosedAll around gs
  | [], _ => by
      rw [enclosedAll]
      rfl
  | f :: fs, gs => by
      rw [List.cons_append, enclosedAll, enclosedAll, enclosedAll_append around fs gs,
        List.append_assoc]

mutual

theorem map_snd_enclosed : ∀ (f : Frame) (around : List Body),
    (f.enclosed around).map Prod.snd = f.bodies
  | .mk b fs, around => by rw [enclosed, List.map_cons, map_snd_enclosedAll fs, bodies]

theorem map_snd_enclosedAll : ∀ (fs : List Frame) (around : List Body),
    (enclosedAll around fs).map Prod.snd = bodiesAll fs
  | [], _ => by rw [enclosedAll, bodiesAll, List.map_nil]
  | f :: fs, around => by
      rw [enclosedAll, List.map_append, map_snd_enclosed f, map_snd_enclosedAll fs, bodiesAll]

end

/-- Frames next to each other have the same frames around them, and those inside them have more. -/
theorem length_le_of_mem_enclosedAll {e : List Body × Body} : ∀ (around : List Body)
    (fs : List Frame), e ∈ enclosedAll around fs → around.length ≤ e.1.length
  | around, .mk b gs :: fs, h => by
      rw [enclosedAll, enclosed, List.cons_append, List.mem_cons, List.mem_append] at h
      rcases h with rfl | h | h
      · exact Nat.le_refl _
      · exact Nat.le_of_succ_le (length_le_of_mem_enclosedAll (b :: around) gs h)
      · exact length_le_of_mem_enclosedAll around fs h

/-- What is inside a frame ends where the number of frames around falls back. -/
theorem takeWhile_enclosedAll (around : List Body) (b : Body) (fs gs : List Frame) :
    ((enclosedAll (b :: around) fs ++ enclosedAll around gs).takeWhile
        fun e => around.length < e.1.length) = enclosedAll (b :: around) fs := by
  have hin : ∀ e ∈ enclosedAll (b :: around) fs, decide (around.length < e.1.length) = true :=
    fun e he => decide_eq_true (length_le_of_mem_enclosedAll _ _ he)
  rw [List.takeWhile_append_of_pos hin]
  cases gs with
  | nil => rw [enclosedAll, List.takeWhile_nil, List.append_nil]
  | cons g gs =>
      obtain ⟨c, inside⟩ := g
      rw [enclosedAll, enclosed, List.cons_append, List.takeWhile_cons_of_neg (by simp),
        List.append_nil]

/-- Frames that enclose the same bodies in the same order are the same. -/
theorem enclosedAll_injective : ∀ {around : List Body} {fs gs : List Frame},
    enclosedAll around fs = enclosedAll around gs → fs = gs
  | _, [], [], _ => rfl
  | _, [], .mk _ _ :: _, h => by simp [enclosedAll, enclosed] at h
  | _, .mk _ _ :: _, [], h => by simp [enclosedAll, enclosed] at h
  | around, .mk b fs :: fs', .mk c gs :: gs', h => by
      rw [enclosedAll, enclosedAll, enclosed, enclosed, List.cons_append, List.cons_append] at h
      obtain ⟨hhead, htail⟩ := List.cons.inj h
      obtain rfl : b = c := (Prod.ext_iff.mp hhead).2
      have hinside : enclosedAll (b :: around) fs = enclosedAll (b :: around) gs := by
        rw [← takeWhile_enclosedAll around b fs fs', htail, takeWhile_enclosedAll]
      rw [hinside] at htail
      rw [enclosedAll_injective hinside, enclosedAll_injective (List.append_cancel_left htail)]

/-- A frame is determined by the bodies inside it, each with those around it. -/
theorem enclosed_injective {around : List Body} {f g : Frame}
    (h : f.enclosed around = g.enclosed around) : f = g := by
  have : enclosedAll around [f] = enclosedAll around [g] := by simp only [enclosedAll, h]
  exact List.head_eq_of_cons_eq (enclosedAll_injective this)

end Frame

namespace Reading

/-- Whether a node is looked at: no error and no comment is above it. -/
def isReached (r : Reading) (p : Place) : Bool := p.ancestors.all r.isEntered

/-- The scope openers above a place, the nearest first. -/
def openers (r : Reading) (p : Place) : List Place := p.ancestors.filter r.opensScope

/-- The nearest of some ancestors that opens a scope. -/
def ownerUnder? (r : Reading) (above : List Place) : Option Place := above.find? r.opensScope

/-- The nearest scope opener above a place. -/
def owner? (r : Reading) (p : Place) : Option Place := r.ownerUnder? p.ancestors

/-- The address of the frame that a place belongs to; `none` for the unit. -/
def ownerAddress (r : Reading) (p : Place) : Option (List Nat) := (r.owner? p).map Place.address

/-- How many of some ancestors are nesting constructs, below the nearest scope opener. -/
def nestingUnder (r : Reading) (above : List Place) : Int :=
  Int.ofNat ((above.takeWhile fun q => !r.opensScope q).countP fun q => (r.classify q).has .nesting)

/-- Whether one of some ancestors counts as one operand. -/
def isInOperand (r : Reading) (above : List Place) : Bool := above.any fun q => r.isComposite q.node

/-- The category with which a node counts: below a composite there are no further tokens. -/
def categoryAt (r : Reading) (p : Place) : Category :=
  if r.isInOperand p.ancestors then r.classify p \ .token else r.classify p

/-- What a node below the given ancestors is told. -/
def surroundingsUnder (r : Reading) (root : Node) (above : List Place) : Surroundings where
  kind := ((r.ownerUnder? above).map fun o => .ofCategory (r.categoryAt o)).getD .unit
  opener := ((r.ownerUnder? above).map Place.node).getD root
  nesting := r.nestingUnder above
  inOperand := r.isInOperand above

/-- What a place is told. -/
def surroundingsAt (r : Reading) (root : Node) (p : Place) : Surroundings :=
  r.surroundingsUnder root p.ancestors

/-- Whether a place belongs to the frame at an address: it is reached, no error, and owned by the
opener there. -/
def belongsTo (r : Reading) (opener : Option (List Nat)) (p : Place) : Bool :=
  r.isReached p && !p.node.isError && r.ownerAddress p == opener

/-- What a place tells its frame.  A scope opener tells a class of a method and otherwise nothing;
any other node with a category gives one event. -/
def eventsAt (r : Reading) (root : Node) (access : Option Bool) (p : Place) : List Event :=
  if r.opensScope p then r.methodEvent (r.surroundingsAt root p) access p.node (r.categoryAt p)
  else r.nodeEvent (r.surroundingsAt root p) access p (r.categoryAt p)

/-- The access after a place of a frame. -/
def accessAt (r : Reading) (root : Node) (access : Option Bool) (p : Place) : Option Bool :=
  r.accessAfter (r.surroundingsAt root p) access p.node

/-- The access after some places of a frame. -/
def accessAlong (r : Reading) (root : Node) (access : Option Bool) (ps : List Place) :
    Option Bool :=
  ps.foldl (r.accessAt root) access

/-- What some places of a frame tell it, each with the access that the places up to it leave. -/
def eventsAlong (r : Reading) (root : Node) : Option Bool → List Place → List Event
  | _, [] => []
  | access, p :: ps =>
    r.eventsAt root (r.accessAt root access p) p ++ r.eventsAlong root (r.accessAt root access p) ps

/-- The access with which the frame of a scope opener starts. -/
def accessOf (r : Reading) (o : Place) : Option Bool :=
  r.startAccess o.node (.ofCategory (r.categoryAt o))

/-- The frame of a scope opener: its scope, and what the places tell it that belong to it, after
the event by which it opens. -/
def bodyAt (r : Reading) (root : Node) (o : Place) : Frame.Body where
  scope := r.scopeOf o.node (r.categoryAt o)
  access := r.accessAlong root (r.accessOf o) (root.places.filter (r.belongsTo (some o.address)))
  events := r.openingEvent o.node (r.categoryAt o) ::
    r.eventsAlong root (r.accessOf o) (root.places.filter (r.belongsTo (some o.address)))

/-- The frame of the unit. -/
def unitBody (r : Reading) (name : Option String) (root : Node) : Frame.Body where
  scope := r.unitScope name root
  events := r.eventsAlong root none (root.places.filter (r.belongsTo none))

/-- Whether a place opens a frame. -/
def opensFrame (r : Reading) (p : Place) : Bool := r.isReached p && r.opensScope p

/-- The frames around a place: those of the openers above it, the nearest first, and the unit. -/
def around (r : Reading) (name : Option String) (root : Node) (p : Place) : List Frame.Body :=
  (r.openers p).map (r.bodyAt root) ++ [r.unitBody name root]

/-- The frame at a place, with the frames around it. -/
def frameAt (r : Reading) (name : Option String) (root : Node) (o : Place) :
    List Frame.Body × Frame.Body :=
  (r.around name root o, r.bodyAt root o)

/-- The frames of a tree in preorder, each with the frames around it. -/
def routing (r : Reading) (name : Option String) (root : Node) :
    List (List Frame.Body × Frame.Body) :=
  ([], r.unitBody name root) :: (root.places.filter r.opensFrame).map (r.frameAt name root)

variable {r : Reading} {root : Node} {p q : Place}

/-! ### The threaded surroundings -/

theorem surroundingsUnder_of_opener (ho : r.opensScope p = true)
    (hc : r.isComposite p.node = false) :
    r.surroundingsUnder root (p :: p.ancestors) =
      opened (r.surroundingsAt root p) p.node (r.categoryAt p) := by
  simp [surroundingsUnder, surroundingsAt, opened, ownerUnder?, nestingUnder, isInOperand, ho, hc]

theorem surroundingsUnder_of_plain (ho : r.opensScope p = false) :
    r.surroundingsUnder root (p :: p.ancestors) =
      r.entered (r.surroundingsAt root p) p.node (r.categoryAt p) := by
  have hn : (r.categoryAt p).has .nesting = (r.classify p).has .nesting :=
    has_categoryIn (s := r.surroundingsAt root p) (by decide)
  simp only [surroundingsUnder, surroundingsAt, entered, ownerUnder?, isInOperand,
    List.find?_cons, ho, List.any_cons, Bool.or_comm, Surroundings.mk.injEq, true_and, and_true,
    nestingUnder, List.takeWhile_cons, hn]
  cases h : (r.classify p).has .nesting <;> simp [h]

theorem surroundingsAt_of_mem_children (h : q ∈ p.children) :
    r.surroundingsAt root q = r.surroundingsUnder root (p :: p.ancestors) := by
  rw [surroundingsAt, Place.ancestors_of_mem_children h]

/-! ### Owners -/

theorem isReached_of_mem_children (h : q ∈ p.children) :
    r.isReached q = (r.isEntered p && r.isReached p) := by
  rw [isReached, Place.ancestors_of_mem_children h, List.all_cons]
  rfl

theorem not_isReached_of_mem_descendants (hp : r.isEntered p = false) (h : q ∈ p.descendants) :
    r.isReached q = false := by
  rw [isReached, List.all_eq_false]
  exact ⟨p, Place.mem_ancestors_of_mem_descendants h, by rw [hp]; exact Bool.false_ne_true⟩

theorem ownerAddress_of_opener (ho : r.opensScope p = true) (h : q ∈ p.children) :
    r.ownerAddress q = some p.address := by
  rw [ownerAddress, owner?, Place.ancestors_of_mem_children h, ownerUnder?,
    List.find?_cons_of_pos ho]
  rfl

theorem ownerAddress_of_plain (ho : r.opensScope p = false) (h : q ∈ p.children) :
    r.ownerAddress q = r.ownerAddress p := by
  rw [ownerAddress, owner?, Place.ancestors_of_mem_children h, ownerUnder?,
    List.find?_cons_of_neg (by rw [ho]; exact Bool.false_ne_true)]
  rfl

/-- The frame of a place is opened above it. -/
theorem length_ownerAddress {a : List Nat} (h : r.ownerAddress p = some a) :
    a.length < p.address.length ∧ a <:+ p.address := by
  obtain ⟨o, ho, rfl⟩ := Option.map_eq_some_iff.mp h
  have hm : o ∈ p.ancestors := List.mem_of_find?_eq_some ho
  exact ⟨Place.length_address_of_mem_ancestors hm, Place.address_suffix_of_mem_ancestors hm⟩

/-- Below a scope opener every owner is the opener or below it. -/
theorem ownerAddress_of_mem_descendants (ho : r.opensScope p = true) (h : q ∈ p.descendants) :
    ∃ a, r.ownerAddress q = some a ∧ p.address.length ≤ a.length := by
  obtain ⟨inner, hin, hall⟩ := Place.exists_ancestors_of_mem_descendants q h
  rw [ownerAddress, owner?, hin, ownerUnder?, List.find?_append]
  cases hf : inner.find? r.opensScope with
  | none => exact ⟨p.address, by simp [ho], Nat.le_refl _⟩
  | some o =>
      have hm : o ∈ p.subtree :=
        Place.mem_subtree.mpr (.inr (hall o (List.mem_of_find?_eq_some hf)))
      exact ⟨o.address, rfl, (Place.address_suffix_of_mem_subtree hm).length_le⟩

/-! ### The places of one frame below a place -/

/-- The places of a subtree that belong to the frame in which its root stands. -/
def own (r : Reading) (p : Place) : List Place := p.subtree.filter (r.belongsTo (r.ownerAddress p))

/-- A reached node that is no error belongs to the frame of its owner and to no other. -/
theorem belongsTo_iff (hp : r.isReached p = true) (he : p.node.isError = false)
    (k : Option (List Nat)) : r.belongsTo k p = true ↔ k = r.ownerAddress p := by
  rw [belongsTo, hp, he, eq_comm (a := k)]
  simp

theorem belongsTo_self (hp : r.isReached p = true) (he : p.node.isError = false) :
    r.belongsTo (r.ownerAddress p) p = true :=
  (belongsTo_iff hp he _).mpr rfl

theorem belongsTo_eq_false_of_not_isReached {k : Option (List Nat)} (hp : r.isReached p = false) :
    r.belongsTo k p = false := by
  rw [belongsTo, hp, Bool.false_and, Bool.false_and]

theorem belongsTo_eq_false_of_ne {k : Option (List Nat)} (hk : r.ownerAddress p ≠ k) :
    r.belongsTo k p = false := by
  rw [belongsTo, beq_eq_false_iff_ne.mpr hk, Bool.and_false]

theorem own_error (he : p.node.isError = true) : r.own p = [] := by
  have hi := not_isEntered_of_isError (r := r) he
  refine List.filter_eq_nil_iff.mpr fun q hq => ?_
  rcases Place.mem_subtree.mp hq with rfl | hq
  · simp [belongsTo, he]
  · simp [belongsTo_eq_false_of_not_isReached (not_isReached_of_mem_descendants hi hq)]

/-- The places below a comment are not reached. -/
theorem own_comment (hp : r.isReached p = true) (hc : (r.classify p).has .comment = true) :
    r.own p = [p] := by
  have hi := not_isEntered_of_comment hc
  rw [own, Place.subtree_eq, List.filter_cons_of_pos (belongsTo_self hp (isError_of_comment hc))]
  refine congrArg _ (List.filter_eq_nil_iff.mpr fun q hq => ?_)
  simp [belongsTo_eq_false_of_not_isReached (not_isReached_of_mem_descendants hi hq)]

/-- The places below a scope opener belong to other frames. -/
theorem own_opener (hp : r.isReached p = true) (ho : r.opensScope p = true) : r.own p = [p] := by
  rw [own, Place.subtree_eq, List.filter_cons_of_pos (belongsTo_self hp (isError_of_opensScope ho))]
  refine congrArg _ (List.filter_eq_nil_iff.mpr fun q hq => ?_)
  obtain ⟨a, ha, hlen⟩ := ownerAddress_of_mem_descendants ho hq
  have hne : r.ownerAddress q ≠ r.ownerAddress p := fun e => by
    have := (length_ownerAddress (e ▸ ha)).1
    omega
  simp [belongsTo_eq_false_of_ne hne]

theorem own_plain (hp : r.isReached p = true) (hi : r.isEntered p = true)
    (ho : r.opensScope p = false) : r.own p = p :: p.children.flatMap r.own := by
  rw [own, Place.subtree_eq,
    List.filter_cons_of_pos (belongsTo_self hp (isError_of_isEntered hi)), Place.descendants,
    List.filter_flatMap]
  refine congrArg _ (List.flatMap_congr fun q hq => ?_)
  rw [own, ownerAddress_of_plain ho hq]

/-- The places that belong to the frame that a place opens. -/
theorem filter_belongsTo_opener (ho : r.opensScope p = true) :
    p.subtree.filter (r.belongsTo (some p.address)) = p.children.flatMap r.own := by
  have hne : r.ownerAddress p ≠ some p.address := fun e =>
    absurd (length_ownerAddress e).1 (Nat.lt_irrefl _)
  rw [Place.subtree_eq, List.filter_cons_of_neg (by simp [belongsTo_eq_false_of_ne hne]),
    Place.descendants, List.filter_flatMap]
  refine List.flatMap_congr fun q hq => ?_
  rw [own, ownerAddress_of_opener ho hq]

/-- Only places below a scope opener belong to the frame that it opens. -/
theorem filter_belongsTo_of_mem {o : Place} : ∀ {p : Place}, o ∈ p.subtree →
    p.subtree.filter (r.belongsTo (some o.address)) =
      o.subtree.filter (r.belongsTo (some o.address)) := by
  intro p
  induction p using Place.induct with
  | h p ih =>
      intro hop
      rcases Place.mem_subtree.mp hop with rfl | hod
      · rfl
      obtain ⟨c, hc, hoc⟩ := Place.mem_descendants.mp hod
      have hlen := (Place.address_suffix_of_mem_subtree hop).length_le
      have hp : r.ownerAddress p ≠ some o.address := fun e => by
        have := (length_ownerAddress e).1
        omega
      -- what is below another child has an address that ends in that child's, so no owner at `o`
      have other : ∀ d ∈ p.children, d.address ≠ c.address →
          d.subtree.filter (r.belongsTo (some o.address)) = [] := fun d hd hne => by
        have hlen : d.address.length = c.address.length := by
          rw [Place.length_address_of_mem_children hd, Place.length_address_of_mem_children hc]
        refine List.filter_eq_nil_iff.mpr fun q hq => ?_
        have hq' : r.ownerAddress q ≠ some o.address := fun e => hne <|
          (List.suffix_of_suffix_length_le (Place.address_suffix_of_mem_subtree hq)
            ((Place.address_suffix_of_mem_subtree hoc).trans (length_ownerAddress e).2)
            (Nat.le_of_eq hlen)).eq_of_length hlen
        simp [belongsTo_eq_false_of_ne hq']
      obtain ⟨ds, ds', hds⟩ := List.append_of_mem hc
      have hpw := Place.pairwise_address_children p
      rw [hds, List.pairwise_append, List.pairwise_cons] at hpw
      have left : ds.flatMap (fun d => d.subtree.filter (r.belongsTo (some o.address))) = [] :=
        List.flatMap_eq_nil_iff.mpr fun d hd => other d (by rw [hds]; simp [hd])
          (hpw.2.2 d hd c List.mem_cons_self)
      have right : ds'.flatMap (fun d => d.subtree.filter (r.belongsTo (some o.address))) = [] :=
        List.flatMap_eq_nil_iff.mpr fun d hd => other d (by rw [hds]; simp [hd])
          (hpw.2.1.1 d hd).symm
      rw [Place.subtree_eq, List.filter_cons_of_neg (by simp [belongsTo_eq_false_of_ne hp]),
        Place.descendants, List.filter_flatMap, hds, List.flatMap_append, List.flatMap_cons, left,
        right, List.nil_append, List.append_nil]
      exact ih c hc hoc

/-! ### The events of a frame -/

/-- A node with a category that opens no scope gives one event, which has that category and counts
the nesting constructs between the node and its owner. -/
theorem exists_eventsAt (root : Node) (ho : r.opensScope p = false) (hc : r.categoryAt p ≠ ∅)
    (access : Option Bool) :
    ∃ e, r.eventsAt root access p = [e] ∧ e.category = r.categoryAt p ∧
      e.nesting = r.nestingUnder p.ancestors := by
  rw [eventsAt, if_neg (by rw [ho]; exact Bool.false_ne_true), nodeEvent, if_neg hc]
  exact ⟨_, rfl, rfl, rfl⟩

theorem accessAlong_append (access : Option Bool) (ps qs : List Place) :
    r.accessAlong root access (ps ++ qs) = r.accessAlong root (r.accessAlong root access ps) qs :=
  List.foldl_append

theorem eventsAlong_append : ∀ (access : Option Bool) (ps qs : List Place),
    r.eventsAlong root access (ps ++ qs) =
      r.eventsAlong root access ps ++ r.eventsAlong root (r.accessAlong root access ps) qs
  | _, [], _ => rfl
  | access, p :: ps, qs => by
      rw [List.cons_append, eventsAlong, eventsAlong, eventsAlong_append _ ps qs, List.append_assoc]
      rfl

/-- A visit that adds to its frame what the given places tell it. -/
def Tells (r : Reading) (root : Node) (access : Option Bool) (y : Yield) (ps : List Place) : Prop :=
  y.events = r.eventsAlong root access ps ∧ y.access = r.accessAlong root access ps

theorem Tells.andThen {access : Option Bool} {y z : Yield} {ps qs : List Place}
    (hy : r.Tells root access y ps) (hz : r.Tells root y.access z qs) :
    r.Tells root access (y.andThen z) (ps ++ qs) := by
  obtain ⟨hye, hya⟩ := hy
  obtain ⟨hze, hza⟩ := hz
  refine ⟨?_, ?_⟩
  · rw [eventsAlong_append, ← hye, ← hya, ← hze]
    rfl
  · rw [accessAlong_append, ← hya, ← hza]
    rfl

theorem tells_visitEach {s : Surroundings} :
    ∀ (ps : List Place) (access : Option Bool), (∀ p ∈ ps, ∀ access,
        r.Tells root access (r.visit p.above s access p.node) (r.own p)) →
      r.Tells root access (r.visitEach s access ps) (ps.flatMap r.own)
  | [], _, _ => ⟨rfl, rfl⟩
  | p :: ps, access, h => by
      rw [visitEach, List.flatMap_cons]
      exact (h p List.mem_cons_self access).andThen
        (tells_visitEach ps _ fun q hq => h q (List.mem_cons_of_mem _ hq))

/-- **A visit tells its frame of the places that belong to it**, and of no other. -/
theorem tells_visit (root : Node) : ∀ p : Place, r.isReached p = true → ∀ access,
    r.Tells root access (r.visit p.above (r.surroundingsAt root p) access p.node) (r.own p) := by
  intro p
  induction p using Place.induct with
  | h p ih =>
      intro hp access
      rcases r.place_cases p with he | hc | ho | ⟨hi, ho⟩
      · rw [visit_error he, own_error he]
        exact ⟨rfl, rfl⟩
      · rw [visit_comment hc, own_comment hp hc]
        refine ⟨?_, rfl⟩
        simp only [eventsAlong, eventsAt, opensScope_of_comment hc, Bool.false_eq_true, if_false,
          List.append_nil]
        rfl
      · rw [visit_opener ho, own_opener hp ho]
        refine ⟨?_, rfl⟩
        simp only [eventsAlong, eventsAt, ho, if_true, List.append_nil]
        rfl
      · rw [visit_plain hi ho, own_plain hp hi ho, ← List.singleton_append]
        refine Tells.andThen ⟨?_, rfl⟩ (tells_visitEach _ _ fun q hq => ?_)
        · simp only [eventsAlong, eventsAt, ho, Bool.false_eq_true, if_false, List.append_nil]
          rfl
        · have hq' : r.isReached q = true := by rw [isReached_of_mem_children hq, hi, hp]; rfl
          have := ih q hq hq'
          rw [surroundingsAt_of_mem_children hq, surroundingsUnder_of_plain ho] at this
          exact this

/-! ### The frames -/

theorem openers_of_mem_children (h : q ∈ p.children) :
    r.openers q = if r.opensScope p then p :: r.openers p else r.openers p := by
  rw [openers, Place.ancestors_of_mem_children h, List.filter_cons]
  rfl

theorem filter_opensFrame_of_not_entered (hi : r.isEntered p = false)
    (ho : r.opensScope p = false) : p.subtree.filter r.opensFrame = [] := by
  refine List.filter_eq_nil_iff.mpr fun q hq => ?_
  rcases Place.mem_subtree.mp hq with rfl | hq
  · simp [opensFrame, ho]
  · simp [opensFrame, not_isReached_of_mem_descendants hi hq]

theorem not_isComposite_of_opensScope {lang : Language} (hr : r.pack = lang.pack)
    (ho : r.opensScope p = true) : r.isComposite p.node = false := by
  rw [Bool.eq_false_iff]
  intro hc
  rw [opensScope, not_meets_scope_of_isComposite hr hc] at ho
  cases ho

/-- A reached scope opener of the tree starts the frame at its place. -/
theorem frames_visit_opener {lang : Language} (hr : r.pack = lang.pack) (hroot : p ∈ root.places)
    (hp : r.isReached p = true) (ho : r.opensScope p = true) {access : Option Bool} :
    (r.visit p.above (r.surroundingsAt root p) access p.node).frames =
      [.mk (r.bodyAt root p)
        (r.visitEach (opened (r.surroundingsAt root p) p.node (r.categoryAt p)) (r.accessOf p)
          p.children).frames] := by
  have hown : root.places.filter (r.belongsTo (some p.address)) = p.children.flatMap r.own :=
    (filter_belongsTo_of_mem (p := .root root) hroot).trans (filter_belongsTo_opener ho)
  obtain ⟨hev, hac⟩ : r.Tells root (r.accessOf p)
      (r.visitEach (opened (r.surroundingsAt root p) p.node (r.categoryAt p)) (r.accessOf p)
        p.children) (root.places.filter (r.belongsTo (some p.address))) := by
    rw [hown]
    refine tells_visitEach _ _ fun q hq access => ?_
    have hq' : r.isReached q = true := by
      rw [isReached_of_mem_children hq, isEntered_of_opensScope ho, hp]
      rfl
    have := tells_visit root q hq' access
    rw [surroundingsAt_of_mem_children hq,
      surroundingsUnder_of_opener ho (not_isComposite_of_opensScope hr ho)] at this
    exact this
  rw [visit_opener ho, bodyAt, ← hev, ← hac]
  rfl

variable {name : Option String}

theorem enclosed_visitEach {s : Surroundings} {bs : List Frame.Body} :
    ∀ (ps : List Place) (access : Option Bool), (∀ p ∈ ps, ∀ access,
        Frame.enclosedAll bs (r.visit p.above s access p.node).frames =
          (p.subtree.filter r.opensFrame).map (r.frameAt name root)) →
      Frame.enclosedAll bs (r.visitEach s access ps).frames =
        ((ps.flatMap Place.subtree).filter r.opensFrame).map (r.frameAt name root)
  | [], _, _ => by
      rw [visitEach, Frame.enclosedAll]
      rfl
  | p :: ps, access, h => by
      rw [visitEach, List.flatMap_cons, List.filter_append, List.map_append,
        ← h p List.mem_cons_self access,
        ← enclosed_visitEach ps _ fun q hq => h q (List.mem_cons_of_mem _ hq)]
      exact Frame.enclosedAll_append _ _ _

/-- **A visit opens the frames of the scope openers below it**, each inside those of the openers
above it. -/
theorem enclosed_visit {lang : Language} (hr : r.pack = lang.pack) (name : Option String) :
    ∀ p : Place,
    (∀ q ∈ p.subtree, q ∈ root.places) → r.isReached p = true → ∀ access,
      Frame.enclosedAll (r.around name root p)
          (r.visit p.above (r.surroundingsAt root p) access p.node).frames =
        (p.subtree.filter r.opensFrame).map (r.frameAt name root) := by
  intro p
  induction p using Place.induct with
  | h p ih =>
      intro hroot hp access
      have inside : ∀ q ∈ p.children, ∀ x ∈ q.subtree, x ∈ root.places := fun q hq x hx =>
        hroot x (Place.mem_subtree.mpr (.inr (Place.mem_descendants.mpr ⟨q, hq, hx⟩)))
      have reach : r.isEntered p = true → ∀ q ∈ p.children, r.isReached q = true := by
        intro hi q hq
        rw [isReached_of_mem_children hq, hi, hp]
        rfl
      rcases r.place_cases p with he | hc | ho | ⟨hi, ho⟩
      · rw [filter_opensFrame_of_not_entered (not_isEntered_of_isError he)
          (opensScope_of_isError he), visit_error he, Frame.enclosedAll, List.map_nil]
      · rw [filter_opensFrame_of_not_entered (not_isEntered_of_comment hc)
          (opensScope_of_comment hc), visit_comment hc, Frame.enclosedAll, List.map_nil]
      · have hf : r.opensFrame p = true := by rw [opensFrame, hp, ho]; rfl
        rw [frames_visit_opener hr (hroot p (Place.self_mem_subtree p)) hp ho, Place.subtree_eq,
          List.filter_cons_of_pos hf, List.map_cons, Frame.enclosedAll, Frame.enclosed,
          Frame.enclosedAll, List.append_nil]
        refine congrArg _ (enclosed_visitEach _ _ fun q hq access => ?_)
        have := ih q hq (inside q hq) (reach (isEntered_of_opensScope ho) q hq) access
        rw [surroundingsAt_of_mem_children hq,
          surroundingsUnder_of_opener ho (not_isComposite_of_opensScope hr ho), around,
          openers_of_mem_children hq, if_pos ho] at this
        exact this
      · have hf : ¬ r.opensFrame p = true := by simp [opensFrame, ho]
        rw [visit_plain hi ho, Place.subtree_eq, List.filter_cons_of_neg hf]
        refine enclosed_visitEach _ _ fun q hq access => ?_
        have := ih q hq (inside q hq) (reach hi q hq) access
        rw [surroundingsAt_of_mem_children hq, surroundingsUnder_of_plain ho, around,
          openers_of_mem_children hq, ho] at this
        exact this

/-- **The walk routes.**  The frames of a walk, with the frames around each, are those of the
routing. -/
theorem enclosed_walk {lang : Language} (hr : r.pack = lang.pack) (name : Option String)
    (root : Node) : (r.walk name root).draft.unit.enclosed [] = r.routing name root := by
  have hreach : r.isReached (.root root) = true := rfl
  have hunit : ({ scope := r.unitScope name root
                  events := (r.visit [] { kind := .unit, opener := root } none root).events } :
      Frame.Body) = r.unitBody name root := by
    rw [unitBody]
    congr 1
    exact (tells_visit root (.root root) hreach none).1
  have hframes := enclosed_visit hr name (.root root) (fun q hq => hq) hreach none
  rw [walk, Frame.enclosed, routing, hunit]
  exact congrArg _ hframes

/-- The bodies of a walk: that of the unit and those of the reached scope openers. -/
theorem bodies_eq_routing {lang : Language} (hr : r.pack = lang.pack) (name : Option String)
    (root : Node) : (r.walk name root).draft.unit.bodies =
      r.unitBody name root :: (root.places.filter r.opensFrame).map (r.bodyAt root) := by
  rw [← Frame.map_snd_enclosed _ [], enclosed_walk hr, routing, List.map_cons, List.map_map]
  rfl

end Reading

end ScopeMetrics
