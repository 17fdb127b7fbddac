import Mathlib.Data.List.Forall2
import ScopeMetrics.Proofs.Census
import ScopeMetrics.Proofs.Insertion

/-!
# Parameters and the shape of a tree

The shape of a tree is what the grammar says of it: the kinds of its nodes, which of them are named,
the fields and the order of the children.  It has no texts.  How many parameters a declaration has
should be a matter of its shape, so that renaming a parameter changes no count.

A tree with other labels is a tree again (`Node.relabel`); where kinds, names and fields are kept,
the parameters are found at the same place (`parameters?_relabel`).

* `arity_add_voids`: the arity counts the parameters of the shape (`Pack.slots`), except those that
  are spelled `void` (`Reading.voids`), whatever the language.
* `total_arguments`: rolled up, the arguments of a unit are the arities of its callables.
* **`arity_of_shape`**: so trees of one shape have the same arities at the same places, and the
  same arguments altogether, up to parameters that are spelled `void`.
* `renaming_to_void`: where `void` is a name as any other, renaming a parameter to it takes the
  parameter away.
-/

namespace ScopeMetrics

/-! ### Other labels -/

/-- Whether a change of labels keeps what the grammar says of a node. -/
structure Label.Keeps (f : Label → Label) : Prop where
  kind : ∀ l, (f l).kind = l.kind
  named : ∀ l, (f l).named = l.named
  field : ∀ l, (f l).field = l.field

theorem Label.Keeps.flags {f : Label → Label} (hf : Keeps f) (k : Pack) (l : Label) :
    k.flags (f l) = k.flags l := by
  rw [Pack.flags, hf.kind, hf.named, Pack.flags]

/-- The label without its range of bytes. -/
def Label.unplaced (l : Label) : Label := { l with start := 0, stop := 0 }

/-- The label without its range of bytes, and whether it is missing or not. -/
def Label.shape (l : Label) : Label := { l.unplaced with missing := false }

theorem Label.keeps_unplaced : Keeps unplaced := ⟨fun _ => rfl, fun _ => rfl, fun _ => rfl⟩

theorem Label.keeps_shape : Keeps shape := ⟨fun _ => rfl, fun _ => rfl, fun _ => rfl⟩

namespace Node

mutual

/-- The tree with every label changed. -/
def relabel (f : Label → Label) : Node → Node
  | .mk l cs => .mk (f l) (relabelAll f cs)

def relabelAll (f : Label → Label) : List Node → List Node
  | [] => []
  | c :: cs => c.relabel f :: relabelAll f cs

end

variable {f : Label → Label}

theorem relabelAll_eq (f : Label → Label) (cs : List Node) :
    relabelAll f cs = cs.map (relabel f) := by
  induction cs with
  | nil => rfl
  | cons c cs ih => rw [relabelAll, ih, List.map_cons]

@[simp] theorem label_relabel (f : Label → Label) (n : Node) :
    (n.relabel f).label = f n.label := by
  obtain ⟨l, cs⟩ := n
  rfl

@[simp] theorem children_relabel (f : Label → Label) (n : Node) :
    (n.relabel f).children = n.children.map (relabel f) := by
  obtain ⟨l, cs⟩ := n
  exact relabelAll_eq f cs

theorem kind_relabel (hf : Label.Keeps f) (n : Node) : (n.relabel f).kind = n.kind := by
  rw [kind, label_relabel, hf.kind, kind]

theorem field?_relabel (hf : Label.Keeps f) (n : Node) (name : String) :
    (n.relabel f).field? name = (n.field? name).map (relabel f) := by
  rw [field?, children_relabel, List.find?_map, field?]
  simp only [Function.comp_def, label_relabel, hf.field]

theorem fields_relabel (hf : Label.Keeps f) (n : Node) (name : String) :
    (n.relabel f).fields name = (n.fields name).map (relabel f) := by
  rw [fields, children_relabel, List.filter_map, fields]
  simp only [Function.comp_def, label_relabel, hf.field]

theorem namedChildren_relabel (hf : Label.Keeps f) (n : Node) :
    (n.relabel f).namedChildren = n.namedChildren.map (relabel f) := by
  have hnamed : named ∘ relabel f = named := funext fun c => by
    rw [Function.comp_apply, named, label_relabel, hf.named, named]
  rw [namedChildren, children_relabel, List.filter_map, hnamed, namedChildren]

end Node

/-- The surroundings with every label changed. -/
def Crumb.relabel (f : Label → Label) (c : Crumb) : Crumb where
  label := f c.label
  before := c.before.map (Node.relabel f)
  after := c.after.map (Node.relabel f)

namespace Place

variable {f : Label → Label}

/-- The place in the tree with every label changed. -/
def relabel (f : Label → Label) (p : Place) : Place where
  node := p.node.relabel f
  above := p.above.map (Crumb.relabel f)

theorem address_relabel (f : Label → Label) (p : Place) : (p.relabel f).address = p.address := by
  simp [address, relabel, Crumb.relabel, Function.comp_def]

theorem ancestorsOf_relabel (f : Label → Label) : ∀ (above : List Crumb) (n : Node),
    ancestorsOf (n.relabel f) (above.map (Crumb.relabel f)) =
      (ancestorsOf n above).map (relabel f)
  | [], _ => rfl
  | c :: above, n => by
      have hparent : Node.mk (f c.label) ((c.before.map (Node.relabel f)).reverse ++
          n.relabel f :: c.after.map (Node.relabel f)) =
            (Node.mk c.label (c.before.reverse ++ n :: c.after)).relabel f := by
        rw [Node.relabel, Node.relabelAll_eq, List.map_append, List.map_reverse, List.map_cons]
      rw [List.map_cons, ancestorsOf, ancestorsOf, List.map_cons,
        ← ancestorsOf_relabel f above]
      simp only [Crumb.relabel, hparent]
      rfl

theorem ancestors_relabel (f : Label → Label) (p : Place) :
    (p.relabel f).ancestors = p.ancestors.map (relabel f) :=
  ancestorsOf_relabel f p.above p.node

end Place

namespace Node

mutual

theorem placesFrom_relabel (f : Label → Label) (above : List Crumb) : ∀ n : Node,
    (n.relabel f).placesFrom (above.map (Crumb.relabel f)) =
      (n.placesFrom above).map (Place.relabel f)
  | .mk l cs => by
      rw [relabel, placesFrom, placesFrom, List.map_cons, ← placesAll_relabel f l above [] cs]
      rfl

theorem placesAll_relabel (f : Label → Label) (l : Label) (above : List Crumb) :
    ∀ before cs : List Node,
      placesAll (f l) (above.map (Crumb.relabel f)) (before.map (relabel f)) (relabelAll f cs) =
        (placesAll l above before cs).map (Place.relabel f)
  | _, [] => by rw [relabelAll, placesAll, placesAll, List.map_nil]
  | before, c :: cs => by
      rw [relabelAll, placesAll, placesAll, List.map_append, ← placesFrom_relabel f _ c,
        ← placesAll_relabel f l above (c :: before) cs, List.map_cons, List.map_cons, Crumb.relabel,
        relabelAll_eq]

end

/-- A tree with other labels has the same places, with other labels. -/
theorem places_relabel (f : Label → Label) (n : Node) :
    (n.relabel f).places = n.places.map (Place.relabel f) :=
  placesFrom_relabel f [] n

/-- The shape of a tree: kinds, names, fields and the order of children. -/
def shape (n : Node) : Node := n.relabel Label.shape

end Node

/-! ### Parameters -/

/-- How many parameters a child of a parameter list declares by its shape. -/
def Pack.slotsOf (k : Pack) (n : Node) : Nat :=
  if k.nonParameters.contains n.kind then 0
  else if k.multiNameParameters.contains n.kind then max 1 (n.fields "name").length
  else 1

/-- How many parameters a function or closure has by its shape. -/
def Pack.slots (k : Pack) (n : Node) : Nat :=
  match Reading.parameters? n with
  | none => 0
  | some ps =>
    if (k.flags ps.label).has .parameter then
      (ps.namedChildren.map k.slotsOf).foldr (· + ·) 0
    else 1

namespace Reading

variable {f : Label → Label}

theorem declaredParameters?_relabel (hf : Label.Keeps f) (n : Node) :
    declaredParameters? (n.relabel f) = (declaredParameters? n).map (Node.relabel f) := by
  rw [declaredParameters?_eq, declaredParameters?_eq n, Node.field?_relabel hf,
    Node.field?_relabel hf]
  cases n.field? "parameters" with
  | some ps => rfl
  | none =>
      cases hd : n.field? "declarator" with
      | none => rfl
      | some d => exact declaredParameters?_relabel hf d
termination_by n.size
decreasing_by exact Node.size_lt_of_field? hd

/-- The parameters are found at the same place. -/
theorem parameters?_relabel (hf : Label.Keeps f) (n : Node) :
    parameters? (n.relabel f) = (parameters? n).map (Node.relabel f) := by
  rw [parameters?, parameters?, Node.field?_relabel hf, Node.field?_relabel hf,
    Node.field?_relabel hf]
  cases n.field? "parameters" with
  | some ps => rfl
  | none =>
      cases n.field? "parameter" with
      | some ps => rfl
      | none =>
          cases n.field? "declarator" with
          | none => rfl
          | some d => exact declaredParameters?_relabel hf d

theorem slots_relabel (k : Pack) (hf : Label.Keeps f) (n : Node) :
    k.slots (n.relabel f) = k.slots n := by
  have hof : k.slotsOf ∘ Node.relabel f = k.slotsOf := funext fun c => by
    rw [Function.comp_apply, Pack.slotsOf, Node.kind_relabel hf, Node.fields_relabel hf,
      List.length_map, Pack.slotsOf]
  rw [Pack.slots, Pack.slots, parameters?_relabel hf]
  cases parameters? n with
  | none => rfl
  | some ps =>
      simp only [Option.map_some]
      rw [Node.label_relabel, hf.flags, Node.namedChildren_relabel hf, List.map_map, hof]

/-- Whether a child of a parameter list would be one parameter, but is spelled `void`. -/
def isVoid (r : Reading) (n : Node) : Bool :=
  !r.pack.nonParameters.contains n.kind && !r.pack.multiNameParameters.contains n.kind &&
    Text.strip (r.text n) == "void"

/-- How many children of its parameter list a function or closure has that are spelled `void`. -/
def voids (r : Reading) (n : Node) : Nat :=
  match parameters? n with
  | none => 0
  | some ps => if (r.flags ps).has .parameter then ps.namedChildren.countP r.isVoid else 0

theorem parametersOf_add (r : Reading) (n : Node) :
    r.parametersOf n + (if r.isVoid n then 1 else 0) = r.pack.slotsOf n := by
  rw [parametersOf, isVoid, Pack.slotsOf]
  cases r.pack.nonParameters.contains n.kind with
  | true => rfl
  | false =>
      cases r.pack.multiNameParameters.contains n.kind with
      | true => rfl
      | false => cases Text.strip (r.text n) == "void" <;> rfl

/-- **Only `void` is read.**  The arity is the number of parameters of the shape, except for those
that are spelled `void`. -/
theorem arity_add_voids (r : Reading) (n : Node) : r.arity n + r.voids n = r.pack.slots n := by
  have hsum : ∀ cs : List Node, (cs.map r.parametersOf).foldr (· + ·) 0 + cs.countP r.isVoid =
      (cs.map r.pack.slotsOf).foldr (· + ·) 0 := by
    intro cs
    induction cs with
    | nil => rfl
    | cons c cs ih =>
        have hc := r.parametersOf_add c
        rw [List.map_cons, List.map_cons, List.foldr_cons, List.foldr_cons, List.countP_cons]
        omega
  rw [arity, voids, Pack.slots]
  cases parameters? n with
  | none => rfl
  | some ps =>
      by_cases h : (r.pack.flags ps.label).has .parameter = true
      · simp only [flags, h, if_true]
        exact hsum ps.namedChildren
      · simp only [flags, h]
        rfl

/-! ### Callables -/

section

variable {r r' : Reading} {p : Place}

/-- The reached places that open a function or a closure. -/
def callables (r : Reading) (root : Node) : List Place :=
  root.places.filter fun p => r.isReached p && (r.classify p).meets .callable

theorem isEntered_eq (r : Reading) (p : Place) :
    r.isEntered p = (!p.node.isError && !(r.flags p.node).has .comment) := by
  rw [isEntered]
  cases he : p.node.isError with
  | true => rfl
  | false => rw [has_comment_classify he]

/-- What opens a callable, and what is entered, is the same for every source and with all labels
that keep the grammar and the errors. -/
theorem callables_relabel (hpack : r'.pack = r.pack) (hf : Label.Keeps f)
    (he : ∀ l, (f l).isError = l.isError) (root : Node) :
    r'.callables (root.relabel f) = (r.callables root).map (Place.relabel f) := by
  have herror : ∀ p : Place, (p.relabel f).node.isError = p.node.isError := fun p => by
    rw [Node.isError, Place.relabel, Node.label_relabel, he, Node.isError]
  have hflags : ∀ p : Place, r'.flags (p.relabel f).node = r.flags p.node := fun p => by
    rw [flags, flags, hpack, Place.relabel, Node.label_relabel, hf.flags]
  have hbody : ∀ p : Place, r'.lacksBody (p.relabel f).node = r.lacksBody p.node := fun p => by
    rw [lacksBody, lacksBody, hpack, Place.relabel, Node.kind_relabel hf, Node.field?_relabel hf,
      Option.isNone_map]
  have hentered : ∀ p : Place, r'.isEntered (p.relabel f) = r.isEntered p := fun p => by
    rw [isEntered_eq, isEntered_eq, herror, hflags]
  have hreached : ∀ p : Place, r'.isReached (p.relabel f) = r.isReached p := fun p => by
    rw [isReached, isReached, Place.ancestors_relabel, List.all_map]
    simp only [Function.comp_def, hentered]
  have hcallable : ∀ p : Place,
      (r'.classify (p.relabel f)).meets .callable = (r.classify p).meets .callable := fun p => by
    simp only [Category.meets_callable, has_classify_of_scope (f := .function) rfl,
      has_classify_of_scope (f := .closure) rfl, herror, hflags, hbody]
  rw [callables, callables, Node.places_relabel, List.filter_map]
  simp only [Function.comp_def, hreached, hcallable]

end

end Reading

/-! ### Arguments of a unit -/

theorem Arguments.total_combine (a b : Arguments) :
    (a.combine b).total = a.total + b.total := by
  simp only [combine, total]
  omega

/-- The arguments of an event that opens a callable are its arity, for functions and closures. -/
theorem Tally.total_argumentsOf (e : Event) :
    (argumentsOf e).total = if e.opensCallable then e.arity.getD 0 else 0 := by
  rw [argumentsOf]
  cases e.opensCallable with
  | false => rfl
  | true =>
      cases e.has .closure with
      | true => exact Int.zero_add _
      | false => exact Int.add_zero _

/-- The arguments of a space are those of the frames in it. -/
theorem Frame.total_arguments (use : LineUse) (f : Frame) (span : Span) :
    ((f.surveyIn span).space use).metrics.arguments.total =
      sumOf (fun b => b.tally.arguments.total) f.bodies := by
  have hpart : Bundle.AddsUp fun b => b.arguments.total :=
    { combine := fun a b => Arguments.total_combine a.arguments b.arguments }
  rw [Space.part_metrics hpart (Parcel.isRolled_space use _), Parcel.all_space, sumOf_map,
    ← map_body_surveyIn f span, sumOf_map]
  refine sumOf_congr fun p _ => ?_
  obtain ⟨body, span, inside⟩ := p
  rw [Parcel.space]
  rfl

namespace Reading

variable {r : Reading} {lang : Language} {root : Node}

theorem total_arguments_openingEvent (n : Node) (c : Category) :
    (Tally.argumentsOf (r.openingEvent n c)).total =
      if c.meets .callable then (r.arity n : Int) else 0 := by
  have hcallable : (c ∩ .scope).meets .callable = c.meets .callable :=
    Category.meets_congr fun f hf => by
      rw [Category.has_inter]
      revert hf
      cases f <;> simp [Category.callable, Category.scope]
  rw [Tally.total_argumentsOf, Event.opensCallable, openingEvent, hcallable]
  cases c.meets .callable <;> rfl

/-- What is told to a frame after it has opened is about members. -/
theorem isMember_of_mem_eventsAlong {e : Event} : ∀ (ps : List Place) (access : Option Bool),
    e ∈ r.eventsAlong root access ps → e.IsMember
  | [], _, he => absurd he List.not_mem_nil
  | p :: ps, access, he => by
      rw [eventsAlong, List.mem_append] at he
      rcases he with he | he
      · rw [eventsAt] at he
        split at he
        · exact isMember_of_mem_methodEvent he
        · rename_i ho
          exact (isMember_of_mem_nodeEvent (s := r.surroundingsAt root p)
            (Bool.eq_false_iff.mpr ho) he).1
      · exact isMember_of_mem_eventsAlong ps _ he

/-- Only the event by which a callable opens has arguments. -/
theorem total_arguments_members {es : List Event} (h : ∀ e ∈ es, e.IsMember) :
    sumOf (fun e => (Tally.ofEvent e).arguments.total) es = 0 := by
  refine sumOf_zero fun e he => ?_
  show (Tally.argumentsOf e).total = 0
  rw [(Tally.callable_of_isMember (h e he)).2]
  rfl

/-- **The arguments of a unit** are, rolled up, the arities of its callables. -/
theorem total_arguments (hr : r.pack = lang.pack) (name : Option String) (root : Node)
    (use : LineUse) :
    ((r.walk name root).draft.unit.survey.space use).metrics.arguments.total =
      sumOf (fun p => (r.arity p.node : Int)) (r.callables root) := by
  have hpart := Tally.part_ofEvents (fun t => t.arguments.total) rfl
    (fun a b => Arguments.total_combine a.arguments b.arguments)
  have hunit : (r.unitBody name root).tally.arguments.total = 0 := by
    rw [Frame.Body.tally, hpart]
    exact total_arguments_members fun e he => isMember_of_mem_eventsAlong _ _ he
  have hopener : ∀ p, (r.bodyAt root p).tally.arguments.total =
      if (r.classify p).meets .callable then (r.arity p.node : Int) else 0 := by
    intro p
    have hcallable : (r.categoryAt p).meets .callable = (r.classify p).meets .callable := by
      rw [Category.meets_callable, Category.meets_callable]
      have hhas : ∀ f, Category.token.has f = false →
          (r.categoryAt p).has f = (r.classify p).has f := fun f hf =>
        has_categoryIn (s := r.surroundingsAt root p) hf
      rw [hhas _ rfl, hhas _ rfl]
    rw [Frame.Body.tally, hpart, bodyAt, sumOf_cons,
      total_arguments_members fun e he => isMember_of_mem_eventsAlong _ _ he, Int.add_zero,
      ← hcallable]
    exact total_arguments_openingEvent p.node _
  rw [Frame.survey, Frame.total_arguments, bodies_eq_routing hr, sumOf_cons, hunit, Int.zero_add,
    sumOf_map, callables, sumOf_filter, sumOf_filter]
  refine sumOf_congr fun p _ => ?_
  rw [hopener, opensFrame]
  cases hcallable : (r.classify p).meets .callable with
  | false => simp
  | true =>
      obtain ⟨f, hf, hcall⟩ := Category.meets_iff.mp hcallable
      have ho : r.opensScope p = true := by
        refine Category.meets_iff.mpr ⟨f, hf, ?_⟩
        revert hcall
        cases f <;> decide
      rw [ho, if_pos rfl]

/-- The arities of the callables, and what is spelled `void` there, are a matter of the labels
without their positions. -/
theorem sumOf_slots {r r' : Reading} (hpack : r'.pack = r.pack) {root root' : Node}
    (h : root.relabel Label.unplaced = root'.relabel Label.unplaced) :
    sumOf (fun p => (r.pack.slots p.node : Int)) (r.callables root) =
      sumOf (fun p => (r'.pack.slots p.node : Int)) (r'.callables root') := by
  have hsum : ∀ (r₀ : Reading) (n : Node), r₀.pack = r.pack →
      sumOf (fun p => (r.pack.slots p.node : Int)) (r.callables (n.relabel Label.unplaced)) =
        sumOf (fun p => (r₀.pack.slots p.node : Int)) (r₀.callables n) := by
    intro r₀ n hr₀
    rw [callables_relabel hr₀.symm Label.keeps_unplaced (fun _ => rfl), sumOf_map]
    refine sumOf_congr fun p _ => ?_
    rw [Place.relabel, slots_relabel _ Label.keeps_unplaced, hr₀]
  rw [← hsum r root rfl, h, hsum r' root' hpack]

/-- Every arity is the number of slots less what is spelled `void`, and so is their sum. -/
theorem sumOf_arity_add_voids (r : Reading) (root : Node) :
    sumOf (fun p => (r.arity p.node : Int)) (r.callables root) +
        sumOf (fun p => (r.voids p.node : Int)) (r.callables root) =
      sumOf (fun p => (r.pack.slots p.node : Int)) (r.callables root) := by
  rw [← sumOf_add]
  refine sumOf_congr fun p _ => ?_
  rw [← r.arity_add_voids p.node, Int.natCast_add]

/-- Trees of one shape have places of one shape, in one order. -/
theorem forall₂_places_of_shape {root root' : Node} (h : root.shape = root'.shape) :
    List.Forall₂ (fun p q : Place => p.relabel Label.shape = q.relabel Label.shape)
      root.places root'.places := by
  have hplaces : root.places.map (Place.relabel Label.shape) =
      root'.places.map (Place.relabel Label.shape) := by
    rw [← Node.places_relabel, ← Node.places_relabel]
    exact congrArg Node.places h
  rwa [← List.forall₂_eq_eq_eq, List.forall₂_map_left_iff, List.forall₂_map_right_iff] at hplaces

/-- **The arity is a matter of shape, but for `void`.**  For every language, any two sources and any
two trees of one shape, whatever their texts: at corresponding places the arities are the same up to
the children of the parameter list that are spelled `void`, so they are equal exactly if as many
are.  If the same tokens are missing too, this holds of all arguments of the two units. -/
theorem arity_of_shape (lang : Language) (source source' : Source)
    (macros macros' : SortedSet String) (name name' : Option String) (root root' : Node) :
    let r : Reading := { pack := lang.pack, source, macros }
    let r' : Reading := { pack := lang.pack, source := source', macros := macros' }
    let voidsIn (r : Reading) (root : Node) : Int :=
      sumOf (fun p => (r.voids p.node : Int)) (r.callables root)
    (root.shape = root'.shape →
      List.Forall₂ (fun p q => p.address = q.address ∧
        r.arity p.node + r.voids p.node = r'.arity q.node + r'.voids q.node ∧
        (r.arity p.node = r'.arity q.node ↔ r.voids p.node = r'.voids q.node))
        root.places root'.places) ∧
    (root.relabel Label.unplaced = root'.relabel Label.unplaced →
      ∃ unit unit', (r.walk name root).draft.spaces = .ok unit ∧
        (r'.walk name' root').draft.spaces = .ok unit' ∧
        unit.metrics.arguments.total + voidsIn r root =
          unit'.metrics.arguments.total + voidsIn r' root') := by
  intro r r' voidsIn
  refine ⟨fun h => ?_, fun h => ?_⟩
  · refine (forall₂_places_of_shape h).imp fun p q hpq => ?_
    have haddress : p.address = q.address := by
      rw [← Place.address_relabel Label.shape p, hpq, Place.address_relabel]
    have hslots : lang.pack.slots p.node = lang.pack.slots q.node := by
      have hnode : p.node.relabel Label.shape = q.node.relabel Label.shape :=
        congrArg Place.node hpq
      rw [← slots_relabel _ Label.keeps_shape p.node, hnode, slots_relabel _ Label.keeps_shape]
    have hsum : r.arity p.node + r.voids p.node = r'.arity q.node + r'.voids q.node :=
      (r.arity_add_voids p.node).trans (hslots.trans (r'.arity_add_voids q.node).symm)
    exact ⟨haddress, hsum, by omega⟩
  · refine ⟨_, _, r.spaces_walk name root, r'.spaces_walk name' root', ?_⟩
    have hr : r.pack = lang.pack := rfl
    have hr' : r'.pack = lang.pack := rfl
    rw [total_arguments hr, total_arguments hr', sumOf_arity_add_voids, sumOf_arity_add_voids]
    exact sumOf_slots (hr'.trans hr.symm) h

/-- A function of two parameters, and the same function with longer names, one of them `void`. -/
theorem arity_of_shape_renamed :
    let node (kind : String) (start stop : Nat) (field : Option String) (cs : List Node) : Node :=
      .mk ⟨kind, true, false, start, stop, field⟩ cs
    let token (kind : String) (start stop : Nat) : Node :=
      .mk ⟨kind, false, false, start, stop, none⟩ []
    let tree (a b c : Nat) := node "module" 0 (c + 8) none
      [node "function_definition" 0 (c + 7) none
        [token "def" 0 3, node "identifier" 4 5 (some "name") [],
          node "parameters" 5 (c + 1) (some "parameters")
            [token "(" 5 6, node "identifier" 6 a none [], token "," a b,
              node "identifier" b c none [], token ")" c (c + 1)],
          token ":" (c + 1) (c + 2),
          node "block" (c + 3) (c + 7) (some "body")
            [node "pass_statement" (c + 3) (c + 7) none [token "pass" (c + 3) (c + 7)]]]]
    let r : Reading := { pack := Language.python.pack, source := .ofText "def f(a,b): pass\n" }
    let r' : Reading :=
      { pack := Language.python.pack, source := .ofText "def f(count,void): pass\n" }
    let function (root : Node) : Node := (root.places.map Place.node).getD 1 root
    (tree 7 8 9).shape = (tree 11 12 16).shape ∧
      (tree 7 8 9).relabel Label.unplaced = (tree 11 12 16).relabel Label.unplaced ∧
      (r.arity (function (tree 7 8 9)) = 2 ∧ r.voids (function (tree 7 8 9)) = 0) ∧
      (r'.arity (function (tree 11 12 16)) = 1 ∧ r'.voids (function (tree 11 12 16)) = 1) ∧
      List.Forall₂ (fun p q => r.arity p.node + r.voids p.node = r'.arity q.node + r'.voids q.node)
        (tree 7 8 9).places (tree 11 12 16).places ∧
      ∃ unit unit', (r.walk none (tree 7 8 9)).draft.spaces = .ok unit ∧
        (r'.walk none (tree 11 12 16)).draft.spaces = .ok unit' ∧
        unit.metrics.arguments.total + sumOf (fun p => (r.voids p.node : Int))
            (r.callables (tree 7 8 9)) =
          unit'.metrics.arguments.total + sumOf (fun p => (r'.voids p.node : Int))
            (r'.callables (tree 11 12 16)) := by
  intro node token tree r r' function
  obtain ⟨harity, htotal⟩ := arity_of_shape .python (.ofText "def f(a,b): pass\n")
    (.ofText "def f(count,void): pass\n") ∅ ∅ none none (tree 7 8 9) (tree 11 12 16)
  exact ⟨rfl, rfl, ⟨by decide +kernel, by decide +kernel⟩, ⟨by decide +kernel, by decide +kernel⟩,
    (harity rfl).imp fun _ _ h => h.2.1, htotal rfl⟩

/-- **Renaming a parameter to `void` takes it away**, in a language without such a type: the two
functions have one shape, but not one arity. -/
theorem renaming_to_void :
    let node (kind : String) (start stop : Nat) (field : Option String) (cs : List Node) : Node :=
      .mk ⟨kind, true, false, start, stop, field⟩ cs
    let token (kind : String) (start stop : Nat) : Node :=
      .mk ⟨kind, false, false, start, stop, none⟩ []
    let function (a : Nat) := node "function_definition" 0 (a + 7) none
      [token "def" 0 3, node "identifier" 4 5 (some "name") [],
        node "parameters" 5 (a + 1) (some "parameters")
          [token "(" 5 6, node "identifier" 6 a none [], token ")" a (a + 1)],
        token ":" (a + 1) (a + 2),
        node "block" (a + 3) (a + 7) (some "body")
          [node "pass_statement" (a + 3) (a + 7) none [token "pass" (a + 3) (a + 7)]]]
    let r : Reading := { pack := Language.python.pack, source := .ofText "def f(a): pass\n" }
    let r' : Reading := { pack := Language.python.pack, source := .ofText "def f(void): pass\n" }
    (function 7).shape = (function 10).shape ∧ r.arity (function 7) = 1 ∧
      r'.arity (function 10) = 0 := by
  intro node token function r r'
  exact ⟨rfl, by decide +kernel, by decide +kernel⟩

end Reading

end ScopeMetrics
