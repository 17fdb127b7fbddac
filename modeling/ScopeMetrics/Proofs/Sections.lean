import ScopeMetrics.Proofs.Ledger

/-!
# Sections of classes

Where a class is divided into sections, a label opens each, and the members after the label have
its access.  The walk threads the access of the innermost class through the tree.  Here the access
of a member is read off the places of its class before it.

* `heard`: the members among some places of a class, each with the access of the last label before
  it; `heard_append` carries the last label from some places to the next.
* `InClass`: what a place is told that belongs to a class.
* `filterMap_shown?_eventsAlong`: the class hears of its members as `heard` says.
* `exists_body`: a class has a body, so its places are those before the body, in it and after it
  (`filter_at_body`).
* **`members_follow_labels`**: in every class, a member has the access of the last label before it
  that belongs to the class, and the default access if there is none.  A label in the head of a
  class, before its body, is one of them.
-/

namespace ScopeMetrics

/-- The kind of a method or attribute of which a class hears, and whether it is public. -/
def Event.shown? (e : Event) : Option (String × Bool) := e.visible.map (e.kind, ·)

namespace Place

/-- The body of a place: the first child under that field. -/
def body? (p : Place) : Option Place := p.children.find? fun c => c.node.label.field == some "body"

theorem map_node_body? (p : Place) : p.body?.map node = p.node.field? "body" := by
  rw [Node.field?, ← map_node_children, List.find?_map]
  rfl

/-- Two places of a tree with the same address are the same. -/
theorem eq_of_address_eq {root : Node} {p q : Place} (hp : p ∈ root.places) (hq : q ∈ root.places)
    (h : p.address = q.address) : p = q :=
  List.inj_on_of_nodup_map (List.pairwise_map.mpr (pairwise_address_subtree (.root root))) hp hq h

end Place

namespace Reading

/-- The access that the last label among some places opens. -/
def lastLabel? (r : Reading) (ps : List Place) : Option Bool :=
  (ps.filterMap fun q => r.accessChange? q.node).getLast?

/-- Whether a class hears of a place as a method or an attribute. -/
def isMember (r : Reading) (p : Place) : Bool :=
  (r.classify p).has (if r.opensScope p then .function else .attribute)

/-- The members among some places of a class, each with all places of the class before it. -/
def members (r : Reading) (before : List Place) : List Place → List (List Place × Place)
  | [] => []
  | p :: ps =>
    if r.isMember p then (before, p) :: r.members (before ++ [p]) ps
    else r.members (before ++ [p]) ps

/-- What a class hears of the members among some of its places: for each its kind, and whether it is
public as the last label before it says, or `access` if there is none, or else by default. -/
def heard (r : Reading) (container : Node) (access : Option Bool) (ps : List Place) :
    List (String × Bool) :=
  (r.members [] ps).map fun x =>
    (x.2.kind, ((r.lastLabel? x.1).or access).getD (r.defaultAccess container))

/-- A place that belongs to a class, as it is told. -/
structure InClass (r : Reading) (root container : Node) (p : Place) : Prop where
  kind : (r.surroundingsAt root p).kind = .class_
  opener : (r.surroundingsAt root p).opener = container

variable {r : Reading} {root container : Node} {p q o : Place} {access : Option Bool}

/-! ### The places of a class -/

theorem owner?_of_belongsTo (ho : o ∈ root.places) (hp : p ∈ root.places)
    (h : r.belongsTo (some o.address) p = true) : r.owner? p = some o := by
  rw [belongsTo, Bool.and_eq_true, beq_iff_eq] at h
  obtain ⟨a, ha, haddress⟩ := Option.map_eq_some_iff.mp h.2
  have hmem : a ∈ root.places :=
    Place.mem_places_of_mem_ancestors hp (List.mem_of_find?_eq_some ha)
  rw [ha, Place.eq_of_address_eq hmem ho haddress]

theorem inClass_of_belongsTo (ho : o ∈ root.places)
    (hclass : SpaceKind.ofCategory (r.categoryAt o) = .class_) (hp : p ∈ root.places)
    (h : r.belongsTo (some o.address) p = true) : r.InClass root o.node p := by
  have howner : r.ownerUnder? p.ancestors = some o := owner?_of_belongsTo ho hp h
  refine ⟨?_, ?_⟩
  · rw [surroundingsAt, surroundingsUnder, howner]
    exact hclass
  · rw [surroundingsAt, surroundingsUnder, howner]
    rfl

/-! ### Labels -/

theorem lastLabel?_append (ps qs : List Place) :
    r.lastLabel? (ps ++ qs) = (r.lastLabel? qs).or (r.lastLabel? ps) := by
  rw [lastLabel?, List.filterMap_append, List.getLast?_append]
  rfl

theorem lastLabel?_singleton (p : Place) : r.lastLabel? [p] = r.accessChange? p.node := by
  rw [lastLabel?]
  cases h : r.accessChange? p.node <;> simp [h]

theorem accessAt_of_inClass (h : r.InClass root container p) :
    r.accessAt root access p = (r.accessChange? p.node).or access := by
  rw [accessAt, accessAfter, if_pos h.kind]

theorem label_tables : Group.flagsOf Language.cpp.pack.kinds "access_specifier" = ∅ ∧
    Group.flagsOf Language.cpp.pack.tokens "access_specifier" = ∅ := by
  decide +kernel

/-- A member has its flag from the tables. -/
theorem has_flags_of_isMember (h : r.isMember p = true) : ∃ f, (r.flags p.node).has f = true := by
  rcases has_classify h with h | h | h | h
  · split at h <;> cases h
  · split at h <;> cases h
  · split at h <;> cases h
  · exact ⟨_, h⟩

/-- A label is in no table, so a member is no label. -/
theorem accessChange?_of_isMember (hr : r.pack = Language.cpp.pack) (h : r.isMember p = true) :
    r.accessChange? p.node = none := by
  rw [accessChange?, if_neg]
  intro hlabel
  rw [Bool.and_eq_true, beq_iff_eq, beq_iff_eq] at hlabel
  have hflags : r.flags p.node = ∅ := by
    have hkind : p.node.label.kind = "access_specifier" := hlabel.2
    rw [Reading.flags, hr, Pack.flags, hkind]
    split
    · exact label_tables.1
    · exact label_tables.2
  obtain ⟨f, hf⟩ := has_flags_of_isMember h
  rw [hflags, Category.has_empty] at hf
  cases hf

/-! ### What a class hears -/

theorem isPublic_of_sections (hr : r.pack = Language.cpp.pack) (n : Node) :
    r.isPublic n container access = access.getD (r.defaultAccess container) := by
  rw [isPublic, hr]
  rfl

/-- A class hears of a member once, with the access that it has then. -/
theorem filterMap_shown?_eventsAt (hr : r.pack = Language.cpp.pack)
    (h : r.InClass root container p) : (r.eventsAt root access p).filterMap Event.shown? =
      if r.isMember p then [(p.kind, access.getD (r.defaultAccess container))] else [] := by
  have hcategory : ∀ f, Category.token.has f = false →
      (r.categoryAt p).has f = (r.classify p).has f := fun _ hf =>
    has_categoryIn (s := r.surroundingsAt root p) hf
  rw [eventsAt, isMember]
  split
  · rw [methodEvent, h.kind, h.opener, isPublic_of_sections hr, hcategory .function rfl]
    cases (r.classify p).has .function <;> rfl
  · rw [nodeEvent, h.kind, h.opener, isPublic_of_sections hr]
    split
    · rename_i hempty
      rw [← hcategory .attribute rfl, hempty]
      rfl
    · rw [hcategory .attribute rfl]
      cases (r.classify p).has .attribute <;> rfl

theorem members_eq_map : ∀ before ps : List Place,
    r.members before ps = (r.members [] ps).map fun x => (before ++ x.1, x.2)
  | _, [] => rfl
  | before, p :: ps => by
      rw [members, members, members_eq_map (before ++ [p]) ps, members_eq_map ([] ++ [p]) ps]
      split <;> simp

theorem heard_cons (p : Place) (ps : List Place) : r.heard container access (p :: ps) =
    (if r.isMember p then [(p.kind, access.getD (r.defaultAccess container))] else []) ++
      r.heard container ((r.accessChange? p.node).or access) ps := by
  have hlater : ∀ x : List Place × Place,
      (r.lastLabel? ([] ++ [p] ++ x.1)).or access =
        (r.lastLabel? x.1).or ((r.accessChange? p.node).or access) := fun x => by
    rw [List.nil_append, lastLabel?_append, lastLabel?_singleton, Option.or_assoc]
  rw [heard, members, members_eq_map ([] ++ [p]) ps]
  split <;> simp only [List.map_cons, List.map_map, Function.comp_def, hlater] <;> rfl

/-- Labels are remembered from some places to the next. -/
theorem heard_append : ∀ (access : Option Bool) (ps qs : List Place),
    r.heard container access (ps ++ qs) = r.heard container access ps ++
      r.heard container ((r.lastLabel? ps).or access) qs
  | _, [], _ => rfl
  | access, p :: ps, qs => by
      rw [List.cons_append, heard_cons, heard_cons, heard_append _ ps qs, List.append_assoc,
        ← List.singleton_append (l := ps), lastLabel?_append, lastLabel?_singleton, Option.or_assoc]

/-- **A class hears of its members**, each with the access of the last label before it. -/
theorem filterMap_shown?_eventsAlong (hr : r.pack = Language.cpp.pack) :
    ∀ (access : Option Bool) (ps : List Place), (∀ p ∈ ps, r.InClass root container p) →
      (r.eventsAlong root access ps).filterMap Event.shown? = r.heard container access ps
  | _, [], _ => rfl
  | access, p :: ps, h => by
      have hp := h p List.mem_cons_self
      rw [eventsAlong, List.filterMap_append, filterMap_shown?_eventsAt hr hp,
        filterMap_shown?_eventsAlong hr _ ps fun q hq => h q (List.mem_cons_of_mem _ hq),
        heard_cons, accessAt_of_inClass hp]
      -- the frame takes the access after the place, but a member does not change it
      congr 1
      split
      · rename_i hm
        rw [accessChange?_of_isMember hr hm, Option.none_or]
      · rfl

/-! ### Head and body -/

theorem class_tables : ((Language.cpp.pack.kinds ++ Language.cpp.pack.tokens).all fun g =>
    !g.flags.has .class_ || g.kinds.all Language.cpp.pack.requiresBody.contains) = true := by
  decide +kernel

theorem has_class_of_ofCategory {c : Category} (h : SpaceKind.ofCategory c = .class_) :
    c.has .class_ = true := by
  unfold SpaceKind.ofCategory at h
  split_ifs at h with _ _ hclass
  exact hclass

/-- A class without a body would open no scope. -/
theorem exists_body (hr : r.pack = Language.cpp.pack) (ho : r.opensScope o = true)
    (hkind : SpaceKind.ofCategory (r.categoryAt o) = .class_) : ∃ b, o.body? = some b := by
  have hi := isEntered_of_opensScope ho
  have hclass : (r.classify o).has .class_ = true := by
    rw [← has_class_of_ofCategory hkind]
    exact (has_categoryIn (s := r.surroundingsAt o.node o) rfl).symm
  have hflags : (Language.cpp.pack.flags o.node.label).has .class_ = true := by
    rcases has_classify hclass with h | h | h | h
    · cases h
    · cases h
    · cases h
    · rwa [Reading.flags, hr] at h
  obtain ⟨g, hg, hkind, hgroup⟩ := Pack.exists_group_of_all hflags
  have hneeds : r.pack.requiresBody.contains o.kind = true := by
    have := List.all_eq_true.mp class_tables g hg
    rw [hgroup, Bool.not_true, Bool.false_or] at this
    rw [hr]
    exact List.all_eq_true.mp this _ hkind
  -- of the rules only the one for bodies is about the flag of a class
  rw [classify_eq_of_isEntered hi, has_laterRules (by decide), elseRule,
    Category.has_ite_diff_of_not (by decide), has_chainRule_of_ne (by decide) (by decide),
    bodyRule, hneeds, Bool.and_true] at hclass
  cases hb : o.body? with
  | some b => exact ⟨b, rfl⟩
  | none =>
      rw [← Place.map_node_body?, hb, Option.map_none, Option.isNone_none, Bool.and_true] at hclass
      split at hclass
      · rw [Category.has_diff, Bool.and_eq_true] at hclass
        exact absurd hclass.2 (by decide)
      · rename_i hmeets
        exact absurd (Category.meets_iff.mpr ⟨.class_, hclass, rfl⟩) hmeets

/-- The places of a class: those before its body, those in it and those after it. -/
theorem filter_at_body {b : Place} (hb : o.body? = some b) (mine : Place → Bool)
    (ho : mine o = false) :
    ∃ before after, o.children = before ++ b :: after ∧ o.subtree.filter mine =
      (before.flatMap Place.subtree).filter mine ++
        (b.subtree.filter mine ++ (after.flatMap Place.subtree).filter mine) := by
  obtain ⟨before, after, hchildren⟩ := List.append_of_mem (List.mem_of_find?_eq_some hb)
  refine ⟨before, after, hchildren, ?_⟩
  rw [Place.subtree_eq, List.filter_cons_of_neg (by rw [ho]; exact Bool.false_ne_true),
    Place.descendants, hchildren, List.flatMap_append, List.flatMap_cons, List.filter_append,
    List.filter_append]

/-- **A member has the access of the last label before it.**  For every source, set of macros and
tree: the frames of the walk are that of the unit and those of the reached scope openers.  A class
hears of its members in order, and of each that it is public as the last label says that belongs to
the class and comes before the member, or by default if there is none.  Labels in other scopes do
not belong to the class.  A class has a body.  A member of the body has the access of the last label
in the body before it; if there is none, that of the last label before the body, in the head of the
class; and by default if there is none either. -/
theorem members_follow_labels (source : Source) (macros : SortedSet String)
    (name : Option String) (root : Node) :
    let r : Reading := { pack := Language.cpp.pack, source, macros }
    (r.walk name root).draft.unit.bodies =
      r.unitBody name root :: (root.places.filter r.opensFrame).map (r.bodyAt root) ∧
    ∀ o ∈ root.places, r.opensFrame o = true → (r.bodyAt root o).scope.kind = .class_ →
      let mine := r.belongsTo (some o.address)
      (r.bodyAt root o).events.filterMap Event.shown? =
        r.heard o.node none (root.places.filter mine) ∧
      ∃ b before after, o.body? = some b ∧ o.children = before ++ b :: after ∧
        let head := (before.flatMap Place.subtree).filter mine
        let body := b.subtree.filter mine
        let rest := (after.flatMap Place.subtree).filter mine
        root.places.filter mine = head ++ (body ++ rest) ∧
        r.heard o.node none (root.places.filter mine) =
          r.heard o.node none head ++ (r.heard o.node (r.lastLabel? head) body ++
            r.heard o.node ((r.lastLabel? body).or (r.lastLabel? head)) rest) := by
  intro r
  have hr : r.pack = Language.cpp.pack := rfl
  refine ⟨bodies_eq_routing hr name root, fun o ho hopens hclass => ?_⟩
  intro mine
  rw [opensFrame, Bool.and_eq_true] at hopens
  have hkind : SpaceKind.ofCategory (r.categoryAt o) = .class_ := hclass
  refine ⟨?_, ?_⟩
  · have hplaces : ∀ p ∈ root.places.filter mine, r.InClass root o.node p := by
      intro p hp
      obtain ⟨hp, hbelongs⟩ := List.mem_filter.mp hp
      exact inClass_of_belongsTo ho hkind hp hbelongs
    have hstart : r.accessOf o = some (r.defaultAccess o.node) := by
      rw [accessOf, startAccess, if_pos hkind]
    -- a frame starts with the default, which is what `heard` falls back on
    rw [bodyAt, hstart, List.filterMap_cons_none rfl]
    refine (filterMap_shown?_eventsAlong hr _ _ hplaces).trans ?_
    refine List.map_congr_left fun x _ => ?_
    cases r.lastLabel? x.1 <;> rfl
  · obtain ⟨b, hb⟩ := exists_body hr hopens.2 hkind
    have hself : mine o = false := belongsTo_eq_false_of_ne fun h =>
      absurd (length_ownerAddress h).1 (Nat.lt_irrefl _)
    obtain ⟨before, after, hchildren, hplaces⟩ := filter_at_body hb mine hself
    have hmine := (filter_belongsTo_of_mem (p := .root root) ho).trans hplaces
    refine ⟨b, before, after, hb, hchildren, hmine, ?_⟩
    rw [show root.places.filter mine = _ from hmine, heard_append, heard_append, Option.or_none]

/-- In `class D : public B { int x; private: class C { public: int v; }; int y; };` the label of the
head makes `x` public and the label of the body hides what follows it; the label in `C` says nothing
of `y`. -/
theorem members_follow_labels_nested :
    let token (kind : String) (start stop : Nat) : Node :=
      .mk ⟨kind, false, false, start, stop, none⟩ []
    let node (kind : String) (start stop : Nat) (field : Option String) (cs : List Node) : Node :=
      .mk ⟨kind, true, false, start, stop, field⟩ cs
    let label (kind : String) (start stop : Nat) : Node :=
      node "access_specifier" start stop none [token kind start stop]
    let datum (start : Nat) : Node := node "field_declaration" start (start + 6) none
      [node "primitive_type" start (start + 3) (some "type") [],
        node "field_identifier" (start + 4) (start + 5) (some "declarator") [],
        token ";" (start + 5) (start + 6)]
    let inner := node "class_specifier" 37 63 (some "type")
      [token "class" 37 42, node "type_identifier" 43 44 (some "name") [],
        node "field_declaration_list" 45 63 (some "body")
          [label "public" 47 53, token ":" 53 54, datum 55]]
    let outer := node "class_specifier" 0 73 none
      [token "class" 0 5, node "type_identifier" 6 7 (some "name") [],
        node "base_class_clause" 8 18 none
          [token ":" 8 9, label "public" 10 16, node "type_identifier" 17 18 none []],
        node "field_declaration_list" 19 73 (some "body")
          [datum 21, label "private" 28 35, token ":" 35 36,
            node "field_declaration" 37 64 none [inner, token ";" 63 64], datum 65]]
    let root := node "translation_unit" 0 74 none [outer, token ";" 73 74]
    let r : Reading :=
      { pack := Language.cpp.pack
        source := .ofText
          "class D : public B \x7b int x; private: class C \x7b public: int v; \x7d; int y; \x7d;" }
    let o : Place := ⟨outer, [⟨root.label, [], [token ";" 73 74]⟩]⟩
    o ∈ root.places ∧ r.opensFrame o = true ∧ (r.bodyAt root o).scope.kind = .class_ ∧
      (r.bodyAt root o).events.filterMap Event.shown? =
        [("field_declaration", true), ("field_declaration", false),
          ("field_declaration", false)] := by
  intro token node label datum inner outer root r o
  have ho : o ∈ root.places := .tail _ (.head _)
  have hopens : r.opensFrame o = true := by decide +kernel
  have hclass : (r.bodyAt root o).scope.kind = .class_ := by decide +kernel
  have h := (members_follow_labels r.source ∅ none root).2 o ho hopens hclass
  exact ⟨ho, hopens, hclass, h.1.trans (by decide +kernel)⟩

/-- In `class D : public B { int x; };` no label is in the body, so `x` would be private, but the
label in the head makes it public. -/
theorem head_label_shows_member :
    let token (kind : String) (start stop : Nat) : Node :=
      .mk ⟨kind, false, false, start, stop, none⟩ []
    let node (kind : String) (start stop : Nat) (field : Option String) (cs : List Node) : Node :=
      .mk ⟨kind, true, false, start, stop, field⟩ cs
    let base := node "base_class_clause" 8 18 none
      [token ":" 8 9, node "access_specifier" 10 16 none [token "public" 10 16],
        node "type_identifier" 17 18 none []]
    let body := node "field_declaration_list" 19 29 (some "body")
      [token "\x7b" 19 20,
        node "field_declaration" 21 27 none
          [node "primitive_type" 21 24 (some "type") [],
            node "field_identifier" 25 26 (some "declarator") [], token ";" 26 27],
        token "\x7d" 28 29]
    let name := node "type_identifier" 6 7 (some "name") []
    let outer := node "class_specifier" 0 29 none [token "class" 0 5, name, base, body]
    let root := node "translation_unit" 0 30 none [outer, token ";" 29 30]
    let r : Reading :=
      { pack := Language.cpp.pack, source := .ofText "class D : public B \x7b int x; \x7d;" }
    let o : Place := ⟨outer, [⟨root.label, [], [token ";" 29 30]⟩]⟩
    let b : Place := ⟨body, ⟨outer.label, [base, name, token "class" 0 5], []⟩ :: o.above⟩
    let inside := b.subtree.filter (r.belongsTo (some o.address))
    o ∈ root.places ∧ r.opensFrame o = true ∧ (r.bodyAt root o).scope.kind = .class_ ∧
      o.body? = some b ∧ r.lastLabel? inside = none ∧ r.defaultAccess o.node = false ∧
      r.heard o.node none inside = [("field_declaration", false)] ∧
      (r.bodyAt root o).events.filterMap Event.shown? = [("field_declaration", true)] := by
  intro token node base body name outer root r o b inside
  exact ⟨.tail _ (.head _), by decide +kernel, by decide +kernel, rfl, by decide +kernel,
    by decide +kernel, by decide +kernel, by decide +kernel⟩

end Reading

end ScopeMetrics
