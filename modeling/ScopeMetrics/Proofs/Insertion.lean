import ScopeMetrics.Proofs.Likeness

/-!
# A node put into a tree

A node `x` that is of no interest to a walk, an error or a comment, is put between two children
somewhere in a tree (`Inserts`).  The walk passes over it, but some rules look at the children or at
the neighbours of a node without asking what they are.  `Overlooks` lists what such a rule would
have to find: where it holds, no rule reads `x`.

* `Inserts.field?`, `Inserts.first?`, `found_innerDeclarator?` and the like: what a rule looks up in
  a node is afterwards the same node, or the same node with `x` put into it (`Found`).
* **`readsAlike_of_inserts`**: the nodes above `x` read as before.
-/

namespace ScopeMetrics

/-! ### Inserting -/

/-- One node put between two children of a node in a tree; `spot` says where it may stand. -/
inductive Inserts (x : Node) (spot : Label → List Node → List Node → Prop) :
    Node → Node → Prop where
  | here {l : Label} {front back : List Node} (hfront : front ≠ []) (hback : back ≠ [])
      (hspot : spot l front back) :
      Inserts x spot (.mk l (front ++ back)) (.mk l (front ++ x :: back))
  | within {l : Label} {front back : List Node} {c d : Node} (h : Inserts x spot c d) :
      Inserts x spot (.mk l (front ++ c :: back)) (.mk l (front ++ d :: back))

/-- The same node, or one with `x` put into it. -/
def Grows (x : Node) (spot : Label → List Node → List Node → Prop) (n m : Node) : Prop :=
  n = m ∨ Inserts x spot n m

/-- The kinds of nodes that a walk passes over: errors, and what is a comment in some language. -/
def Language.inertKinds : List String := "ERROR" :: commentKinds

/-- Whether a node is of a kind that a walk passes over. -/
structure Node.IsInert (x : Node) : Prop where
  named : x.named = true
  kind : x.kind ∈ Language.inertKinds

/-- Whether a child is held under a field name. -/
def Label.isUnder (field : String) (l : Label) : Bool := l.field == some field

namespace Pack

/-- The names of the fields that some rule looks up. -/
def fieldNames (p : Pack) : List String :=
  ["body", "pattern", "left", "declarator", "parameters", "parameter", "name", "property"] ++
    p.nameFields.map Prod.snd

/-- Whether a word among the modifiers tells something about visibility. -/
def isAccessWord (p : Pack) (w : String) : Bool :=
  p.visibility.publicKeywords.any (Reading.startsWith w) || p.visibility.privateKeywords.contains w

end Pack

namespace Reading

/-- Whether a node is the bare token `else`. -/
def isElse (n : Node) : Bool := !n.named && n.kind == "else"

def isCode (r : Reading) (n : Node) : Bool := !(r.flags n).has .comment

/-- Whether no rule reads a node `x` that stands below `l` between `front` and `back`. -/
structure Overlooks (r : Reading) (x : Node) (l : Label) (front back : List Node) : Prop where
  /-- It is not looked up by a field name. -/
  field : ∀ f ∈ r.pack.fieldNames, x.label.isUnder f = false
  /-- It does not part an `else` from the if that continues the chain. -/
  chain : r.pack.elseContainers.contains l.kind = true ∨ front.getLast?.any isElse = false ∨
    back.head?.any (fun n => (r.flags n).has .branch && (r.flags n).has .nesting) = false
  /-- It is a comment, or does not come between an `else` token and an if. -/
  next : r.isCode x = false ∨
    (front.reverse.find? r.isCode).any (fun n => !n.named && (r.flags n).has .else_) = false ∨
    (back.find? r.isCode).any (fun n => r.pack.isBranch n.label) = false
  /-- It is not taken for the pattern of an arm. -/
  pattern : r.pack.wildcardArms.contains l.kind = true →
    front.any Node.named = true ∨ (front ++ back).any (·.label.isUnder "pattern") = true
  /-- It is not taken for the left operand of a logical operator. -/
  left : (front ++ back).any (fun n => (r.flags n).has .logical) = true →
    front.any Node.named = true ∨ (front ++ back).any (·.label.isUnder "left") = true
  /-- It is not taken for the declarator inside a reference. -/
  declarator : l.kind = "reference_declarator" →
    back.any Node.named = true ∨ (front ++ back).any (·.label.isUnder "declarator") = true
  /-- It is not taken for the value of an exit that has none. -/
  value : r.pack.valuedExits.contains l.kind = true → carriesValue (.mk l (front ++ back)) = true
  /-- It is not counted as a parameter. -/
  parameter : (r.pack.flags l).has .parameter = true → r.parametersOf x = 0
  /-- It is not read as a modifier. -/
  modifier : r.pack.visibility.modifierKinds.contains l.kind = true →
    r.pack.isAccessWord (Text.strip (r.text x)) = false

end Reading

/-! ### Inert kinds in the tables -/

namespace Language

theorem inertKinds_tables (lang : Language) :
    (inertKinds.all fun k => !(Group.flagsOf lang.pack.kinds k).has .branch &&
      !lang.pack.visibility.modifierKinds.contains k) = true := by
  cases lang <;> decide +kernel

end Language

namespace Node.IsInert

variable {x : Node} (hx : x.IsInert) {lang : Language}
include hx

/-- An inert node is of none of some other kinds. -/
theorem kind_ne {k : String} (hk : k ∉ Language.inertKinds) : x.kind ≠ k :=
  fun h => hk (h ▸ hx.kind)

theorem not_branch : lang.pack.isBranch x.label = false := by
  have h := List.all_eq_true.mp lang.inertKinds_tables _ hx.kind
  rw [Bool.and_eq_true, Bool.not_eq_true'] at h
  have hnamed : x.label.named = true := hx.named
  rw [Pack.isBranch, Pack.flags, if_pos hnamed, hnamed, Bool.true_and]
  exact h.1

theorem not_modifier : lang.pack.visibility.modifierKinds.contains x.kind = false := by
  have h := List.all_eq_true.mp lang.inertKinds_tables _ hx.kind
  rw [Bool.and_eq_true, Bool.not_eq_true', Bool.not_eq_true'] at h
  exact h.2

end Node.IsInert

/-! ### Looking up -/

section

variable {x : Node} {spot : Label → List Node → List Node → Prop} {n m c d : Node}
  {front back : List Node} {q : Label → Bool}

theorem Inserts.label (h : Inserts x spot n m) : n.label = m.label := by
  cases h <;> rfl

theorem Grows.label (h : Grows x spot n m) : n.label = m.label := by
  rcases h with rfl | h
  · rfl
  · exact h.label

/-- What looking up gives, before and after. -/
abbrev Found (x : Node) (spot : Label → List Node → List Node → Prop) :
    Option Node → Option Node → Prop :=
  Option.Rel (Grows x spot)

namespace Found

theorem refl : ∀ o : Option Node, Found x spot o o
  | none => .none
  | some _ => .some (.inl rfl)

theorem orElse {o o' u u' : Option Node} (h : Found x spot o o') (hu : Found x spot u u') :
    Found x spot (o.orElse fun _ => u) (o'.orElse fun _ => u') := by
  cases h with
  | none => exact hu
  | some h => exact .some h

theorem bind {o o' : Option Node} (h : Found x spot o o') {f : Node → Option Node}
    (hf : ∀ n m, o = some n → Grows x spot n m → Found x spot (f n) (f m)) :
    Found x spot (o.bind f) (o'.bind f) := by
  cases h with
  | none => exact .none
  | some h => exact hf _ _ rfl h

theorem map {o o' : Option Node} (h : Found x spot o o') {f : Node → Node}
    (hf : ∀ n m, Grows x spot n m → Grows x spot (f n) (f m)) :
    Found x spot (o.map f) (o'.map f) := by
  cases h with
  | none => exact .none
  | some h => exact .some (hf _ _ h)

/-- A question about the label has the same answer. -/
theorem map_label {α : Type} {o o' : Option Node} (h : Found x spot o o') (f : Label → α) :
    o.map (fun n => f n.label) = o'.map fun n => f n.label := by
  cases h with
  | none => rfl
  | some h => exact congrArg (fun l => some (f l)) h.label

theorem any_label {o o' : Option Node} (h : Found x spot o o') :
    o.any (fun n => q n.label) = o'.any fun n => q n.label := by
  cases h with
  | none => rfl
  | some h => exact congrArg q h.label

theorem isNone {o o' : Option Node} (h : Found x spot o o') : o.isNone = o'.isNone := by
  cases h <;> rfl

/-- Among children of which one comes before the new one. -/
theorem find?_of_any (h : (front.any fun n => q n.label) = true) (back back' : List Node) :
    Found x spot ((front ++ back).find? fun n => q n.label)
      ((front ++ back').find? fun n => q n.label) := by
  obtain ⟨a, ha⟩ := Option.isSome_iff_exists.mp (List.find?_isSome.mpr (List.any_eq_true.mp h))
  rw [List.find?_append, List.find?_append, ha]
  exact refl _

/-- Among children of which one has grown. -/
theorem find?_grown (h : Inserts x spot c d) (front back : List Node) :
    Found x spot ((front ++ c :: back).find? fun n => q n.label)
      ((front ++ d :: back).find? fun n => q n.label) := by
  rw [List.find?_append, List.find?_append, List.find?_cons, List.find?_cons, ← h.label]
  cases front.find? fun n => q n.label with
  | some a => exact refl _
  | none =>
      cases q c.label with
      | true => exact .some (.inr h)
      | false => exact refl _

end Found

namespace Inserts

/-- Among the children of a node, if the new one is not looked for. -/
theorem find? (h : Inserts x spot n m) (hx : q x.label = false) :
    Found x spot (n.children.find? fun n => q n.label) (m.children.find? fun n => q n.label) := by
  cases h with
  | @here l front back =>
      have : (front ++ x :: back).find? (fun n => q n.label) =
          (front ++ back).find? fun n => q n.label := by
        rw [List.find?_append, List.find?_append, List.find?_cons_of_neg (by simp [hx])]
      simp only [Node.children, this]
      exact .refl _
  | within h => exact Found.find?_grown h _ _

theorem field? (h : Inserts x spot n m) {field : String} (hx : x.label.isUnder field = false) :
    Found x spot (n.field? field) (m.field? field) :=
  h.find? hx

/-- Whether one of the children has a property that `x` has not, and that no node gets or loses
when `x` is put into it. -/
theorem any (h : Inserts x spot n m) {p : Node → Bool} (hx : p x = false)
    (hgrown : ∀ {c d}, Inserts x spot c d → p c = p d) : n.children.any p = m.children.any p := by
  cases h with
  | here => simp [Node.children, hx]
  | within h => simp [Node.children, hgrown h]

theorem any_label (h : Inserts x spot n m) (hx : q x.label = false) :
    (n.children.any fun n => q n.label) = m.children.any fun n => q n.label :=
  h.any hx fun h => congrArg q h.label

theorem length_filter (h : Inserts x spot n m) (hx : q x.label = false) :
    (n.children.filter fun n => q n.label).length =
      (m.children.filter fun n => q n.label).length := by
  cases h with
  | here => simp [Node.children, hx]
  | within h =>
      simp only [Node.children, List.filter_append, List.filter_cons, h.label, List.length_append]
      split <;> rfl

theorem isLeaf (h : Inserts x spot n m) : n.isLeaf = m.isLeaf := by
  cases h with
  | here hfront =>
      obtain ⟨a, front, rfl⟩ := List.exists_cons_of_ne_nil hfront
      rfl
  | @within l front back =>
      cases front <;> rfl

/-- The first child keeps its label. -/
theorem head? (h : Inserts x spot n m) : Found x spot n.children.head? m.children.head? := by
  cases h with
  | @here l front back hfront =>
      obtain ⟨a, front, rfl⟩ := List.exists_cons_of_ne_nil hfront
      exact .refl _
  | @within l front back c d h =>
      cases front with
      | nil => exact .some (.inr h)
      | cons a front => exact .refl _

/-- The child under a field, or else another one. -/
theorem orElse_field? (h : Inserts x spot n m) {field : String} (hx : x.label.isUnder field = false)
    {u u' : Option Node}
    (hu : (n.children.any fun c => c.label.isUnder field) = true ∨ Found x spot u u') :
    Found x spot ((n.field? field).orElse fun _ => u) ((m.field? field).orElse fun _ => u') := by
  have hfield := h.field? hx
  rcases hu with hunder | hu
  -- the child under the field is there, so the other one does not matter
  · obtain ⟨a, ha⟩ := Option.isSome_iff_exists.mp
      (List.find?_isSome.mpr (List.any_eq_true.mp hunder))
    have hn : n.field? field = some a := ha
    rw [hn] at hfield ⊢
    generalize m.field? field = o at hfield
    cases hfield with
    | some h => exact .some h
  · exact hfield.orElse hu

/-- The child under a field, or else the first named one. -/
theorem first? (h : Inserts x spot n m) {field : String} (hx : x.label.isUnder field = false)
    (hspot : ∀ {front back}, n.children = front ++ back → spot n.label front back →
      front.any Node.named = true ∨ (front ++ back).any (·.label.isUnder field) = true) :
    Found x spot ((n.field? field).orElse fun _ => n.namedChildren.head?)
      ((m.field? field).orElse fun _ => m.namedChildren.head?) := by
  refine h.orElse_field? hx ?_
  rw [Node.namedChildren, Node.namedChildren, List.head?_filter, List.head?_filter]
  cases h with
  | here _ _ hs =>
      exact (hspot rfl hs).symm.imp_right fun h => Found.find?_of_any (q := Label.named) h _ _
  | within h => exact .inr (Found.find?_grown (q := Label.named) h _ _)

end Inserts

end

/-! ### Declarations -/

namespace Reading

variable {r : Reading} {x n m : Node} {lang : Language}

/-- The fields that rules look up are not those of `x`. -/
theorem field_of_inserts (h : Inserts x (r.Overlooks x) n m) :
    ∀ f ∈ r.pack.fieldNames, x.label.isUnder f = false := by
  induction h with
  | here _ _ hspot => exact hspot.field
  | within _ ih => exact ih

/-- The field names that all packs have in common. -/
theorem mem_fieldNames {f : String} (h : f ∈ ["body", "pattern", "left", "declarator", "parameters",
    "parameter", "name", "property"]) : f ∈ r.pack.fieldNames :=
  List.mem_append_left _ h

theorem found_field? (h : Inserts x (r.Overlooks x) n m) {f : String} (hf : f ∈ r.pack.fieldNames) :
    Found x (r.Overlooks x) (n.field? f) (m.field? f) :=
  h.field? (field_of_inserts h f hf)

/-- The declarator inside a declarator is found again.  That of a reference is the last named
child, so the children are read from behind. -/
theorem found_innerDeclarator? (h : Inserts x (r.Overlooks x) n m) :
    Found x (r.Overlooks x) (innerDeclarator? n) (innerDeclarator? m) := by
  have hkind : m.kind = n.kind := (congrArg Label.kind h.label).symm
  have hfield := field_of_inserts h _ (mem_fieldNames (f := "declarator") (by decide))
  rw [innerDeclarator?, innerDeclarator?, hkind]
  refine h.orElse_field? hfield ?_
  split
  · rename_i hk
    rw [Node.namedChildren, Node.namedChildren, List.getLast?_eq_head?_reverse,
      List.getLast?_eq_head?_reverse, ← List.filter_reverse, ← List.filter_reverse,
      List.head?_filter, List.head?_filter]
    cases h with
    | here _ _ hspot =>
        refine (hspot.declarator (eq_of_beq hk)).symm.imp_right fun hnamed => ?_
        rw [← List.any_reverse] at hnamed
        simp only [Node.children, List.reverse_append, List.reverse_cons, List.append_assoc]
        exact Found.find?_of_any (q := Label.named) hnamed _ _
    | within h =>
        simp only [Node.children, List.reverse_append, List.reverse_cons, List.append_assoc,
          List.singleton_append]
        exact .inr (Found.find?_grown (q := Label.named) h _ _)
  · exact .inr (.refl _)

theorem declaredName_of_none (h : innerDeclarator? n = none) : declaredName n = n := by
  rw [declaredName]
  split
  · rfl
  · simp_all

theorem declaredName_of_some {d : Node} (h : innerDeclarator? n = some d) :
    declaredName n = declaredName d := by
  rw [declaredName]
  split <;> simp_all

/-- The declared name is found again, at the end of the declarators. -/
theorem grows_declaredName (n : Node) : ∀ {m : Node}, Grows x (r.Overlooks x) n m →
    Grows x (r.Overlooks x) (declaredName n) (declaredName m) := by
  -- along the declarators of `n`; those of `m` go on exactly as long
  induction n using declaredName.induct with
  | case1 n hn =>
      rintro m (rfl | h)
      · exact .inl rfl
      · have hfound := found_innerDeclarator? h
        rw [hn] at hfound
        generalize hm : innerDeclarator? m = o at hfound
        cases hfound
        rw [declaredName_of_none hn, declaredName_of_none hm]
        exact .inr h
  | case2 n d hn ih =>
      rintro m (rfl | h)
      · exact .inl rfl
      · have hfound := found_innerDeclarator? h
        rw [hn] at hfound
        generalize hm : innerDeclarator? m = o at hfound
        cases hfound with
        | some h =>
            rw [declaredName_of_some hn, declaredName_of_some hm]
            exact ih h

theorem nameField_mem (p : Pack) (kind : String) :
    (p.nameFields.lookup kind).getD "name" ∈ p.fieldNames := by
  cases h : p.nameFields.lookup kind with
  | none => exact List.mem_append_left _ (by decide)
  | some f =>
      obtain ⟨_, _, hsplit, -⟩ := List.lookup_eq_some_iff.mp h
      refine List.mem_append_right _ (List.mem_map.mpr ⟨(kind, f), ?_, rfl⟩)
      rw [hsplit]
      exact List.mem_append_right _ List.mem_cons_self

/-- The node that holds a name is found again. -/
theorem found_nameNode? (h : Inserts x (r.Overlooks x) n m) (c : Category) :
    Found x (r.Overlooks x) (r.nameNode? n c) (r.nameNode? m c) := by
  have hkind : m.kind = n.kind := (congrArg Label.kind h.label).symm
  rw [nameNode?, nameNode?, hkind]
  split
  · exact found_field? h (mem_fieldNames (by decide))
  · refine (found_field? h (nameField_mem r.pack n.kind)).orElse ?_
    exact (found_field? h (mem_fieldNames (by decide))).map fun n _ => grows_declaredName n

theorem spaceName_of_inserts (h : Inserts x (r.Overlooks x) n m) (c : Category) :
    r.spaceName n c = r.spaceName m c := by
  have hfound := found_nameNode? h c
  rw [spaceName, spaceName]
  generalize r.nameNode? n c = o at hfound
  generalize r.nameNode? m c = o' at hfound
  cases hfound with
  | none => rfl
  | @some a b h =>
      have htext : r.text a = r.text b := congrArg r.source.text h.label
      simp only [htext]

/-! ### Parameters -/

theorem declaredParameters?_eq (n : Node) : declaredParameters? n =
    (n.field? "parameters").orElse fun _ => (n.field? "declarator").bind declaredParameters? := by
  rw [declaredParameters?]
  cases n.field? "parameters" with
  | some ps => rfl
  | none =>
      simp only [Option.orElse_none]
      split <;> simp_all

/-- The parameter list along declarators is found again. -/
theorem found_declaredParameters? {n m : Node} (h : Grows x (r.Overlooks x) n m) :
    Found x (r.Overlooks x) (declaredParameters? n) (declaredParameters? m) := by
  rcases h with rfl | h
  · exact .refl _
  · rw [declaredParameters?_eq n, declaredParameters?_eq m]
    exact (found_field? h (mem_fieldNames (by decide))).orElse
      ((found_field? h (mem_fieldNames (by decide))).bind fun d e _hd hde =>
        found_declaredParameters? hde)
termination_by n.size
decreasing_by exact Node.size_lt_of_field? _hd

theorem found_parameters? (h : Inserts x (r.Overlooks x) n m) :
    Found x (r.Overlooks x) (parameters? n) (parameters? m) :=
  (found_field? h (mem_fieldNames (by decide))).orElse
    ((found_field? h (mem_fieldNames (by decide))).orElse
      ((found_field? h (mem_fieldNames (by decide))).bind fun _ _ _ => found_declaredParameters?))

theorem parametersOf_of_inserts (h : Inserts x (r.Overlooks x) n m) :
    r.parametersOf n = r.parametersOf m := by
  have hkind : n.kind = m.kind := congrArg Label.kind h.label
  have htext : r.text n = r.text m := congrArg r.source.text h.label
  have hnames : (n.fields "name").length = (m.fields "name").length :=
    h.length_filter (field_of_inserts h _ (mem_fieldNames (by decide)))
  rw [parametersOf, parametersOf, hkind, htext, hnames]

/-- A parameter list declares as many parameters as before. -/
theorem sum_parametersOf (hx : x.IsInert) (h : Inserts x (r.Overlooks x) n m)
    (hn : (r.flags n).has .parameter = true) :
    (n.namedChildren.map r.parametersOf).foldr (· + ·) 0 =
      (m.namedChildren.map r.parametersOf).foldr (· + ·) 0 := by
  cases h with
  | here _ _ hspot =>
      simp [Node.namedChildren, Node.children, hx.named, hspot.parameter hn]
  | @within l front back c d h =>
      have hnamed : c.named = d.named := congrArg Label.named h.label
      simp only [Node.namedChildren, Node.children, List.filter_append, List.filter_cons, hnamed]
      split <;> simp [parametersOf_of_inserts h]

theorem arity_of_inserts (hx : x.IsInert) (h : Inserts x (r.Overlooks x) n m) :
    r.arity n = r.arity m := by
  have hfound := found_parameters? h
  rw [arity, arity]
  generalize parameters? n = o at hfound
  generalize parameters? m = o' at hfound
  cases hfound with
  | none => rfl
  | @some ps qs h =>
      rcases h with rfl | h
      · rfl
      · have hflags : r.flags ps = r.flags qs := congrArg r.pack.flags h.label
        simp only [← hflags]
        split
        · exact sum_parametersOf hx h ‹_›
        · rfl

/-! ### Visibility -/

theorem memberName?_eq (n : Node) : memberName? n =
    (["name", "property", "left"].findSome? n.field?).orElse fun _ =>
      (variableDeclarator? n).bind memberName? := by
  rw [memberName?]
  cases ["name", "property", "left"].findSome? n.field? with
  | some m => rfl
  | none =>
      simp only [Option.orElse_none]
      split <;> simp_all

theorem found_findSome? (h : Inserts x (r.Overlooks x) n m) : ∀ fs : List String,
    (∀ f ∈ fs, f ∈ r.pack.fieldNames) →
      Found x (r.Overlooks x) (fs.findSome? n.field?) (fs.findSome? m.field?)
  | [], _ => .none
  | f :: fs, hfs => by
      have hfound := found_field? h (hfs f List.mem_cons_self)
      have hrest := found_findSome? h fs fun g hg => hfs g (List.mem_cons_of_mem f hg)
      rw [List.findSome?_cons, List.findSome?_cons]
      generalize n.field? f = o at hfound
      generalize m.field? f = o' at hfound
      cases hfound with
      | none => exact hrest
      | some h => exact .some h

theorem found_variableDeclarator? (hx : x.IsInert) (h : Inserts x (r.Overlooks x) n m) :
    Found x (r.Overlooks x) (variableDeclarator? n) (variableDeclarator? m) := by
  rw [variableDeclarator?, variableDeclarator?, Node.namedChildren, Node.namedChildren,
    List.find?_filter, List.find?_filter]
  refine h.find? (q := fun l => decide (l.named = true ∧
    (l.kind == "variable_declarator" || l.kind == "variable_declaration") = true)) ?_
  have h1 := hx.kind_ne (k := "variable_declarator") (by decide)
  have h2 := hx.kind_ne (k := "variable_declaration") (by decide)
  simpa [Node.kind] using fun _ => ⟨h1, h2⟩

/-- The name of a member is found again. -/
theorem found_memberName? (hx : x.IsInert) {n m : Node} (h : Grows x (r.Overlooks x) n m) :
    Found x (r.Overlooks x) (memberName? n) (memberName? m) := by
  rcases h with rfl | h
  · exact .refl _
  · rw [memberName?_eq n, memberName?_eq m]
    exact (found_findSome? h _ fun f hf => mem_fieldNames (by revert f; decide)).orElse
      ((found_variableDeclarator? hx h).bind fun d e _hd hde => found_memberName? hx hde)
termination_by n.size
decreasing_by exact Node.size_lt_of_mem (mem_of_variableDeclarator? _hd)

/-- Whether a node is a modifier, and it or one of its parts is a word of some sort. -/
def isModifier (r : Reading) (sort : String → Bool) (n : Node) : Bool :=
  r.pack.visibility.modifierKinds.contains n.kind &&
    (sort (Text.strip (r.text n)) || n.children.any fun c => sort (Text.strip (r.text c)))

theorem any_modifierWords (r : Reading) (sort : String → Bool) (n : Node) :
    (r.modifierWords n).any sort = n.children.any (r.isModifier sort) := by
  rw [modifierWords, List.any_flatMap, List.any_filter]
  refine congrArg (List.any _) (funext fun c => ?_)
  rw [isModifier, List.any_cons, List.any_map]
  rfl

theorem isModifier_of_inserts {sort : String → Bool}
    (hsort : ∀ w, r.pack.isAccessWord w = false → sort w = false)
    (h : Inserts x (r.Overlooks x) n m) : r.isModifier sort n = r.isModifier sort m := by
  have hkind : n.kind = m.kind := congrArg Label.kind h.label
  have htext : r.text n = r.text m := congrArg r.source.text h.label
  rw [isModifier, isModifier, hkind, htext]
  cases hk : r.pack.visibility.modifierKinds.contains m.kind with
  | false => rfl
  | true =>
      have hparts : (n.children.any fun c => sort (Text.strip (r.text c))) =
          m.children.any fun c => sort (Text.strip (r.text c)) := by
        cases h with
        | here _ _ hspot => simp [Node.children, hsort _ (hspot.modifier hk)]
        | within h => simp [Node.children, text, h.label]
      rw [hparts]

/-- A member is public exactly if it was before. -/
theorem isPublic_of_inserts (hr : r.pack = lang.pack) (hx : x.IsInert)
    (h : Inserts x (r.Overlooks x) n m) (container : Node) (access : Option Bool) :
    r.isPublic n container access = r.isPublic m container access := by
  have hname := found_memberName? hx (.inr h)
  have htext : (memberName? n).map r.text = (memberName? m).map r.text :=
    hname.map_label r.source.text
  have hhidden : ((memberName? n).any fun a => r.pack.visibility.privateNameKinds.contains a.kind) =
      (memberName? m).any fun a => r.pack.visibility.privateNameKinds.contains a.kind :=
    hname.any_label (q := fun l => r.pack.visibility.privateNameKinds.contains l.kind)
  -- modifiers are only asked for words that tell about access, and `x` is none
  have hwords : ∀ sort : String → Bool, (∀ w, r.pack.isAccessWord w = false → sort w = false) →
      (r.modifierWords n).any sort = (r.modifierWords m).any sort := fun sort hsort => by
    rw [any_modifierWords, any_modifierWords]
    refine h.any ?_ fun h => isModifier_of_inserts hsort h
    rw [isModifier, hr, hx.not_modifier, Bool.false_and]
  have hpublic := hwords (fun w => r.pack.visibility.publicKeywords.any (startsWith w)) fun w hw =>
    (Bool.or_eq_false_iff.mp hw).1
  have hprivate := hwords r.pack.visibility.privateKeywords.contains fun w hw =>
    (Bool.or_eq_false_iff.mp hw).2
  simp only [isPublic, htext, hhidden, hpublic, hprivate]

/-! ### What is read of a node -/

theorem isWildcardArm_of_inserts (h : Inserts x (r.Overlooks x) n m)
    (hn : r.pack.wildcardArms.contains n.kind = true) : r.isWildcardArm n = r.isWildcardArm m := by
  have hfound : Found x (r.Overlooks x) (pattern? n) (pattern? m) :=
    h.first? (field_of_inserts h _ (mem_fieldNames (by decide))) fun _ hspot => hspot.pattern hn
  exact hfound.any_label (q := fun l => Text.strip (r.source.text l) == "_")

theorem carriesValue_of_inserts (hx : x.IsInert) (h : Inserts x (r.Overlooks x) n m)
    (hn : r.pack.valuedExits.contains n.kind = true) : carriesValue n = carriesValue m := by
  have hlabel : (x.kind != "label") = true := bne_iff_ne.mpr (hx.kind_ne (by decide))
  cases h with
  | here _ _ hspot =>
      rw [hspot.value hn]
      simp [carriesValue, Node.namedChildren, Node.children, hx.named, hlabel]
  | within h =>
      have hkind := congrArg Label.kind h.label
      have hnamed := congrArg Label.named h.label
      simp only [carriesValue, Node.namedChildren, Node.children, List.any_filter, List.any_append,
        List.any_cons, Node.named, Node.kind, hkind, hnamed]

/-- A node into which `x` is put reads as before. -/
theorem readsAlike_of_inserts (hr : r.pack = lang.pack) (hx : x.IsInert)
    (h : Inserts x (r.Overlooks x) n m) : r.ReadsAlike n m where
  label := congrArg Label.bare h.label
  leaf := h.isLeaf
  body := (found_field? h (mem_fieldNames (by decide))).isNone
  defaultLabel := h.head?.any_label
    (q := fun l => l.kind == "default" || l.kind == "default_switch_label")
  wildcard := isWildcardArm_of_inserts h
  value := by
    refine h.any_label
      (q := fun l => (!l.named && l.kind == "=") || l.kind == "equals_value_clause") ?_
    have hk := hx.kind_ne (k := "equals_value_clause") (by decide)
    have hn := hx.named
    simp_all [Node.kind, Node.named]
  exitValue := carriesValue_of_inserts hx h
  method := (found_field? h (mem_fieldNames (by decide))).any_label
    (q := fun l => r.pack.methodDeclarators.contains l.kind)
  name := spaceName_of_inserts h
  arity := arity_of_inserts hx h
  visible := isPublic_of_inserts hr hx h

end Reading

end ScopeMetrics
