import ScopeMetrics.Analysis
import ScopeMetrics.Proofs.Blurring

/-!
# What known macros change

The names known to be macros enter a walk in one place: a named leaf with such a name is an operator
and not an operand.  No other metric asks which of the two a token is, so an analysis that knows
macros differs from one that knows none in its Halstead measures and in the index derived from them.
There every use of a macro has moved from the operands to the operators.

* `Reading.tokenOf?_withoutMacros`: which nodes are moved.
* `Reading.blurred_walk`: a walk is the same with and without macros, up to which tokens are
  operators.
* `Reading.exchanges_walk`: what its spaces exchange.
* **`Session.macros_move_operands`**: what macros change in an analysis, in every language.
-/

namespace ScopeMetrics

namespace Reading

variable {r : Reading} {p : Place} {lang : Language} {c d : Category}

/-! ### Classification without macros -/

/-- The reading that knows no macros. -/
def withoutMacros (r : Reading) : Reading := { r with macros := ∅ }

theorem alike_chainRule (h : c.Alike d) : (r.chainRule p c).Alike (r.chainRule p d) := by
  intro f hf
  unfold chainRule
  rw [h .branch rfl, h .nesting rfl]
  split
  · rw [Category.has_union, Category.has_union, Category.has_diff, Category.has_diff, h f hf]
  · exact h f hf

/-- None of the later rules asks for the flag of a token. -/
theorem alike_laterRules (h : c.Alike d) : (r.laterRules p c).Alike (r.laterRules p d) := by
  -- each rule takes flags away on a condition that asks for one flag, and never for a token's
  have hbody : (r.bodyRule p c).Alike (r.bodyRule p d) := h.ite_diff (by rw [h.meets_scope]) _
  have hchain := alike_chainRule (r := r) (p := p) hbody
  have helse : (r.elseRule p _).Alike (r.elseRule p _) :=
    hchain.ite_diff (by rw [hchain .else_ rfl]) _
  have hcomparison : (r.comparisonRule p _).Alike (r.comparisonRule p _) :=
    helse.ite_diff (by rw [helse .condition rfl]) _
  have hdefault : (r.defaultTokenRule p _).Alike (r.defaultTokenRule p _) :=
    hcomparison.ite_diff (by rw [hcomparison .condition rfl]) _
  have hlabel : (r.defaultLabelRule p _).Alike (r.defaultLabelRule p _) :=
    hdefault.ite_diff (by rw [hdefault .decision rfl]) _
  have hwildcard : (r.wildcardRule p _).Alike (r.wildcardRule p _) :=
    hlabel.ite_diff (by rw [hlabel .decision rfl]) _
  have hassignment : (r.assignmentRule p _).Alike (r.assignmentRule p _) :=
    hwildcard.ite_diff (by rw [hwildcard .assignment rfl]) _
  have hexit : (r.exitRule p _).Alike (r.exitRule p _) :=
    hassignment.ite_diff (by rw [hassignment .exit rfl]) _
  exact hexit.ite_diff (by rw [hexit .attribute rfl]) _

theorem isEntered_withoutMacros (r : Reading) (p : Place) :
    r.withoutMacros.isEntered p = r.isEntered p := by
  have hflags : r.withoutMacros.flags p.node = r.flags p.node := rfl
  unfold isEntered
  cases he : p.node.isError with
  | true => rw [Bool.not_true, Bool.false_and, Bool.false_and]
  | false => rw [has_comment_classify he, has_comment_classify he, hflags]

/-- What is not entered is an error or a comment, whatever the macros. -/
theorem classify_withoutMacros_of_not_entered (hi : r.isEntered p = false) :
    r.withoutMacros.classify p = r.classify p := by
  cases he : p.node.isError with
  | true => rw [classify_of_isError he, classify_of_isError he]
  | false =>
      have hc : (r.classify p).has .comment = true := by
        rwa [isEntered, he, Bool.not_false, Bool.true_and, Bool.not_eq_false'] at hi
      have hc' : (r.withoutMacros.classify p).has .comment = true := by
        rw [has_comment_classify he] at hc ⊢
        exact hc
      rw [classify_eq_comment hc, classify_eq_comment hc']

/-- Macros change no flag but those of tokens. -/
theorem alike_classify (r : Reading) (p : Place) :
    (r.classify p).Alike (r.withoutMacros.classify p) := by
  cases hi : r.isEntered p with
  | true =>
      have hi' := (r.isEntered_withoutMacros p).trans hi
      rw [classify_eq_laterRules (isError_of_isEntered hi) (not_comment_of_isEntered hi),
        classify_eq_laterRules (isError_of_isEntered hi') (not_comment_of_isEntered hi')]
      refine alike_laterRules (r := r) (p := p) fun f hf => ?_
      rw [has_tokenRule_of_not hf, has_tokenRule_of_not hf]
      rfl
  | false =>
      intro f _
      rw [classify_withoutMacros_of_not_entered hi]

theorem opensScope_withoutMacros (r : Reading) (p : Place) :
    r.withoutMacros.opensScope p = r.opensScope p :=
  (r.alike_classify p).meets_scope.symm

/-- Whether a node is a named leaf with the name of a known macro. -/
def namesMacro (r : Reading) (n : Node) : Bool :=
  n.named && n.isLeaf && !r.isComposite n && r.isMacro n

theorem isMacro_withoutMacros (r : Reading) (n : Node) : r.withoutMacros.isMacro n = false := by
  rw [isMacro, Bool.and_eq_false_iff, Bool.eq_false_iff, Bool.eq_false_iff]
  exact .inr fun h => SortedSet.not_mem_empty (SortedSet.contains_iff.mp h)

/-- Macros move named leaves with their names from the operands to the operators, and nothing
else. -/
theorem tokenOf?_withoutMacros (r : Reading) (n : Node) :
    r.tokenOf? n = (r.withoutMacros.tokenOf? n).map fun t =>
      { t with isOperator := t.isOperator || r.namesMacro n } := by
  have hcomposite : r.withoutMacros.isComposite n = r.isComposite n := rfl
  have hflags : r.withoutMacros.flags n = r.flags n := rfl
  unfold tokenOf? namesMacro
  rw [hcomposite, hflags, isMacro_withoutMacros]
  split_ifs with hc hl hn hp
  · simp [hc, text, withoutMacros]
  · rfl
  · rw [Bool.not_eq_true] at hc hl
    rw [Bool.not_eq_false'] at hl
    simp [hc, hl, hn, text, withoutMacros]
  · rfl
  · simp [hn, text, withoutMacros]

/-- What is moved was an operand. -/
theorem tokenOf?_of_namesMacro {n : Node} (h : r.namesMacro n = true) :
    r.withoutMacros.tokenOf? n = some ⟨false, r.text n⟩ := by
  have hcomposite : r.withoutMacros.isComposite n = r.isComposite n := rfl
  rw [namesMacro, Bool.and_eq_true, Bool.and_eq_true, Bool.and_eq_true, Bool.not_eq_true'] at h
  obtain ⟨⟨⟨hnamed, hleaf⟩, hc⟩, -⟩ := h
  unfold tokenOf?
  rw [hcomposite, hc, hleaf, hnamed, isMacro_withoutMacros]
  rfl

/-- Macros make no token, and take none away. -/
theorem meets_token_withoutMacros (hr : r.pack = lang.pack) (p : Place) :
    (r.classify p).meets .token = (r.withoutMacros.classify p).meets .token := by
  cases hi : r.isEntered p with
  | true =>
      have hr' : r.withoutMacros.pack = lang.pack := hr
      have hi' := (r.isEntered_withoutMacros p).trans hi
      rw [meets_token_classify hr hi, meets_token_classify hr' hi', tokenOf?_withoutMacros,
        Option.isSome_map]
  | false => rw [classify_withoutMacros_of_not_entered hi]

/-! ### A visit without macros -/

theorem alike_categoryIn (r : Reading) (s : Surroundings) (p : Place) :
    (r.categoryIn s p).Alike (r.withoutMacros.categoryIn s p) := by
  unfold categoryIn
  exact (r.alike_classify p).ite_diff rfl _

theorem meets_token_categoryIn (hr : r.pack = lang.pack) (s : Surroundings) (p : Place) :
    (r.categoryIn s p).meets .token = (r.withoutMacros.categoryIn s p).meets .token := by
  unfold categoryIn
  split
  · simp [Category.token]
  · exact meets_token_withoutMacros hr p

section

variable {n : Node} (h : c.Alike d)
include h

theorem ofCategory_alike : SpaceKind.ofCategory c = SpaceKind.ofCategory d := by
  rw [SpaceKind.ofCategory, SpaceKind.ofCategory, h .function rfl, h .closure rfl, h .class_ rfl,
    h .module rfl]

theorem spaceName_alike : r.spaceName n c = r.withoutMacros.spaceName n d := by
  have hname : r.nameNode? n c = r.withoutMacros.nameNode? n d := by
    rw [nameNode?, nameNode?, h .closure rfl]
    rfl
  rw [spaceName, spaceName, hname]
  rfl

theorem scopeOf_alike : r.scopeOf n c = r.withoutMacros.scopeOf n d := by
  rw [scopeOf, scopeOf, ofCategory_alike h, spaceName_alike h]
  rfl

theorem openingEvent_alike : r.openingEvent n c = r.withoutMacros.openingEvent n d := by
  have hscope : c ∩ .scope = d ∩ .scope := by
    refine Category.ext_has fun f => ?_
    rw [Category.has_inter, Category.has_inter]
    cases hf : Category.token.has f with
    | false => rw [h f hf]
    | true =>
        have hnot : Category.scope.has f = false := by
          rw [Bool.eq_false_iff]
          intro hscope
          rw [Category.not_token_of_scope hscope] at hf
          cases hf
        rw [hnot, Bool.and_false, Bool.and_false]
  have hcallable : c.meets .callable = d.meets .callable := by
    rw [Category.meets_callable, Category.meets_callable, h .function rfl, h .closure rfl]
  rw [openingEvent, openingEvent, hscope, hcallable]
  rfl

theorem methodEvent_alike (s : Surroundings) (access : Option Bool) :
    r.methodEvent s access n c = r.withoutMacros.methodEvent s access n d := by
  rw [methodEvent, methodEvent, h .function rfl, spaceName_alike h]
  rfl

theorem opened_alike (s : Surroundings) : opened s n c = opened s n d := by
  rw [opened, opened, ofCategory_alike h]

theorem entered_alike (s : Surroundings) : r.entered s n c = r.withoutMacros.entered s n d := by
  rw [entered, entered, h .nesting rfl]
  rfl

theorem blurred_nodeEvent (htoken : c.meets .token = d.meets .token) (s : Surroundings)
    (access : Option Bool) (p : Place) : (r.nodeEvent s access p c).map Event.blurred =
      (r.withoutMacros.nodeEvent s access p d).map Event.blurred := by
  have hblurred := h.blurred htoken
  unfold nodeEvent
  by_cases hempty : c = ∅
  · have hempty' : d = ∅ := by
      rw [← Category.blurred_eq_empty, ← hblurred, Category.blurred_eq_empty]
      exact hempty
    rw [if_pos hempty, if_pos hempty']
  · have hempty' : ¬ d = ∅ := by
      rwa [← Category.blurred_eq_empty, ← hblurred, Category.blurred_eq_empty]
    rw [if_neg hempty, if_neg hempty', List.map_singleton, List.map_singleton, Event.blurred,
      Event.blurred, hblurred, htoken, h .logical rfl, h .attribute rfl]
    rfl

end

end Reading

/-- Whether nodes add the same to their frame in two walks, up to a change of events. -/
structure Yield.Same (t : Event → Event) (y z : Yield) : Prop where
  access : y.access = z.access
  events : y.events.map t = z.events.map t
  frames : y.frames.map (Frame.mapBodies (Frame.Body.mapEvents t)) =
    z.frames.map (Frame.mapBodies (Frame.Body.mapEvents t))
  skipped : y.skipped = z.skipped

theorem Yield.Same.andThen {t : Event → Event} {y y' z z' : Yield} (hy : Same t y y')
    (hz : Same t z z') : Same t (y.andThen z) (y'.andThen z') where
  access := hz.access
  events := by simp only [Yield.andThen, List.map_append, hy.events, hz.events]
  frames := by simp only [Yield.andThen, List.map_append, hy.frames, hz.frames]
  skipped := by simp only [Yield.andThen, hy.skipped, hz.skipped]

namespace Reading

variable {r : Reading} {t : Event → Event} {p : Place} {lang : Language}

theorem same_visitEach {s : Surroundings} :
    ∀ (ps : List Place) (access : Option Bool), (∀ p ∈ ps, ∀ access,
        Yield.Same t (r.visit p.above s access p.node)
          (r.withoutMacros.visit p.above s access p.node)) →
      Yield.Same t (r.visitEach s access ps) (r.withoutMacros.visitEach s access ps)
  | [], _, _ => ⟨rfl, rfl, rfl, rfl⟩
  | p :: ps, access, h => by
      have hfirst := h p List.mem_cons_self access
      have hrest := same_visitEach ps (r.visit p.above s access p.node).access
        fun q hq => h q (List.mem_cons_of_mem p hq)
      rw [visitEach, visitEach]
      exact hfirst.andThen (hfirst.access ▸ hrest)

/-- Macros change what a visit adds only in the events of nodes that open no scope. -/
theorem same_visit (hnode : ∀ s access p,
      (r.nodeEvent s access p (r.categoryIn s p)).map t =
        (r.withoutMacros.nodeEvent s access p (r.withoutMacros.categoryIn s p)).map t) :
    ∀ (p : Place) (s : Surroundings) (access : Option Bool),
      Yield.Same t (r.visit p.above s access p.node)
        (r.withoutMacros.visit p.above s access p.node) := by
  intro p
  induction p using Place.induct with
  | h p ih =>
      intro s access
      have hcategory := r.alike_categoryIn s p
      rcases r.place_cases p with he | hc | ho | ⟨hi, ho⟩
      · rw [visit_error he, visit_error he]
        exact ⟨rfl, rfl, rfl, rfl⟩
      · have hc' : (r.withoutMacros.classify p).has .comment = true :=
          (r.alike_classify p .comment rfl).symm.trans hc
        rw [visit_comment hc, visit_comment hc']
        exact ⟨rfl, hnode _ _ _, rfl, rfl⟩
      · -- the inner surroundings and access are taken from flags that macros do not change
        have ho' := (r.opensScope_withoutMacros p).trans ho
        have hinner := same_visitEach (t := t) (s := opened s p.node (r.categoryIn s p)) p.children
          (r.startAccess p.node (.ofCategory (r.categoryIn s p))) fun q hq => ih q hq _
        have hstart : r.withoutMacros.startAccess p.node = r.startAccess p.node := rfl
        rw [visit_opener ho, visit_opener ho']
        dsimp only
        rw [hstart, ← opened_alike hcategory, ← ofCategory_alike hcategory,
          ← methodEvent_alike hcategory, ← scopeOf_alike hcategory, ← openingEvent_alike hcategory]
        refine ⟨rfl, rfl, ?_, hinner.skipped⟩
        simp only [List.map_cons, List.map_nil, Frame.mapBodies_mk, Frame.Body.mapEvents,
          hinner.access, hinner.events, hinner.frames]
      · have ho' := (r.opensScope_withoutMacros p).trans ho
        have hi' := (r.isEntered_withoutMacros p).trans hi
        rw [visit_plain hi ho, visit_plain hi' ho']
        dsimp only
        rw [← entered_alike hcategory]
        exact Yield.Same.andThen ⟨rfl, hnode _ _ _, rfl, rfl⟩
          (same_visitEach _ _ fun q hq => ih q hq _)

theorem same_walk (hnode : ∀ s access p,
      (r.nodeEvent s access p (r.categoryIn s p)).map t =
        (r.withoutMacros.nodeEvent s access p (r.withoutMacros.categoryIn s p)).map t)
    (name : Option String) (root : Node) :
    (r.walk name root).draft.unit.mapBodies (Frame.Body.mapEvents t) =
        (r.withoutMacros.walk name root).draft.unit.mapBodies (Frame.Body.mapEvents t) ∧
      (r.walk name root).skipped = (r.withoutMacros.walk name root).skipped := by
  have hunit : ∀ (scope : Scope) {y z : Yield}, Yield.Same t y z →
      (Frame.mk { scope, events := y.events } y.frames).mapBodies (Frame.Body.mapEvents t) =
        (Frame.mk { scope, events := z.events } z.frames).mapBodies (Frame.Body.mapEvents t) := by
    intro scope y z h
    simp only [Frame.mapBodies_mk, Frame.Body.mapEvents, h.events, h.frames]
  have hvisit := same_visit hnode (.root root) { kind := .unit, opener := root } none
  exact ⟨hunit _ hvisit, hvisit.skipped⟩

/-- The frames of a walk are the same with and without macros, up to which tokens are operators, and
as many nodes are skipped. -/
theorem blurred_walk (hr : r.pack = lang.pack) (name : Option String) (root : Node) :
    (r.walk name root).draft.unit.mapBodies Frame.Body.blurred =
        (r.withoutMacros.walk name root).draft.unit.mapBodies Frame.Body.blurred ∧
      (r.walk name root).skipped = (r.withoutMacros.walk name root).skipped :=
  same_walk (fun s access p => blurred_nodeEvent (r.alike_categoryIn s p)
    (meets_token_categoryIn hr s p) s access p) name root

theorem classify_withoutMacros_of_not_isMacro (h : ∀ n, r.isMacro n = false) (p : Place) :
    r.withoutMacros.classify p = r.classify p := by
  cases hi : r.isEntered p with
  | true =>
      have hi' := (r.isEntered_withoutMacros p).trans hi
      have hrule : ∀ n c, r.withoutMacros.tokenRule n c = r.tokenRule n c := by
        intro n c
        rw [tokenRule, tokenRule, isMacro_withoutMacros, h]
        rfl
      rw [classify_eq_laterRules (isError_of_isEntered hi) (not_comment_of_isEntered hi),
        classify_eq_laterRules (isError_of_isEntered hi') (not_comment_of_isEntered hi'), hrule]
      rfl
  | false => exact classify_withoutMacros_of_not_entered hi

/-- Where no node names a macro, macros change nothing. -/
theorem draft_withoutMacros (h : ∀ n, r.isMacro n = false) (name : Option String) (root : Node) :
    (r.walk name root).draft = (r.withoutMacros.walk name root).draft := by
  have hwalk := same_walk (r := r) (t := id) (fun s access p => by
    rw [categoryIn, categoryIn, classify_withoutMacros_of_not_isMacro h]
    rfl) name root
  rw [Frame.mapBodies_id, Frame.mapBodies_id] at hwalk
  exact congrArg (fun unit => Draft.mk unit r.source.blankLines) hwalk.1

/-! ### The tokens that macros move -/

/-- The names of macros among the counted leaves of a frame. -/
def macroUses (r : Reading) (root : Node) (k : Option (List Nat)) : Bag :=
  .ofList ((((root.places.filter r.isCounted).filter fun p => r.ownerAddress p == k).filter
    fun p => r.namesMacro p.node).map fun p => r.text p.node)

theorem isReached_withoutMacros (r : Reading) (p : Place) :
    r.withoutMacros.isReached p = r.isReached p := by
  rw [isReached, isReached, funext r.isEntered_withoutMacros]

theorem opensFrame_withoutMacros (r : Reading) (p : Place) :
    r.withoutMacros.opensFrame p = r.opensFrame p := by
  rw [opensFrame, opensFrame, isReached_withoutMacros, opensScope_withoutMacros]

theorem frameAddresses_withoutMacros (r : Reading) (root : Node) :
    r.withoutMacros.frameAddresses root = r.frameAddresses root := by
  rw [frameAddresses, frameAddresses, funext r.opensFrame_withoutMacros]

theorem ownerAddress_withoutMacros (r : Reading) (p : Place) :
    r.withoutMacros.ownerAddress p = r.ownerAddress p := by
  rw [ownerAddress, ownerAddress, owner?, owner?, ownerUnder?, ownerUnder?,
    funext r.opensScope_withoutMacros]

theorem isCounted_withoutMacros (hr : r.pack = lang.pack) (p : Place) :
    r.withoutMacros.isCounted p = r.isCounted p := by
  have hmeets : (r.withoutMacros.categoryAt p).meets .token = (r.categoryAt p).meets .token :=
    (meets_token_categoryIn hr (r.surroundingsAt p.node p) p).symm
  rw [isCounted, isCounted, isReached_withoutMacros, opensScope_withoutMacros, hmeets]

/-- A counted place is the same token with and without macros, unless it uses one. -/
theorem tokenAt_withoutMacros (hr : r.pack = lang.pack) (h : r.isCounted p = true) :
    r.tokenAt p = { r.withoutMacros.tokenAt p with
      isOperator := (r.withoutMacros.tokenAt p).isOperator || r.namesMacro p.node } ∧
    (r.namesMacro p.node = true → (r.withoutMacros.tokenAt p).isOperator = false) := by
  have hr' : r.withoutMacros.pack = lang.pack := hr
  have htoken := tokenOf?_of_isCounted hr h
  have htoken' := tokenOf?_of_isCounted hr' ((isCounted_withoutMacros hr p).trans h)
  rw [tokenOf?_withoutMacros, htoken', Option.map_some, Option.some.injEq] at htoken
  refine ⟨htoken.symm, fun hmoved => ?_⟩
  rw [tokenOf?_of_namesMacro hmoved, Option.some.injEq] at htoken'
  rw [← htoken']

end Reading

/-- Tokens that are moved from the operands to the operators. -/
theorem Halstead.ofTokens_moved {α : Type} {told plain : α → Token} {moved : α → Bool}
    {xs : List α} (htold : ∀ x ∈ xs, told x =
      { plain x with isOperator := (plain x).isOperator || moved x })
    (hmoved : ∀ x ∈ xs, moved x = true → (plain x).isOperator = false) :
    let moves := Bag.ofList ((xs.filter moved).map fun x => (plain x).text)
    (ofTokens (xs.map told)).operators = (ofTokens (xs.map plain)).operators.merge moves ∧
      (ofTokens (xs.map plain)).operands = (ofTokens (xs.map told)).operands.merge moves := by
  intro moves
  have hclass : ∀ x ∈ xs, (told x).isOperator = ((plain x).isOperator || moved x) := by
    intro x hx
    rw [htold x hx]
  have htext : ∀ x ∈ xs, (told x).text = (plain x).text := by
    intro x hx
    rw [htold x hx]
  have hops : xs.filter (fun x => (told x).isOperator) =
      xs.filter fun x => (plain x).isOperator || moved x := List.filter_congr hclass
  have hands : xs.filter (fun x => !(plain x).isOperator) =
      xs.filter fun x => !(told x).isOperator || moved x := by
    refine List.filter_congr fun x hx => ?_
    rw [hclass x hx]
    cases hm : moved x with
    | true => rw [hmoved x hx hm]; rfl
    | false => rw [Bool.or_false, Bool.or_false]
  have htexts : ∀ keep : α → Bool, (xs.filter keep).map (fun x => (told x).text) =
      (xs.filter keep).map fun x => (plain x).text := fun keep =>
    List.map_congr_left fun x hx => htext x (List.mem_filter.mp hx).1
  simp only [ofTokens, List.filter_map, List.map_map, Function.comp_def]
  rw [hops, hands, htexts, htexts, Bag.ofList_filter_or hmoved]
  refine ⟨rfl, Bag.ofList_filter_or fun x hx hm => ?_⟩
  rw [hclass x hx, hm, Bool.or_true]
  rfl

namespace Reading

variable {r : Reading} {lang : Language}

/-- What macros change in the spaces of a unit: every use of a macro moves from the operands of its
space to the operators, and nothing else changes but the index.  The spaces are those of the unit
and of the reached scope openers in preorder, which is how each finds its address. -/
structure Exchanges (r : Reading) (name : Option String) (root : Node) (told plain : Space) :
    Prop where
  rest : told.mapBundles Bundle.pooled = plain.mapBundles Bundle.pooled
  scopes : told.all.map Space.scope = r.unitScope name root ::
    (root.places.filter r.opensFrame).map fun o => r.scopeOf o.node (r.categoryAt o)
  operators : told.all.map (fun s => s.own.halstead.operators) =
    List.zipWith (fun s k => s.own.halstead.operators.merge (r.macroUses root k)) plain.all
      (r.frameAddresses root)
  operands : plain.all.map (fun s => s.own.halstead.operands) =
    List.zipWith (fun s k => s.own.halstead.operands.merge (r.macroUses root k)) told.all
      (r.frameAddresses root)
  length : told.all.map (fun s => (s.own.halstead.length, s.metrics.halstead.length)) =
    plain.all.map fun s => (s.own.halstead.length, s.metrics.halstead.length)

/-- The bags of a frame alone, with and without macros. -/
theorem exchange_ofTokens (hr : r.pack = lang.pack) (root : Node) (k : Option (List Nat)) :
    let owned := (root.places.filter r.isCounted).filter fun p => r.ownerAddress p == k
    let told : Halstead := .ofTokens (owned.map r.tokenAt)
    let plain : Halstead := .ofTokens (owned.map r.withoutMacros.tokenAt)
    told.operators = plain.operators.merge (r.macroUses root k) ∧
      plain.operands = told.operands.merge (r.macroUses root k) := by
  intro owned told plain
  have hcounted : ∀ p ∈ owned, r.isCounted p = true := fun p hp =>
    (List.mem_filter.mp (List.mem_filter.mp hp).1).2
  exact Halstead.ofTokens_moved (fun p hp => (tokenAt_withoutMacros hr (hcounted p hp)).1)
    fun p hp => (tokenAt_withoutMacros hr (hcounted p hp)).2

/-- Spaces exchange their uses of macros if their bags are those of the counted places. -/
theorem exchanges_of_halstead (hr : r.pack = lang.pack) {name : Option String} {root : Node}
    {told plain : Space}
    (hrest : told.mapBundles Bundle.pooled = plain.mapBundles Bundle.pooled)
    (hscopes : told.all.map Space.scope = r.unitScope name root ::
      (root.places.filter r.opensFrame).map fun o => r.scopeOf o.node (r.categoryAt o))
    (htold : told.all.map (fun s => s.own.halstead) = (r.frameAddresses root).map fun k =>
      .ofTokens (((root.places.filter r.isCounted).filter fun p =>
        r.ownerAddress p == k).map r.tokenAt))
    (hplain : plain.all.map (fun s => s.own.halstead) = (r.frameAddresses root).map fun k =>
      .ofTokens (((root.places.filter r.isCounted).filter fun p =>
        r.ownerAddress p == k).map r.withoutMacros.tokenAt)) :
    r.Exchanges name root told plain := by
  -- a part of the bags of each space, as a list over the addresses of the frames
  have hmap : ∀ {β : Type} (part : Halstead → β) (s : Space),
      s.all.map (fun t => part t.own.halstead) =
        (s.all.map fun t => t.own.halstead).map part := fun _ _ => (List.map_map ..).symm
  have hzip : ∀ {β : Type} (f : Halstead → Option (List Nat) → β) (s : Space),
      List.zipWith (fun t k => f t.own.halstead k) s.all (r.frameAddresses root) =
        List.zipWith f (s.all.map fun t => t.own.halstead) (r.frameAddresses root) :=
    fun _ _ => List.zipWith_map_left.symm
  refine ⟨hrest, hscopes, ?_, ?_, ?_⟩
  · rw [hmap Halstead.operators, htold, hzip fun h k => h.operators.merge (r.macroUses root k),
      hplain, List.zipWith_map_left, List.zipWith_self, List.map_map]
    exact List.map_congr_left fun k _ => (exchange_ofTokens hr root k).1
  · rw [hmap Halstead.operands, hplain, hzip fun h k => h.operands.merge (r.macroUses root k),
      htold, List.zipWith_map_left, List.zipWith_self, List.map_map]
    exact List.map_congr_left fun k _ => (exchange_ofTokens hr root k).2
  · exact Space.map_all_eq_of_mapBundles (fun b => b.halstead.length) hrest
      fun b => b.halstead.length_pooled

theorem map_halstead_withoutMacros (hr : r.pack = lang.pack) (name : Option String) (root : Node)
    (use : LineUse) :
    ((r.withoutMacros.walk name root).draft.unit.survey.space use).all.map
        (fun s => s.own.halstead) =
      (r.frameAddresses root).map fun k => .ofTokens
        (((root.places.filter r.isCounted).filter fun p => r.ownerAddress p == k).map
          r.withoutMacros.tokenAt) := by
  have hr' : r.withoutMacros.pack = lang.pack := hr
  have hplain := map_halstead_walk hr' name root use
  rw [frameAddresses_withoutMacros, funext (isCounted_withoutMacros hr)] at hplain
  simp only [ownerAddress_withoutMacros] at hplain
  exact hplain

theorem blankLines_walk (r : Reading) (name : Option String) (root : Node) :
    (r.walk name root).draft.blankLines = r.source.blankLines := rfl

theorem map_scope_walk (hr : r.pack = lang.pack) (name : Option String) (root : Node)
    (use : LineUse) :
    ((r.walk name root).draft.unit.survey.space use).all.map Space.scope =
      r.unitScope name root ::
        (root.places.filter r.opensFrame).map fun o => r.scopeOf o.node (r.categoryAt o) := by
  have hbodies := congrArg (List.map Frame.Body.scope) (bodies_eq_routing hr name root)
  rw [← Frame.map_body_surveyIn _ ⟨_, _⟩, List.map_map, List.map_cons, List.map_map] at hbodies
  rw [Parcel.all_space, List.map_map]
  simp only [Function.comp_def, Parcel.scope_space] at hbodies ⊢
  exact hbodies

/-- The spaces of a unit with and without macros. -/
theorem exchanges_walk (hr : r.pack = lang.pack) (name : Option String) (root : Node) :
    let d := (r.walk name root).draft
    let d' := (r.withoutMacros.walk name root).draft
    r.Exchanges name root (d.unit.survey.space d.lineUse) (d'.unit.survey.space d'.lineUse) := by
  intro d d'
  have hblank : d.blankLines = d'.blankLines := by
    rw [blankLines_walk, blankLines_walk]
    rfl
  exact exchanges_of_halstead hr (Draft.pooled_spaces (blurred_walk hr name root).1 hblank)
    (map_scope_walk hr name root _) (map_halstead_walk hr name root _)
    (map_halstead_withoutMacros hr name root _)

end Reading

/-! ### Analyses -/

namespace Act

variable {α β : Type} {R : α → α → Prop}

/-- Whether two steps of a run have the same effect and fail alike, and have related results where
they do not fail. -/
def Agree (R : α → α → Prop) (x y : Act α) : Prop :=
  ∀ s, (x.run s).2 = (y.run s).2 ∧
    match (x.run s).1, (y.run s).1 with
    | .ok a, .ok b => R a b
    | .error e, .error e' => e = e'
    | _, _ => False

theorem run_bind (x : Act β) (f : β → Act α) (s : Session) : (x >>= f).run s =
    match x.run s with
    | (.ok b, s') => (f b).run s'
    | (.error e, s') => (.error e, s') := by
  have hstate : ∀ (m : StateM Session (Except Failure β))
      (k : Except Failure β → StateM Session (Except Failure α)),
        (m >>= k) s = k (m s).1 (m s).2 := fun _ _ => rfl
  rw [ExceptT.run_bind, hstate]
  rcases x.run s with ⟨_ | b, s'⟩ <;> rfl

theorem run_inUnit (path : Option String) (language : String) (x : Act α) (s : Session) :
    (Session.inUnit path language x).run s =
      let fields := Log.Journal.unitFields path language
      let out := x.run { s with journal := s.journal.bind fields }
      (out.1, { out.2 with
        journal := out.2.journal.restore s.journal.context (fields.map Prod.fst) }) := rfl

namespace Agree

theorem pure {a b : α} (h : R a b) : Agree R (Pure.pure a) (Pure.pure b) := fun _ => ⟨rfl, h⟩

theorem bind {x : Act β} {f g : β → Act α} (h : ∀ b, Agree R (f b) (g b)) :
    Agree R (x >>= f) (x >>= g) := by
  intro s
  rw [run_bind, run_bind]
  rcases x.run s with ⟨_ | b, s'⟩
  · exact ⟨rfl, rfl⟩
  · exact h b s'

theorem inUnit {x y : Act α} (h : Agree R x y) (path : Option String) (language : String) :
    Agree R (Session.inUnit path language x) (Session.inUnit path language y) := by
  intro s
  obtain ⟨hstate, hresult⟩ :=
    h { s with journal := s.journal.bind (Log.Journal.unitFields path language) }
  rw [run_inUnit, run_inUnit]
  refine ⟨?_, hresult⟩
  simp only [hstate]

end Agree

end Act

/-- What macros change in an analysis: the bags of its spaces, if it has any. -/
structure Analysis.Exchanges (r : Reading) (tree : Node) (told plain : Analysis) : Prop where
  root : Option.Rel (r.Exchanges told.path tree) told.root plain.root
  rest : { told with root := none } = { plain with root := none }

namespace Session

/-- A grammar is loaded once, unless it is not installed. -/
theorem run_loadGrammar (lang : Language) (s : Session) :
    (loadGrammar lang).run s =
      if s.grammars.contains lang then (.ok (), s)
      else if s.uninstalled.contains lang then
        (.error (.grammarMissing lang.id lang.definition.grammarPackage), s)
      else
        (.ok (), { s with
          grammars := s.grammars ++ [lang]
          journal := s.journal.log .null .debug (.text "parser.grammar_loaded")
            [("language", .text lang.id), ("module", .text lang.definition.grammarModule)] }) := by
  have hget : (get : Act Session).run s = (.ok s, s) := rfl
  unfold loadGrammar
  rw [Act.run_bind, hget]
  simp only
  split
  · rfl
  · split <;> rfl

/-- A unit is parsed into its tree when the grammar is loaded or installed. -/
theorem run_parse {lang : Language} {s : Session} (h : lang ∈ s.grammars ∨ lang ∉ s.uninstalled)
    (u : CodeUnit) : ∃ s', (parse lang u).run s = (.ok ⟨lang, u.tree⟩, s') := by
  have hload : ∃ s', (loadGrammar lang).run s = (.ok (), s') := by
    rw [run_loadGrammar]
    split
    · exact ⟨_, rfl⟩
    · rename_i hg
      rw [List.contains_iff_mem] at hg
      rw [if_neg fun hu => h.elim hg fun hn => hn (List.contains_iff_mem.mp hu)]
      exact ⟨_, rfl⟩
  obtain ⟨s', hs'⟩ := hload
  refine ⟨s', ?_⟩
  rw [parse, Act.run_bind, hs']
  rfl

theorem analyzeUnit_includes (l : Language) (path : Option String) (known : Directives)
    (includes : List String) (u : CodeUnit) :
    analyzeUnit l path { known with includes } u = analyzeUnit l path known u := by
  unfold analyzeUnit
  rfl

/-- The analysis of a unit whose walk gives the space and skips as many nodes as told. -/
def outcome (l : Language) (path : Option String) (u : CodeUnit) (root : Space) (skipped : Nat) :
    Act Analysis :=
  inUnit path l.id do
    buildTable l
    if u.source.isBlank then return { language := l, path }
    let parsed ← parse l u
    if parsed.errorCount != 0 then
      log .warning "analysis.error_nodes" [("error_nodes", .int parsed.errorCount),
        ("skipped_subtrees", .int skipped), ("total_nodes", .int parsed.totalNodes)]
    return { language := l, path, root := some root, errorCount := parsed.errorCount,
             totalNodes := parsed.totalNodes }

/-- An analysis depends on the macros through its walk. -/
theorem analyzeUnit_eq (l : Language) (path : Option String) (known : Directives) (u : CodeUnit) :
    analyzeUnit l path known u =
      let w := Reading.walk ⟨l.pack, u.source, known.macros⟩ path u.tree
      outcome l path u (w.draft.unit.survey.space w.draft.lineUse) w.skipped := by
  unfold analyzeUnit outcome
  simp only [Reading.spaces_walk, parse, bind_assoc, pure_bind]
  rfl

/-- Building a table leaves the grammars as they are. -/
theorem grammars_buildTable (l : Language) (s : Session) :
    ((buildTable l).run s).2.grammars = s.grammars ∧
      ((buildTable l).run s).2.uninstalled = s.uninstalled := by
  unfold buildTable
  simp only [StateT.run_bind, StateT.run_get, pure_bind]
  split <;> exact ⟨rfl, rfl⟩

/-- A unit that is not blank has spaces when its grammar is loaded or installed. -/
theorem exists_run_outcome {l : Language} {s : Session}
    (h : l ∈ s.grammars ∨ l ∉ s.uninstalled) {u : CodeUnit} (hu : u.source.isBlank = false)
    (path : Option String) (root : Space) (skipped : Nat) :
    ∃ a, ((outcome l path u root skipped).run s).1 = .ok a ∧ a.root = some root := by
  let told : Session := { s with journal := s.journal.bind (Log.Journal.unitFields path l.id) }
  obtain ⟨hgrammars, huninstalled⟩ := grammars_buildTable l told
  obtain ⟨s', hparse⟩ : ∃ s', (parse l u).run ((buildTable l).run told).2 =
      (.ok ⟨l, u.tree⟩, s') := run_parse (by rw [hgrammars, huninstalled]; exact h) u
  have hbuild : (liftM (buildTable l) : Act Unit).run told =
      (.ok (), ((buildTable l).run told).2) := rfl
  rw [outcome, Act.run_inUnit]
  dsimp only
  rw [Act.run_bind, hbuild]
  dsimp only
  rw [hu, if_neg Bool.false_ne_true, Act.run_bind, hparse]
  dsimp only
  split
  · exact ⟨_, rfl, rfl⟩
  · exact ⟨_, rfl, rfl⟩

theorem agree_outcome {r : Reading} {u : CodeUnit} {path : Option String} {root root' : Space}
    (h : r.Exchanges path u.tree root root') (l : Language) (skipped : Nat) :
    Act.Agree (Analysis.Exchanges r u.tree) (outcome l path u root skipped)
      (outcome l path u root' skipped) := by
  refine Act.Agree.inUnit (Act.Agree.bind fun _ => ?_) path l.id
  split
  · exact Act.Agree.pure ⟨.none, rfl⟩
  · refine Act.Agree.bind fun parsed => ?_
    split
    · exact Act.Agree.bind fun _ => Act.Agree.pure ⟨.some h, rfl⟩
    · exact Act.Agree.pure ⟨.some h, rfl⟩

/-- Only C and C++ have macros. -/
theorem analyzeUnit_of_ne_cpp {l : Language} (hl : l ≠ .cpp) (path : Option String)
    (known : Directives) (u : CodeUnit) :
    analyzeUnit l path known u = analyzeUnit l path {} u := by
  let r : Reading := ⟨l.pack, u.source, known.macros⟩
  have hr : r.pack = l.pack := rfl
  have hmacros : ∀ n, r.isMacro n = false := by
    intro n
    rw [Reading.isMacro, hr, l.pack_language, beq_eq_false_iff_ne.mpr hl, Bool.false_and]
  have hplain : (⟨l.pack, u.source, ({} : Directives).macros⟩ : Reading) = r.withoutMacros := rfl
  rw [analyzeUnit_eq, analyzeUnit_eq, hplain]
  dsimp only
  rw [Reading.draft_withoutMacros hmacros, (Reading.blurred_walk hr path u.tree).2]

/-- **Macros move operands to the operators, in C and C++ alone.**  In any other language an
analysis is the same whatever macros are known, and in no language do the included files matter.  In
C and C++ an analysis that knows macros has the same effects as one that knows none, and fails where
it fails.  It has the same spaces with the same metrics, alone and rolled up, apart from the index
and from which tokens are operators.  The operators of each space alone are those without macros and
the uses of macros that it owns; the operands without macros are those with them and the same uses;
and no space has more tokens or fewer.  A unit that is not blank has spaces in both analyses, those
of the two walks, whenever the grammar is loaded or installed. -/
theorem macros_move_operands (path : Option String) (known : Directives) (u : CodeUnit) :
    let r : Reading := ⟨Language.cpp.pack, u.source, known.macros⟩
    (∀ l : Language, l ≠ .cpp → analyzeUnit l path known u = analyzeUnit l path {} u) ∧
    (∀ (l : Language) (includes : List String),
      analyzeUnit l path { known with includes } u = analyzeUnit l path known u) ∧
    Act.Agree (Analysis.Exchanges r u.tree)
      (analyzeUnit .cpp path known u) (analyzeUnit .cpp path {} u) ∧
    ∀ s : Session, u.source.isBlank = false →
      Language.cpp ∈ s.grammars ∨ Language.cpp ∉ s.uninstalled →
      ∃ told plain root root', ((analyzeUnit .cpp path known u).run s).1 = .ok told ∧
        ((analyzeUnit .cpp path {} u).run s).1 = .ok plain ∧
        told.root = some root ∧ plain.root = some root' ∧
        (r.walk path u.tree).draft.spaces = .ok root ∧
        (r.withoutMacros.walk path u.tree).draft.spaces = .ok root' ∧
        r.Exchanges path u.tree root root' := by
  intro r
  have hr : r.pack = Language.cpp.pack := rfl
  have hplain : (⟨Language.cpp.pack, u.source, ({} : Directives).macros⟩ : Reading) =
      r.withoutMacros := rfl
  have hexchanges := Reading.exchanges_walk hr path u.tree
  refine ⟨fun l hl => analyzeUnit_of_ne_cpp hl path known u,
    fun l includes => analyzeUnit_includes l path known includes u, ?_, fun s hu hload => ?_⟩
  · rw [analyzeUnit_eq, analyzeUnit_eq, hplain]
    dsimp only
    rw [← (Reading.blurred_walk hr path u.tree).2]
    exact agree_outcome hexchanges .cpp _
  · rw [analyzeUnit_eq, analyzeUnit_eq, hplain]
    obtain ⟨told, htold, hroot⟩ := exists_run_outcome hload hu path _ _
    obtain ⟨plain, hrun, hroot'⟩ := exists_run_outcome hload hu path _ _
    exact ⟨told, plain, _, _, htold, hrun, hroot, hroot', r.spaces_walk path u.tree,
      r.withoutMacros.spaces_walk path u.tree, hexchanges⟩

/-- A function `int f(){M}`: the use of the macro `M` moves, in C++ and not in Python.  It is an
operator of the function for an analysis that knows it, and an operand for one that does not. -/
theorem macros_move_operands_of_function :
    let leaf (start stop : Nat) : Node := .mk ⟨"identifier", true, false, start, stop, none⟩ []
    let u : CodeUnit :=
      { source := ⟨[105, 110, 116, 32, 102, 40, 41, 123, 77, 125]⟩
        tree := .mk ⟨"translation_unit", true, false, 0, 10, none⟩
          [.mk ⟨"function_definition", true, false, 0, 10, none⟩ [leaf 4 5, leaf 8 9]] }
    let known : Directives := { macros := .ofList ["M"], includes := ["a.h"] }
    let r : Reading := ⟨Language.cpp.pack, u.source, known.macros⟩
    let counts (h : Halstead) : Nat × Nat := (h.operators.count "M", h.operands.count "M")
    analyzeUnit .python none known u = analyzeUnit .python none {} u ∧
    analyzeUnit .cpp none { known with includes := [] } u = analyzeUnit .cpp none known u ∧
    Act.Agree (Analysis.Exchanges r u.tree) (analyzeUnit .cpp none known u)
      (analyzeUnit .cpp none {} u) ∧
    r.macroUses u.tree (some [0]) = .single "M" ∧
    u.source.isBlank = false ∧ Language.cpp ∉ ({} : Session).uninstalled ∧
    ∃ told plain root root', ((analyzeUnit .cpp none known u).run {}).1 = .ok told ∧
      ((analyzeUnit .cpp none {} u).run {}).1 = .ok plain ∧
      told.root = some root ∧ plain.root = some root' ∧
      root.all.map (fun s => counts s.own.halstead) = [(0, 0), (1, 0)] ∧
      root'.all.map (fun s => counts s.own.halstead) = [(0, 0), (0, 1)] := by
  intro leaf u known r counts
  obtain ⟨hothers, hincludes, hcpp, hspaces⟩ := macros_move_operands none known u
  have hload : Language.cpp ∉ ({} : Session).uninstalled := List.not_mem_nil
  refine ⟨hothers .python (by decide), hincludes .cpp [], hcpp, by decide +kernel, rfl, hload, ?_⟩
  obtain ⟨told, plain, root, root', htold, hplain, hroot, hroot', hwalk, hwalk', -⟩ :=
    hspaces {} rfl (.inr hload)
  rw [Reading.spaces_walk, Except.ok.injEq] at hwalk hwalk'
  have hr : r.pack = Language.cpp.pack := rfl
  have hr' : r.withoutMacros.pack = Language.cpp.pack := rfl
  refine ⟨told, plain, root, root', htold, hplain, hroot, hroot', ?_, ?_⟩
  · rw [← hwalk]
    exact (Reading.map_part_walk counts hr none u.tree _).trans (by decide +kernel)
  · rw [← hwalk']
    exact (Reading.map_part_walk counts hr' none u.tree _).trans (by decide +kernel)

end Session

end ScopeMetrics
