import ScopeMetrics.Proofs.Ledger

/-!
# Flags that exclude each other

The collectors ask for some flags one after another and score the first that an event has, and a
scope opener tells its frame of its scope flags alone.  So a flag would be lost if it met another
that is asked for before it.  The tables and the rules never let such flags meet.

* `Category.IsUncontested`, `Category.IsOrderly`: which flags do not meet.
* `Language.atMostOne_increment_flags`, `Language.not_mark_of_named`: what the tables keep apart.
* `Tally.ofEvent_eq_flagByFlag`: of an event whose flags do not compete, every flag scores.
* `isOrderly_classify`: the rules keep apart what the tables keep apart.
* `has_openingEvent_or`: all that a scope opener does not tell is that it is a token.
* **`flags_never_compete`**: all of this, for every node and every walk in every language.
-/

namespace ScopeMetrics

namespace Category

/-- What the cognitive score counts. -/
def increment : Category := {.nesting, .else_, .logical}

/-- What is punctuation and no comment. -/
def mark : Category := {.terminator, .delimiter}

/-- Whether a category has at most one of some flags. -/
def AtMostOne (c d : Category) : Prop :=
  ∀ f g, d.has f = true → d.has g = true → c.has f = true → c.has g = true → f = g

/-- No flag of the category is passed over because a collector asks for another one first. -/
structure IsUncontested (c : Category) : Prop where
  one_scope : c.AtMostOne .scope
  one_increment : c.AtMostOne .increment
  one_token : c.AtMostOne .token
  only_comment : c.has .comment = true → c = {.comment}

/-- What holds of the category of a node with some base flags. -/
structure IsOrderly (c base : Category) : Prop extends c.IsUncontested where
  no_mark : c.meets .token = true → c.meets .mark = false
  only_opener : c.meets .scope = true →
    ∀ f, c.has f = true → scope.has f = true ∨ token.has f = true
  origin : ∀ f, c.has f = true → f ∈ [Flag.operator, .operand, .else_] ∨ base.has f = true

theorem AtMostOne.mono {b c d : Category} (h : c.AtMostOne d)
    (hb : ∀ f, b.has f = true → c.has f = true) : b.AtMostOne d :=
  fun f g hf hg hbf hbg => h f g hf hg (hb f hbf) (hb g hbg)

/-- Of two flags of which at most one is there the second is not there if the first is. -/
theorem AtMostOne.not_has {c d : Category} (h : c.AtMostOne d) (f g : Flag) (hcf : c.has f = true)
    (hne : f ≠ g := by decide) (hf : d.has f = true := by rfl) (hg : d.has g = true := by rfl) :
    c.has g = false :=
  Bool.eq_false_iff.mpr fun hcg => hne (h f g hf hg hcf hcg)

theorem eq_singleton_of_has {b : Category} {f : Flag} (hf : b.has f = true)
    (h : ∀ g, b.has g = true → g = f) : b = {f} := by
  refine ext_has fun g => ?_
  rw [has_singleton, Bool.eq_iff_iff, decide_eq_true_iff]
  exact ⟨fun hg => (h g hg).symm, fun hg => hg ▸ hf⟩

/-- Taking flags away starts no contest. -/
theorem IsUncontested.mono {b c : Category} (h : c.IsUncontested)
    (hb : ∀ f, b.has f = true → c.has f = true) : b.IsUncontested where
  one_scope := h.one_scope.mono hb
  one_increment := h.one_increment.mono hb
  one_token := h.one_token.mono hb
  only_comment hcomment := by
    refine eq_singleton_of_has hcomment fun g hg => ?_
    have hc := hb g hg
    rw [h.only_comment (hb _ hcomment), has_singleton, decide_eq_true_iff] at hc
    exact hc.symm

theorem atMostOne_singleton (f : Flag) (d : Category) : AtMostOne {f} d := by
  intro g g' _ _ hg hg'
  rw [has_singleton, decide_eq_true_iff] at hg hg'
  exact hg.symm.trans hg'

theorem isUncontested_singleton (f : Flag) : IsUncontested {f} where
  one_scope := atMostOne_singleton f _
  one_increment := atMostOne_singleton f _
  one_token := atMostOne_singleton f _
  only_comment h := by
    rw [has_singleton, decide_eq_true_iff] at h
    rw [h]

end Category

/-! ### The tables -/

/-- Whether no kind is listed both in a group with one flag and in a group with another. -/
def Group.keepApart (groups : List Group) (f g : Flag) : Bool :=
  groups.all fun a => !a.flags.has f ||
    groups.all fun b => !b.flags.has g || !b.kinds.any a.kinds.contains

theorem Group.not_has_of_keepApart {groups : List Group} {f g : Flag}
    (h : keepApart groups f g = true) {kind : String} (hf : (flagsOf groups kind).has f = true) :
    (flagsOf groups kind).has g = false := by
  rw [Bool.eq_false_iff]
  intro hg
  rw [has_flagsOf, List.any_eq_true] at hf hg
  obtain ⟨a, ha, hf⟩ := hf
  obtain ⟨b, hb, hg⟩ := hg
  rw [Bool.and_eq_true] at hf hg
  have hshared : b.kinds.any a.kinds.contains = true :=
    List.any_eq_true.mpr ⟨kind, List.contains_iff_mem.mp hg.1, hf.1⟩
  have hrow := List.all_eq_true.mp h a ha
  rw [hf.2, Bool.not_true, Bool.false_or] at hrow
  have hcell := List.all_eq_true.mp hrow b hb
  rw [hg.2, hshared] at hcell
  cases hcell

namespace Language

theorem increments_apart (lang : Language) :
    ([Flag.nesting, .else_, .logical].all fun f => [Flag.nesting, .else_, .logical].all fun g =>
      f = g || Group.keepApart lang.pack.kinds f g && Group.keepApart lang.pack.tokens f g) =
        true := by
  cases lang <;> decide +kernel

/-- A kind is listed for at most one of the three increments. -/
theorem atMostOne_increment_flags (lang : Language) (l : Label) :
    (lang.pack.flags l).AtMostOne .increment := by
  intro f g hf hg hlf hlg
  by_cases hne : f = g
  · exact hne
  · have hlist : ∀ h : Flag, Category.increment.has h = true →
        h ∈ [Flag.nesting, .else_, .logical] := by
      intro h
      cases h <;> decide
    have happart := List.all_eq_true.mp
      (List.all_eq_true.mp lang.increments_apart f (hlist f hf)) g (hlist g hg)
    rw [decide_eq_false hne, Bool.false_or, Bool.and_eq_true] at happart
    have hboth : Group.keepApart (if l.named then lang.pack.kinds else lang.pack.tokens) f g =
        true := by
      split
      · exact happart.1
      · exact happart.2
    rw [Pack.flags, Group.not_has_of_keepApart hboth hlf] at hlg
    cases hlg

theorem kinds_not_mark (lang : Language) :
    (lang.pack.kinds.all fun g => !g.flags.meets .mark) = true := by
  cases lang <;> decide +kernel

/-- Punctuation is anonymous. -/
theorem not_mark_of_named (lang : Language) {l : Label} (hn : l.named = true) :
    (lang.pack.flags l).meets .mark = false := by
  rw [Bool.eq_false_iff, Ne, Category.meets_iff]
  rintro ⟨f, hf, hmark⟩
  obtain ⟨g, hg, -, hgf⟩ := Pack.exists_group hf
  rw [if_pos hn] at hg
  have hnot := List.all_eq_true.mp lang.kinds_not_mark g hg
  rw [Category.meets_iff.mpr ⟨f, hgf, hmark⟩] at hnot
  cases hnot

end Language

/-! ### Collectors -/

namespace Tally

/-- The members that an event tells of, if a class that opens and a member are both looked for. -/
def membersApart (flag : Flag) (e : Event) : Members where
  public_ := one (e.has flag && e.visible == some true)
  private_ := one (e.has flag && e.visible == some false)
  classes := one e.opensClass

/-- The tally of an event in which every flag scores, whatever other flags the event has. -/
def flagByFlag (e : Event) : Tally :=
  let function := e.opensCallable && e.has .function
  let closure := e.opensCallable && e.has .closure
  let arity := e.arity.getD 0
  { ofEvent e with
    score := (if e.has .nesting then 1 + e.nesting else 0) + one (e.has .else_) +
      one (e.has .logical && e.sequence)
    halstead :=
      { operators := if e.has .operator then .single e.text else ∅
        operands := if e.has .operand then .single e.text else ∅ }
    codeLines := if e.category.meets .code then LineSet.range e.startLine e.endLine else ∅
    methods := { functions := one function, closures := one closure }
    arguments :=
      { functionArgs := if function then arity else 0
        closureArgs := if closure then arity else 0
        functions := one function
        closures := one closure
        max := if e.opensCallable then arity else 0 }
    publicMethods := membersApart .function e
    publicAttributes := membersApart .attribute e }

/-- A class that opens its space has no visibility, and a member has one. -/
theorem membersOf_eq_membersApart (flag : Flag) (e : Event) :
    membersOf flag e = membersApart flag e := by
  unfold membersOf membersApart Event.opensClass
  cases e.has .class_ <;> cases e.has flag <;> rcases e.visible with _ | _ | _ <;> rfl

theorem scoreOf_eq {e : Event} (h : e.category.AtMostOne .increment) :
    scoreOf e = (if e.has .nesting then 1 + e.nesting else 0) + one (e.has .else_) +
      one (e.has .logical && e.sequence) := by
  unfold scoreOf Event.has
  cases hnesting : e.category.has .nesting with
  | true =>
      rw [h.not_has .nesting .else_ hnesting, h.not_has .nesting .logical hnesting]
      simp [one]
  | false =>
      cases helse : e.category.has .else_ with
      | true =>
          rw [h.not_has .else_ .logical helse]
          simp [one]
      | false => simp [one]

theorem halsteadOf_eq_both {e : Event} (h : e.category.AtMostOne .token) :
    halsteadOf e =
      { operators := if e.has .operator then .single e.text else ∅
        operands := if e.has .operand then .single e.text else ∅ } := by
  unfold halsteadOf Event.has
  cases hoperator : e.category.has .operator with
  | true =>
      rw [h.not_has .operator .operand hoperator]
      rfl
  | false => cases e.category.has .operand <;> rfl

theorem codeLines_eq {e : Event} (h : e.has .comment = true → e.category = {.comment}) :
    (ofEvent e).codeLines =
      if e.category.meets .code then LineSet.range e.startLine e.endLine else ∅ := by
  show (if !e.has .comment && e.category.meets .code then _ else _) = _
  cases hcomment : e.has .comment with
  | true =>
      rw [h hcomment]
      rfl
  | false => rfl

/-- An event by which a callable opens is one of a function or one of a closure. -/
theorem callable_cases {e : Event} (h : e.category.AtMostOne .scope)
    (ho : e.opensCallable = true) :
    e.has .function = true ∧ e.has .closure = false ∨
      e.has .function = false ∧ e.has .closure = true := by
  rw [Event.opensCallable, Bool.and_eq_true, Category.meets_callable, Bool.or_eq_true] at ho
  rcases ho.2 with hf | hc
  · exact .inl ⟨hf, h.not_has .function .closure hf⟩
  · exact .inr ⟨h.not_has .closure .function hc, hc⟩

theorem methodsOf_eq {e : Event} (h : e.category.AtMostOne .scope) :
    methodsOf e = (flagByFlag e).methods ∧ argumentsOf e = (flagByFlag e).arguments := by
  simp only [methodsOf, argumentsOf, flagByFlag]
  cases ho : e.opensCallable with
  | false => exact ⟨rfl, rfl⟩
  | true =>
      rcases callable_cases h ho with ⟨hfunction, hclosure⟩ | ⟨hfunction, hclosure⟩ <;>
        rw [hfunction, hclosure] <;> exact ⟨rfl, rfl⟩

/-- Of an event whose flags do not compete every flag scores. -/
theorem ofEvent_eq_flagByFlag {e : Event} (h : e.category.IsUncontested) :
    ofEvent e = flagByFlag e := by
  obtain ⟨hmethods, harguments⟩ := methodsOf_eq h.one_scope
  have hcode := codeLines_eq h.only_comment
  simp only [ofEvent] at hcode
  simp only [flagByFlag] at hmethods harguments
  simp only [ofEvent, flagByFlag, scoreOf_eq h.one_increment, halsteadOf_eq_both h.one_token, hcode,
    hmethods, harguments, membersOf_eq_membersApart]

end Tally

/-! ### Classification -/

namespace Reading

variable {r : Reading} {root : Node} {p : Place} {lang : Language}

/-- A node that is not entered has no flag, or that of a comment. -/
theorem classify_of_not_isEntered (h : r.isEntered p = false) :
    r.classify p = ∅ ∨ r.classify p = {.comment} := by
  rw [isEntered, Bool.and_eq_false_iff, Bool.not_eq_false', Bool.not_eq_false'] at h
  rcases h with he | hc
  · exact .inl (classify_of_isError he)
  · exact .inr (classify_eq_comment hc)

theorem isUncontested_of_not_isEntered (h : r.isEntered p = false) :
    (r.classify p).IsUncontested := by
  refine (Category.isUncontested_singleton .comment).mono fun f hf => ?_
  rcases classify_of_not_isEntered h with hc | hc <;> rw [hc] at hf
  · rw [Category.has_empty] at hf
    cases hf
  · exact hf

/-- An if that continues a chain has one increment for another; no other rule brings one in. -/
theorem atMostOne_increment_classify (hr : r.pack = lang.pack) (hi : r.isEntered p = true) :
    (r.classify p).AtMostOne .increment := by
  have hbase : (r.flags p.node).AtMostOne .increment := by
    rw [flags, hr]
    exact lang.atMostOne_increment_flags p.node.label
  have hnesting : (r.classify p).has .nesting = true →
      (r.classify p).has .else_ = false ∧ (r.classify p).has .logical = false := by
    rw [has_nesting_classify hi, has_else_classify hi, has_logical_classify hi, Bool.and_eq_true,
      Bool.not_eq_true']
    rintro ⟨hn, hchain⟩
    rw [hbase.not_has .nesting .else_ hn, hbase.not_has .nesting .logical hn, hn, Bool.and_true,
      hchain]
    exact ⟨rfl, rfl⟩
  have hlogical : (r.classify p).has .logical = true → (r.classify p).has .else_ = false := by
    rw [has_else_classify hi, has_logical_classify hi]
    intro hl
    rw [hbase.not_has .logical .else_ hl, hbase.not_has .logical .nesting hl, Bool.and_false]
    rfl
  intro f g hf hg hcf hcg
  simp only [Category.increment, Category.has_insert, Category.has_singleton, Bool.or_eq_true,
    decide_eq_true_iff] at hf hg
  rcases hf with rfl | rfl | rfl <;> rcases hg with rfl | rfl | rfl <;> simp_all

/-- A node is at most one token. -/
theorem atMostOne_token_classify (hr : r.pack = lang.pack) (hi : r.isEntered p = true) :
    (r.classify p).AtMostOne .token := by
  intro f g hf hg hcf hcg
  rw [has_token_classify hr hi hf, decide_eq_true_iff] at hcf
  rw [has_token_classify hr hi hg, decide_eq_true_iff] at hcg
  exact Option.some.inj (hcf.symm.trans hcg)

/-- A flag that no rule brings in is one of the base flags. -/
theorem has_flags_of_classify {f : Flag} (h : (r.classify p).has f = true)
    (hf : f ∉ [Flag.operator, .operand, .else_]) : (r.flags p.node).has f = true := by
  rcases has_classify h with rfl | rfl | rfl | h
  · exact absurd (by decide) hf
  · exact absurd (by decide) hf
  · exact absurd (by decide) hf
  · exact h

theorem not_mem_of_scope {f : Flag} (hf : Category.scope.has f = true) :
    f ∉ [Flag.operator, .operand, .else_] := by
  revert hf
  cases f <;> decide

/-- The base flags of a scope opener are the one by which it opens. -/
theorem flags_of_opensScope (hr : r.pack = lang.pack) (ho : r.opensScope p = true) :
    ∃ f, Category.scope.has f = true ∧ r.flags p.node = {f} := by
  have hscope := meets_scope_flags ho
  rw [flags, hr] at hscope ⊢
  exact Language.flags_of_scope hscope

theorem atMostOne_scope_classify (hr : r.pack = lang.pack) :
    (r.classify p).AtMostOne .scope := by
  intro f g hf hg hcf hcg
  obtain ⟨e, -, hbase⟩ := flags_of_opensScope hr (Category.meets_iff.mpr ⟨f, hcf, hf⟩)
  have hbf := has_flags_of_classify hcf (not_mem_of_scope hf)
  have hbg := has_flags_of_classify hcg (not_mem_of_scope hg)
  rw [hbase, Category.has_singleton, decide_eq_true_iff] at hbf hbg
  exact hbf.symm.trans hbg

/-- A token is no punctuation: named nodes never are, and anonymous ones that are do not count. -/
theorem not_meets_mark_classify (hr : r.pack = lang.pack) (hi : r.isEntered p = true)
    (h : (r.classify p).meets .token = true) : (r.classify p).meets .mark = false := by
  rw [meets_token_classify hr hi] at h
  rw [Bool.eq_false_iff, Ne, Category.meets_iff]
  rintro ⟨f, hf, hmark⟩
  have hnot : f ∉ [Flag.operator, .operand, .else_] ∧ Category.punctuation.has f = true := by
    revert hmark
    cases f <;> decide
  have hbase := has_flags_of_classify hf hnot.1
  have hanonymous : p.node.named ≠ true := by
    intro hn
    have hnone := lang.not_mark_of_named (l := p.node.label) hn
    rw [flags, hr] at hbase
    rw [Category.meets_iff.mpr ⟨f, hbase, hmark⟩] at hnone
    cases hnone
  have hcomposite : r.isComposite p.node ≠ true := fun hc => hanonymous (named_of_isComposite hc)
  rw [tokenOf?, if_neg hcomposite, if_neg hanonymous,
    Category.meets_iff.mpr ⟨f, hbase, hnot.2⟩] at h
  split at h <;> cases h

/-- A scope opener has no flag besides its own and that of a token. -/
theorem has_classify_of_opensScope (hr : r.pack = lang.pack) (ho : r.opensScope p = true)
    {f : Flag} (hf : (r.classify p).has f = true) :
    Category.scope.has f = true ∨ Category.token.has f = true := by
  obtain ⟨e, he, hbase⟩ := flags_of_opensScope hr ho
  rcases has_classify hf with rfl | rfl | rfl | hb
  · exact .inr rfl
  · exact .inr rfl
  · -- an `else` comes from the tables or from an if, and an opener is neither
    rw [has_else_classify (isEntered_of_opensScope ho), hbase] at hf
    revert hf he
    cases e <;> simp [Category.scope]
  · rw [hbase, Category.has_singleton, decide_eq_true_iff] at hb
    exact .inl (hb ▸ he)

/-- The flags of a node never compete. -/
theorem isOrderly_classify (hr : r.pack = lang.pack) (p : Place) :
    (r.classify p).IsOrderly (r.flags p.node) where
  one_scope := atMostOne_scope_classify hr
  one_increment := by
    cases hi : r.isEntered p with
    | true => exact atMostOne_increment_classify hr hi
    | false => exact (isUncontested_of_not_isEntered hi).one_increment
  one_token := by
    cases hi : r.isEntered p with
    | true => exact atMostOne_token_classify hr hi
    | false => exact (isUncontested_of_not_isEntered hi).one_token
  only_comment := classify_eq_comment
  no_mark h := by
    have hi : r.isEntered p = true := by
      rw [← Bool.not_eq_false]
      intro hi
      rcases classify_of_not_isEntered hi with hc | hc <;> rw [hc] at h <;> revert h <;> decide
    exact not_meets_mark_classify hr hi h
  only_opener ho f hf := has_classify_of_opensScope hr ho hf
  origin f hf := by
    by_cases hmem : f ∈ [Flag.operator, .operand, .else_]
    · exact .inl hmem
    · exact .inr (has_flags_of_classify hf hmem)

/-! ### What a frame is told -/

/-- Inside an operand a node has no flag that it would not have outside. -/
theorem has_classify_of_categoryIn {s : Surroundings} {f : Flag}
    (h : (r.categoryIn s p).has f = true) : (r.classify p).has f = true :=
  Category.has_of_ite_diff h

/-- All that a scope opener does not tell the frame that it opens is that it is a token, and then
it is a leaf. -/
theorem has_openingEvent_or (hr : r.pack = lang.pack) {s : Surroundings}
    (ho : (r.categoryIn s p).meets .scope = true) {f : Flag}
    (hf : (r.categoryIn s p).has f = true) :
    (r.openingEvent p.node (r.categoryIn s p)).has f = true ∨
      Category.token.has f = true ∧ p.node.isLeaf = true := by
  have hopens : r.opensScope p = true := meets_scope_categoryIn.symm.trans ho
  have hclassify := has_classify_of_categoryIn hf
  rcases has_classify_of_opensScope hr hopens hclassify with hscope | htoken
  · rw [Event.has, openingEvent, Category.has_inter, hf, hscope]
    exact .inl rfl
  · refine .inr ⟨htoken, ?_⟩
    have hsome : (r.tokenOf? p.node).isSome = true := by
      rw [← meets_token_classify hr (isEntered_of_opensScope hopens)]
      exact Category.meets_iff.mpr ⟨f, hclassify, htoken⟩
    rw [← Bool.not_eq_false]
    intro hleaf
    have hnone := not_meets_scope_of_isComposite hr (isComposite_of_tokenOf? hsome hleaf)
    rw [show (r.classify p).meets .scope = true from hopens] at hnone
    cases hnone

theorem isUncontested_categoryIn (hr : r.pack = lang.pack) (s : Surroundings) (p : Place) :
    (r.categoryIn s p).IsUncontested :=
  (isOrderly_classify hr p).toIsUncontested.mono fun _ => has_classify_of_categoryIn

theorem isUncontested_openingEvent (hr : r.pack = lang.pack) (s : Surroundings) (p : Place) :
    (r.openingEvent p.node (r.categoryIn s p)).category.IsUncontested := by
  refine (isUncontested_categoryIn hr s p).mono fun f hf => ?_
  rw [openingEvent, Category.has_inter, Bool.and_eq_true] at hf
  exact hf.1

/-- What a place tells its frame has no flags that compete. -/
theorem isUncontested_of_mem_eventsAt (hr : r.pack = lang.pack) {access : Option Bool} {e : Event}
    (he : e ∈ r.eventsAt root access p) : e.category.IsUncontested := by
  unfold eventsAt methodEvent nodeEvent at he
  split at he
  · split at he
    · rw [List.mem_singleton.mp he]
      exact Category.isUncontested_singleton .function
    · cases he
  · split at he
    · cases he
    · rw [List.mem_singleton.mp he]
      exact isUncontested_categoryIn hr (r.surroundingsAt root p) p

theorem isUncontested_of_mem_eventsAlong (hr : r.pack = lang.pack) {e : Event} :
    ∀ (access : Option Bool) (ps : List Place), e ∈ r.eventsAlong root access ps →
      e.category.IsUncontested
  | _, [], he => absurd he List.not_mem_nil
  | access, p :: ps, he => by
      rw [eventsAlong, List.mem_append] at he
      rcases he with he | he
      · exact isUncontested_of_mem_eventsAt hr he
      · exact isUncontested_of_mem_eventsAlong hr _ ps he

/-- No frame of a walk hears of flags that compete. -/
theorem isUncontested_walk (hr : r.pack = lang.pack) (name : Option String) (root : Node)
    {b : Frame.Body} (hb : b ∈ (r.walk name root).draft.unit.bodies) {e : Event}
    (he : e ∈ b.events) : e.category.IsUncontested := by
  rw [bodies_eq_routing hr, List.mem_cons] at hb
  rcases hb with rfl | hb
  · exact isUncontested_of_mem_eventsAlong hr _ _ he
  · obtain ⟨o, -, rfl⟩ := List.mem_map.mp hb
    rcases List.mem_cons.mp he with rfl | he
    · exact isUncontested_openingEvent hr (r.surroundingsAt root o) o
    · exact isUncontested_of_mem_eventsAlong hr _ _ he

/-- **Flags never compete.**  In every language, for every source and set of macros: an error node
has no flag and a comment that one alone.  The category of any node in any place has at most one
flag of a scope, one increment of the cognitive score and one token flag, no token flag beside
punctuation, nothing but a token flag beside that of a scope, and no flag besides those of tokens
and of an `else` that is not in the tables.  So a scope opener, wherever it stands, tells its frame
of all its flags but that of a token, and that it has only if it is a leaf; and in every frame of
every walk, each event tallies as if each of its flags were asked for by itself. -/
theorem flags_never_compete (lang : Language) (source : Source) (macros : SortedSet String) :
    let r : Reading := { pack := lang.pack, source, macros }
    (∀ p : Place,
      (p.node.isError = true → r.classify p = ∅) ∧
      (p.node.isError = false → (r.flags p.node).has .comment = true →
        r.classify p = {.comment}) ∧
      (r.classify p).IsOrderly (r.flags p.node)) ∧
    (∀ (s : Surroundings) (p : Place), (r.categoryIn s p).meets .scope = true →
      ∀ f, (r.categoryIn s p).has f = true →
        (r.openingEvent p.node (r.categoryIn s p)).has f = true ∨
          Category.token.has f = true ∧ p.node.isLeaf = true) ∧
    ∀ (name : Option String) (root : Node), ∀ b ∈ (r.walk name root).draft.unit.bodies,
      ∀ e ∈ b.events, Tally.ofEvent e = Tally.flagByFlag e := by
  intro r
  refine ⟨fun p => ⟨classify_of_isError, fun he hc => ?_, isOrderly_classify rfl p⟩,
    fun s p ho f hf => has_openingEvent_or rfl ho hf, fun name root b hb e he => ?_⟩
  · exact classify_eq_comment ((has_comment_classify he).trans hc)
  · exact Tally.ofEvent_eq_flagByFlag (isUncontested_walk rfl name root hb he)

/-- An if of Java right after an `else`, and a closure that is a leaf.  The if has an increment that
the tables do not give it and lacks the one that they do; the closure is an operand, which the frame
that it opens does not hear of. -/
theorem flags_never_compete_chain :
    let node (kind : String) (named : Bool) (cs : List Node) : Node :=
      .mk ⟨kind, named, false, 0, 1, none⟩ cs
    let token := node "else" false []
    let closure := node "lambda_expression" true []
    let inner := node "if_statement" true [closure]
    let root := node "if_statement" true [token, inner]
    let r : Reading := { pack := Language.java.pack, source := ⟨[120]⟩ }
    let p : Place := ⟨inner, [⟨root.label, [token], []⟩]⟩
    let o : Place := ⟨closure, ⟨inner.label, [], []⟩ :: p.above⟩
    let s : Surroundings := { kind := .unit, opener := root }
    (r.flags inner).has .nesting = true ∧ (r.flags inner).has .else_ = false ∧
      (r.classify p).has .else_ = true ∧ (r.classify p).has .nesting = false ∧
      (r.classify p).IsOrderly (r.flags inner) ∧
    (r.categoryIn s o).meets .scope = true ∧ (r.categoryIn s o).has .operand = true ∧
      (r.openingEvent closure (r.categoryIn s o)).has .operand = false ∧ closure.isLeaf = true ∧
    ((r.walk none root).draft.unit.bodies.map fun b => b.events.length) = [3, 1] ∧
      ∀ b ∈ (r.walk none root).draft.unit.bodies, ∀ e ∈ b.events,
        Tally.ofEvent e = Tally.flagByFlag e := by
  intro node token closure inner root r p o s
  obtain ⟨hclassify, hopening, hwalk⟩ := flags_never_compete .java r.source ∅
  have helse : (r.classify p).has .else_ = true := by decide +kernel
  have horderly : (r.classify p).IsOrderly (r.flags inner) := (hclassify p).2.2
  have hscope : (r.categoryIn s o).meets .scope = true := by decide +kernel
  have hoperand : (r.categoryIn s o).has .operand = true := by decide +kernel
  have hsilent : (r.openingEvent closure (r.categoryIn s o)).has .operand = false := by
    decide +kernel
  have hleaf : closure.isLeaf = true := by
    rcases hopening s o hscope .operand hoperand with htold | hleaf
    · rw [hsilent] at htold
      cases htold
    · exact hleaf.2
  exact ⟨by decide +kernel, by decide +kernel, helse,
    horderly.one_increment.not_has .else_ .nesting helse, horderly,
    hscope, hoperand, hsilent, hleaf, by decide +kernel, hwalk none root⟩

end Reading

end ScopeMetrics
