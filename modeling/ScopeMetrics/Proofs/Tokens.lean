import ScopeMetrics.Proofs.FlatLines
import ScopeMetrics.Proofs.Routing
import ScopeMetrics.Proofs.Tables

/-!
# Every token is counted once

A token is counted where its node stands, unless a composite is above it: then the outermost
composite is counted instead, as one operand.  A composite may hold scopes, whose nodes belong to
other frames but are still part of it.

* `Halstead.ofTokens`: the bags of a list of tokens; putting lists together combines them.
* `Parcel.halstead_metrics`: the rolled-up bags of a space are those of the tokens of its subtree.
* `Reading.tokens_walk`: the tokens of a frame are the counted places that it owns.
* `Reading.not_isCounted_of_mem_ancestors`: nothing above a counted place is counted.
* `Reading.IsCountable.filter_isCounted`: from a leaf upwards exactly one place is counted.
* **`Reading.tokens_counted_once`**: all of this, for every tree in every language.
-/

namespace ScopeMetrics

/-! ### Tokens in bags -/

/-- A counted token: which of the two classes it is in, and its text. -/
structure Token where
  isOperator : Bool
  text : String
  deriving DecidableEq

/-- The flag of a token. -/
def Token.flag (t : Token) : Flag := if t.isOperator then .operator else .operand

/-- The token that an event counts as.  An event with both flags counts as an operator. -/
def Event.token? (e : Event) : Option Token :=
  if e.has .operator then some ⟨true, e.text⟩
  else if e.has .operand then some ⟨false, e.text⟩
  else none

namespace Halstead

/-- The bags of a list of tokens. -/
def ofTokens (ts : List Token) : Halstead where
  operators := .ofList ((ts.filter Token.isOperator).map Token.text)
  operands := .ofList ((ts.filter fun t => !t.isOperator).map Token.text)

theorem ofTokens_append (ts us : List Token) :
    ofTokens (ts ++ us) = (ofTokens ts).combine (ofTokens us) := by
  simp only [ofTokens, combine, List.filter_append, List.map_append, Bag.ofList_append]

theorem ofTokens_perm {ts us : List Token} (h : ts.Perm us) : ofTokens ts = ofTokens us := by
  rw [ofTokens, ofTokens, Bag.ofList_perm ((h.filter _).map _),
    Bag.ofList_perm ((h.filter _).map _)]

theorem length_ofTokens (ts : List Token) : (ofTokens ts).length = ts.length := by
  rw [length, ofTokens, Bag.total_ofList, Bag.total_ofList, List.length_map, List.length_map,
    ← List.length_eq_length_filter_add]

end Halstead

theorem Tally.halsteadOf_eq (e : Event) : halsteadOf e = .ofTokens e.token?.toList := by
  unfold halsteadOf Event.token?
  split
  · rfl
  · split <;> rfl

/-- The bags of a tally are those of the tokens among its events. -/
theorem Tally.halstead_ofEvents (es : List Event) :
    (ofEvents es).halstead = .ofTokens (es.filterMap Event.token?) := by
  have hfold : ∀ (ts : List Token) {t : Tally}, t.halstead = .ofTokens ts →
      (es.foldl observe t).halstead = .ofTokens (ts ++ es.filterMap Event.token?) := by
    induction es with
    | nil =>
        intro ts t h
        rwa [List.filterMap_nil, List.append_nil]
    | cons e es ih =>
        intro ts t h
        have hobserve : (t.observe e).halstead = .ofTokens (ts ++ e.token?.toList) := by
          rw [Halstead.ofTokens_append, ← h, ← halsteadOf_eq]
          rfl
        have htokens : e.token?.toList ++ es.filterMap Event.token? =
            (e :: es).filterMap Event.token? := by
          rw [List.filterMap_cons]
          cases e.token? <;> rfl
        rw [List.foldl_cons, ih _ hobserve, List.append_assoc, htokens]
  exact hfold [] rfl

/-- The tokens of a frame alone. -/
def Frame.Body.tokens (b : Frame.Body) : List Token := b.events.filterMap Event.token?

namespace Parcel

theorem halstead_own (use : LineUse) (p : Parcel) :
    (p.space use).own.halstead = .ofTokens p.body.tokens := by
  obtain ⟨body, span, inside⟩ := p
  exact Tally.halstead_ofEvents body.events

theorem halstead_joined (use : LineUse) (ps : List Parcel) : ∀ {b : Bundle} {ts : List Token},
    b.halstead = .ofTokens ts → (b.joined (ps.map fun p => (p.space use).own)).halstead =
      .ofTokens (ts ++ ps.flatMap fun p => p.body.tokens) := by
  induction ps with
  | nil =>
      intro b ts h
      rw [List.flatMap_nil, List.append_nil]
      exact h
  | cons p ps ih =>
      intro b ts h
      have hp : (b.combine (p.space use).own).halstead = .ofTokens (ts ++ p.body.tokens) := by
        rw [Halstead.ofTokens_append, ← h, ← halstead_own use]
        rfl
      rw [List.map_cons, List.flatMap_cons, ← List.append_assoc]
      exact ih hp

/-- The rolled-up bags of a space are those of the tokens of its subtree. -/
theorem halstead_metrics (use : LineUse) (p : Parcel) :
    (p.space use).metrics.halstead = .ofTokens (p.all.flatMap fun q => q.body.tokens) := by
  rw [Space.metrics_of_isRolled (p.isRolled_space use), descendants_space, List.map_map, all_eq]
  exact halstead_joined use _ (p.halstead_own use)

end Parcel

namespace Reading

variable {r : Reading} {root : Node} {p q a : Place} {lang : Language}

/-! ### Counted places -/

/-- Whether the event by which a node tells its frame of itself carries the flag of a token.  A
scope opener has no such event. -/
def isCounted (r : Reading) (p : Place) : Bool :=
  r.isReached p && !r.opensScope p && (r.categoryAt p).meets .token

/-- The token that a counted place is. -/
def tokenAt (r : Reading) (p : Place) : Token := ⟨(r.categoryAt p).has .operator, r.text p.node⟩

/-- The addresses of the frames of a tree, in preorder. -/
def frameAddresses (r : Reading) (root : Node) : List (Option (List Nat)) :=
  none :: (root.places.filter r.opensFrame).map fun o => some o.address

/-! ### The tokens of a frame -/

theorem token?_openingEvent (n : Node) (c : Category) : (r.openingEvent n c).token? = none := by
  have hnot : ∀ f, Category.scope.has f = false → (r.openingEvent n c).has f = false := by
    intro f hf
    rw [Event.has, openingEvent, Category.has_inter, hf, Bool.and_false]
  rw [Event.token?, hnot .operator rfl, hnot .operand rfl]
  rfl

theorem filterMap_token?_methodEvent (s : Surroundings) (access : Option Bool) (n : Node)
    (c : Category) : (r.methodEvent s access n c).filterMap Event.token? = [] := by
  unfold methodEvent
  split
  · simp [Event.token?, Event.has]
  · rfl

theorem filterMap_token?_nodeEvent (s : Surroundings) (access : Option Bool) (p : Place)
    (c : Category) : (r.nodeEvent s access p c).filterMap Event.token? =
      if c.meets .token then [⟨c.has .operator, r.text p.node⟩] else [] := by
  unfold nodeEvent
  by_cases hempty : c = ∅
  · rw [if_pos hempty, hempty]
    rfl
  · rw [if_neg hempty, Category.meets_token]
    cases hor : c.has .operator <;> cases hand : c.has .operand <;>
      simp [Event.token?, Event.has, hor, hand]

/-- A place tells its frame of one token, if it is counted. -/
theorem filterMap_token?_eventsAt (access : Option Bool) (p : Place) :
    (r.eventsAt root access p).filterMap Event.token? =
      if !r.opensScope p && (r.categoryAt p).meets .token then [r.tokenAt p] else [] := by
  unfold eventsAt
  cases ho : r.opensScope p with
  | true => exact filterMap_token?_methodEvent _ _ _ _
  | false => exact filterMap_token?_nodeEvent _ _ _ _

theorem filterMap_token?_eventsAlong : ∀ (access : Option Bool) (ps : List Place),
    (r.eventsAlong root access ps).filterMap Event.token? =
      (ps.filter fun p => !r.opensScope p && (r.categoryAt p).meets .token).map r.tokenAt
  | _, [] => rfl
  | access, p :: ps => by
      rw [eventsAlong, List.filterMap_append, filterMap_token?_eventsAt,
        filterMap_token?_eventsAlong _ ps, List.filter_cons]
      split <;> rfl

theorem not_isError_of_meets_categoryAt {d : Category} (h : (r.categoryAt p).meets d = true) :
    p.node.isError = false := by
  rw [Bool.eq_false_iff]
  intro he
  obtain ⟨f, hf, -⟩ := Category.meets_iff.mp h
  rw [categoryAt, classify_of_isError he] at hf
  split at hf <;> simp at hf

/-- The counted places that belong to a frame. -/
theorem filter_belongsTo_counted (k : Option (List Nat)) (ps : List Place) :
    (ps.filter (r.belongsTo k)).filter (fun p => !r.opensScope p && (r.categoryAt p).meets .token) =
      (ps.filter r.isCounted).filter fun p => r.ownerAddress p == k := by
  rw [List.filter_filter, List.filter_filter]
  refine List.filter_congr fun p _ => ?_
  rw [belongsTo, isCounted]
  cases hm : (r.categoryAt p).meets .token with
  | false => simp
  | true =>
      rw [not_isError_of_meets_categoryAt hm]
      cases r.isReached p <;> cases r.opensScope p <;> simp

/-- **The tokens of a frame are the counted places that it owns**, in preorder. -/
theorem tokens_walk (hr : r.pack = lang.pack) (name : Option String) (root : Node) :
    (r.walk name root).draft.unit.bodies.map Frame.Body.tokens =
      (r.frameAddresses root).map fun k =>
        ((root.places.filter r.isCounted).filter fun p => r.ownerAddress p == k).map r.tokenAt := by
  have halong : ∀ access k, (r.eventsAlong root access
      (root.places.filter (r.belongsTo k))).filterMap Event.token? =
        ((root.places.filter r.isCounted).filter fun p => r.ownerAddress p == k).map r.tokenAt := by
    intro access k
    rw [filterMap_token?_eventsAlong, filter_belongsTo_counted]
  rw [bodies_eq_routing hr, frameAddresses, List.map_cons, List.map_cons, List.map_map,
    List.map_map]
  refine congrArg₂ _ (halong _ _) (List.map_congr_left fun o _ => ?_)
  rw [Function.comp_apply, Frame.Body.tokens, bodyAt,
    List.filterMap_cons_none (token?_openingEvent _ _)]
  exact halong _ _

/-- The bags of each space alone are those of the counted places that its frame owns. -/
theorem map_halstead_walk (hr : r.pack = lang.pack) (name : Option String) (root : Node)
    (use : LineUse) :
    ((r.walk name root).draft.unit.survey.space use).all.map (fun s => s.own.halstead) =
      (r.frameAddresses root).map fun k => .ofTokens (((root.places.filter r.isCounted).filter
        fun p => r.ownerAddress p == k).map r.tokenAt) := by
  have hbodies := congrArg (List.map Halstead.ofTokens) (tokens_walk hr name root)
  rw [← Frame.map_body_surveyIn _ ⟨_, _⟩, List.map_map, List.map_map, List.map_map] at hbodies
  rw [Parcel.all_space, List.map_map]
  simp only [Function.comp_def, Parcel.halstead_own] at hbodies ⊢
  exact hbodies

/-- A part of the bags of each space alone. -/
theorem map_part_walk {β : Type} (part : Halstead → β) (hr : r.pack = lang.pack)
    (name : Option String) (root : Node) (use : LineUse) :
    ((r.walk name root).draft.unit.survey.space use).all.map (fun s => part s.own.halstead) =
      (r.frameAddresses root).map fun k => part (.ofTokens (((root.places.filter r.isCounted).filter
        fun p => r.ownerAddress p == k).map r.tokenAt)) := by
  have hparts := congrArg (List.map part) (map_halstead_walk hr name root use)
  rw [List.map_map, List.map_map] at hparts
  exact hparts

/-! ### One counted place from a leaf upwards -/

/-- The token that a node is by itself: a composite and a named leaf are operands, the name of a
macro and any other leaf are operators, unless the leaf is punctuation or empty. -/
def tokenOf? (r : Reading) (n : Node) : Option Token :=
  if r.isComposite n then some ⟨false, r.text n⟩
  else if !n.isLeaf then none
  else if n.named then some ⟨r.isMacro n, r.text n⟩
  else if (r.flags n).meets .punctuation || n.isEmpty then none
  else some ⟨true, r.text n⟩

theorem text_of_tokenOf? {n : Node} {t : Token} (h : r.tokenOf? n = some t) :
    t.text = r.text n := by
  unfold tokenOf? at h
  split_ifs at h <;> cases h <;> rfl

theorem tokenRule_eq (n : Node) : r.tokenRule n (r.flags n) =
    match r.tokenOf? n with
    | none => r.flags n
    | some t => r.flags n ∪ {t.flag} := by
  unfold tokenRule tokenOf?
  split_ifs with _ _ _ hm
  · rfl
  · rfl
  · rw [hm]
    rfl
  · rw [Bool.eq_false_iff.mpr hm]
    rfl
  · rfl
  · rfl

/-- A node that is neither an error nor a comment has the flag of the token that it is. -/
theorem has_token_classify (hr : r.pack = lang.pack) (hi : r.isEntered p = true) {f : Flag}
    (hf : Category.token.has f = true) :
    (r.classify p).has f = decide ((r.tokenOf? p.node).map Token.flag = some f) := by
  have hcode : Category.code.has f = true := by
    revert hf
    cases f <;> decide
  have hbase : (r.flags p.node).has f = false := by
    rw [flags, hr]
    exact Language.not_token_flags hf
  rw [has_classify_of_code hcode (isError_of_isEntered hi) (not_comment_of_isEntered hi),
    tokenRule_eq]
  cases r.tokenOf? p.node with
  | none => rw [hbase]; rfl
  | some t => rw [Category.has_union, hbase, Bool.false_or, Category.has_singleton]; simp

theorem meets_token_classify (hr : r.pack = lang.pack) (hi : r.isEntered p = true) :
    (r.classify p).meets .token = (r.tokenOf? p.node).isSome := by
  rw [Category.meets_token, has_token_classify hr hi (f := .operator) rfl,
    has_token_classify hr hi (f := .operand) rfl]
  cases r.tokenOf? p.node with
  | none => rfl
  | some t =>
      obtain ⟨isOperator, text⟩ := t
      cases isOperator <;> rfl

theorem meets_token_categoryAt (hr : r.pack = lang.pack) (hi : r.isEntered p = true) :
    (r.categoryAt p).meets .token =
      (!r.isInOperand p.ancestors && (r.tokenOf? p.node).isSome) := by
  rw [categoryAt]
  cases r.isInOperand p.ancestors with
  | true => simp [Category.token]
  | false => exact meets_token_classify hr hi

theorem isEntered_of_meets_token (h : (r.categoryAt p).meets .token = true) :
    r.isEntered p = true := by
  have hc : (r.classify p).has .comment = false := by
    rw [Bool.eq_false_iff]
    intro hc
    rw [categoryAt, classify_eq_comment hc] at h
    revert h
    split <;> decide
  rw [isEntered, not_isError_of_meets_categoryAt h, hc]
  rfl

/-- A place is counted if it is a token of its own and no composite is above it. -/
theorem isCounted_iff (hr : r.pack = lang.pack) : r.isCounted p = true ↔
    r.isReached p = true ∧ r.isEntered p = true ∧ r.opensScope p = false ∧
      r.isInOperand p.ancestors = false ∧ (r.tokenOf? p.node).isSome = true := by
  rw [isCounted, Bool.and_eq_true, Bool.and_eq_true, Bool.not_eq_true', and_assoc]
  refine and_congr_right fun _ => ?_
  constructor
  · rintro ⟨ho, hm⟩
    have hi := isEntered_of_meets_token hm
    rw [meets_token_categoryAt hr hi, Bool.and_eq_true, Bool.not_eq_true'] at hm
    exact ⟨hi, ho, hm⟩
  · rintro ⟨hi, ho, hm⟩
    rw [meets_token_categoryAt hr hi, Bool.and_eq_true, Bool.not_eq_true']
    exact ⟨ho, hm⟩

/-- A counted place is the token that its node is. -/
theorem tokenOf?_of_isCounted (hr : r.pack = lang.pack) (h : r.isCounted p = true) :
    r.tokenOf? p.node = some (r.tokenAt p) := by
  obtain ⟨-, hi, -, hin, htoken⟩ := (isCounted_iff hr).mp h
  obtain ⟨t, ht⟩ := Option.isSome_iff_exists.mp htoken
  have hop : (r.categoryAt p).has .operator = t.isOperator := by
    rw [categoryAt, hin, if_neg Bool.false_ne_true, has_token_classify hr hi rfl, ht]
    obtain ⟨isOperator, text⟩ := t
    cases isOperator <;> rfl
  rw [ht, tokenAt, hop, ← text_of_tokenOf? ht]

theorem isInOperand_of_mem (ha : a ∈ p.ancestors) (hc : r.isComposite a.node = true) :
    r.isInOperand p.ancestors = true :=
  List.any_eq_true.mpr ⟨a, ha, hc⟩

theorem named_of_isComposite {n : Node} (h : r.isComposite n = true) : n.named = true := by
  rw [isComposite, Pack.isComposite, Bool.and_eq_true] at h
  exact h.1

theorem isSome_tokenOf?_of_isComposite {n : Node} (h : r.isComposite n = true) :
    (r.tokenOf? n).isSome = true := by
  rw [tokenOf?, if_pos h]
  rfl

theorem isComposite_of_tokenOf? {n : Node} (h : (r.tokenOf? n).isSome = true)
    (hleaf : n.isLeaf = false) : r.isComposite n = true := by
  unfold tokenOf? at h
  split at h
  · assumption
  · rw [hleaf] at h
    cases h

/-- Nothing above a counted place is counted: it is no leaf, and a composite would have hidden the
place. -/
theorem not_isCounted_of_mem_ancestors (hr : r.pack = lang.pack) (hp : r.isCounted p = true)
    (ha : a ∈ p.ancestors) : r.isCounted a = false := by
  rw [Bool.eq_false_iff]
  intro hcounted
  obtain ⟨-, -, -, -, htoken⟩ := (isCounted_iff hr).mp hcounted
  obtain ⟨-, -, -, hin, -⟩ := (isCounted_iff hr).mp hp
  have hc := isComposite_of_tokenOf? htoken (Place.not_isLeaf_of_mem_ancestors ha)
  rw [isInOperand_of_mem ha hc] at hin
  cases hin

theorem isReached_of_mem_ancestors (hp : r.isReached p = true) (ha : a ∈ p.ancestors) :
    r.isReached a = true ∧ r.isEntered a = true := by
  have hall := List.all_eq_true.mp hp
  refine ⟨List.all_eq_true.mpr fun b hb => hall b ?_, hall a ha⟩
  exact (Place.ancestors_suffix_of_mem_ancestors ha).subset (List.mem_cons_of_mem a hb)

/-- If a composite is above a reached place, the outermost one is counted. -/
theorem exists_counted_of_isInOperand (hr : r.pack = lang.pack) {p : Place}
    (hp : r.isReached p = true) (hin : r.isInOperand p.ancestors = true) :
    ∃ a ∈ p.ancestors, r.isCounted a = true ∧ r.isComposite a.node = true := by
  obtain ⟨a, _ha, hc⟩ := List.any_eq_true.mp hin
  obtain ⟨hreached, hentered⟩ := isReached_of_mem_ancestors hp _ha
  cases houter : r.isInOperand a.ancestors with
  | true =>
      obtain ⟨b, hb, hcounted⟩ := exists_counted_of_isInOperand hr hreached houter
      have hsuffix := Place.ancestors_suffix_of_mem_ancestors _ha
      exact ⟨b, hsuffix.subset (List.mem_cons_of_mem a hb), hcounted⟩
  | false =>
      have ho : r.opensScope a = false := not_meets_scope_of_isComposite hr hc
      exact ⟨a, _ha, (isCounted_iff hr).mpr
        ⟨hreached, hentered, ho, houter, isSome_tokenOf?_of_isComposite hc⟩, hc⟩
termination_by p.address.length
decreasing_by exact Place.length_address_of_mem_ancestors _ha

/-- A leaf that has to be counted, by itself or with a composite around it. -/
structure IsCountable (r : Reading) (p : Place) : Prop where
  reached : r.isReached p = true
  error : p.node.isError = false
  leaf : p.node.isLeaf = true
  comment : (r.classify p).has .comment = false
  opener : r.opensScope p = false
  punctuation : p.node.named = false →
    (r.classify p).has .terminator = false ∧ (r.classify p).has .delimiter = false
  empty : p.node.named = false → p.node.isEmpty = false

/-- A flag of punctuation stays with a node. -/
theorem has_classify_of_mark (he : p.node.isError = false)
    (hc : (r.classify p).has .comment = false) {f : Flag} (hf : Category.code.has f = true)
    (htoken : Category.token.has f = false) : (r.classify p).has f = (r.flags p.node).has f := by
  rw [has_classify_of_code hf he hc, has_tokenRule_of_not htoken]

namespace IsCountable

theorem isSome_tokenOf? (h : r.IsCountable p) : (r.tokenOf? p.node).isSome = true := by
  unfold tokenOf?
  rw [h.leaf]
  split_ifs with hcomposite hleaf hnamed hout
  · rfl
  · cases hleaf
  · rfl
  · rw [Bool.not_eq_true] at hnamed
    have hmark : (r.flags p.node).meets .punctuation = false := by
      obtain ⟨hterminator, hdelimiter⟩ := h.punctuation hnamed
      rw [has_classify_of_mark h.error h.comment rfl rfl] at hterminator hdelimiter
      have hcomment := h.comment
      rw [has_comment_classify h.error] at hcomment
      simp only [Category.punctuation, Category.meets_insert, Category.meets_singleton,
        hterminator, hdelimiter, hcomment, Bool.or_false]
    rw [hmark, h.empty hnamed] at hout
    cases hout
  · rfl

/-- A countable leaf is counted, or a composite above it is. -/
theorem exists_counted (hr : r.pack = lang.pack) (h : r.IsCountable p) :
    ∃ q ∈ p :: p.ancestors, r.isCounted q = true ∧ (q = p ∨ r.isComposite q.node = true) := by
  cases hin : r.isInOperand p.ancestors with
  | true =>
      obtain ⟨a, ha, hcounted, hc⟩ := exists_counted_of_isInOperand hr h.reached hin
      exact ⟨a, List.mem_cons_of_mem p ha, hcounted, .inr hc⟩
  | false =>
      have hi : r.isEntered p = true := by
        rw [isEntered, h.error, h.comment]
        rfl
      exact ⟨p, List.mem_cons_self, (isCounted_iff hr).mpr
        ⟨h.reached, hi, h.opener, hin, h.isSome_tokenOf?⟩, .inl rfl⟩

/-- From a countable leaf upwards exactly one place is counted. -/
theorem filter_isCounted (hr : r.pack = lang.pack) (h : r.IsCountable p) :
    ∃ q, (p :: p.ancestors).filter r.isCounted = [q] ∧ (q = p ∨ r.isComposite q.node = true) := by
  obtain ⟨q, hq, hcounted, hwhich⟩ := h.exists_counted hr
  refine ⟨q, ?_, hwhich⟩
  have hpairwise := p.pairwise_ancestors.imp fun {x y} hy (hx : r.isCounted x = true) =>
    not_isCounted_of_mem_ancestors hr hx hy
  obtain ⟨below, above, hsplit⟩ := List.append_of_mem hq
  rw [hsplit, List.pairwise_append, List.pairwise_cons] at hpairwise
  obtain ⟨-, ⟨habove, -⟩, hbelow⟩ := hpairwise
  have hnone : below.filter r.isCounted = [] := List.filter_eq_nil_iff.mpr fun x hx hx' => by
    rw [hbelow x hx q List.mem_cons_self hx'] at hcounted
    cases hcounted
  have hnone' : above.filter r.isCounted = [] := List.filter_eq_nil_iff.mpr fun x hx hx' => by
    rw [habove x hx hcounted] at hx'
    cases hx'
  rw [hsplit, List.filter_append, List.filter_cons_of_pos hcounted, hnone, hnone', List.nil_append]

end IsCountable

/-! ### All frames together -/

/-- The members of a list, put together key by key. -/
theorem perm_flatMap_filter {α κ : Type} [BEq κ] [LawfulBEq κ] (key : α → κ) :
    ∀ (keys : List κ) (xs : List α), keys.Nodup → (∀ x ∈ xs, key x ∈ keys) →
      (keys.flatMap fun k => xs.filter fun x => key x == k).Perm xs
  | [], [], _, _ => .nil
  | [], x :: _, _, h => absurd (h x List.mem_cons_self) List.not_mem_nil
  | k :: keys, xs, hnodup, h => by
      obtain ⟨hk, hkeys⟩ := List.nodup_cons.mp hnodup
      have hrest := perm_flatMap_filter key keys (xs.filter fun x => !(key x == k)) hkeys
        fun x hx => by
          obtain ⟨hx, hne⟩ := List.mem_filter.mp hx
          rcases List.mem_cons.mp (h x hx) with he | he
          · rw [he, beq_self_eq_true] at hne
            cases hne
          · exact he
      have hsame : (keys.flatMap fun j => xs.filter fun x => key x == j) =
          keys.flatMap fun j => (xs.filter fun x => !(key x == k)).filter fun x => key x == j := by
        refine List.flatMap_congr fun j hj => ?_
        rw [List.filter_filter]
        refine List.filter_congr fun x _ => ?_
        by_cases hx : key x = j
        · have hne : key x ≠ k := fun he => hk (he ▸ hx ▸ hj)
          rw [beq_eq_false_iff_ne.mpr hne, Bool.not_false, Bool.and_true]
        · rw [beq_eq_false_iff_ne.mpr hx, Bool.false_and]
      rw [List.flatMap_cons, hsame]
      exact (hrest.append_left _).trans (List.filter_append_perm _ xs)

theorem nodup_frameAddresses (r : Reading) (root : Node) : (r.frameAddresses root).Nodup := by
  refine List.nodup_cons.mpr ⟨by simp, List.pairwise_map.mpr ?_⟩
  refine ((Place.pairwise_address_subtree (.root root)).filter _).imp fun hne he => ?_
  exact hne (Option.some.inj he)

/-- A reached place of a tree belongs to one of its frames. -/
theorem ownerAddress_mem_frameAddresses (hp : p ∈ root.places) (hreached : r.isReached p = true) :
    r.ownerAddress p ∈ r.frameAddresses root := by
  rw [ownerAddress]
  cases howner : r.owner? p with
  | none => exact List.mem_cons_self
  | some o =>
      have ho : o ∈ p.ancestors := List.mem_of_find?_eq_some howner
      have hopens : r.opensScope o = true := List.find?_some howner
      refine List.mem_cons_of_mem _ (List.mem_map_of_mem (List.mem_filter.mpr ⟨?_, ?_⟩))
      · exact Place.mem_places_of_mem_ancestors hp ho
      · rw [opensFrame, (isReached_of_mem_ancestors hreached ho).1, hopens]
        rfl

/-- The tokens of all frames are the counted places of the tree. -/
theorem perm_tokens_walk (hr : r.pack = lang.pack) (name : Option String) (root : Node) :
    ((r.walk name root).draft.unit.bodies.flatMap Frame.Body.tokens).Perm
      ((root.places.filter r.isCounted).map r.tokenAt) := by
  rw [List.flatMap_def, tokens_walk hr, ← List.flatMap_def, ← List.map_flatMap]
  refine (perm_flatMap_filter r.ownerAddress _ _ (r.nodup_frameAddresses root) fun p hp => ?_).map _
  obtain ⟨hp, hcounted⟩ := List.mem_filter.mp hp
  exact ownerAddress_mem_frameAddresses hp ((isCounted_iff hr).mp hcounted).1

/-- **Every token is counted once.**  In every language, for every source, set of macros and tree:
the tokens of each frame are the counted places that it owns.  Nothing above a counted place is
counted.  Of a leaf that is reached, that is no error, comment, scope opener or anonymous mark of
punctuation and not anonymous and empty, and of what is above it, exactly one place is counted: the
leaf or a composite.  The unit has spaces, its rolled-up operators and operands are the texts of
the counted places by class, and its length is their number. -/
theorem tokens_counted_once (lang : Language) (source : Source) (macros : SortedSet String)
    (name : Option String) (root : Node) :
    let r : Reading := { pack := lang.pack, source, macros }
    let d := (r.walk name root).draft
    let counted := root.places.filter r.isCounted
    d.unit.bodies.map Frame.Body.tokens = (r.frameAddresses root).map (fun k =>
      (counted.filter fun p => r.ownerAddress p == k).map r.tokenAt) ∧
    (∀ p ∈ counted, ∀ a ∈ p.ancestors, r.isCounted a = false) ∧
    (∀ p ∈ root.places, r.IsCountable p → ∃ q, (p :: p.ancestors).filter r.isCounted = [q] ∧
      (q = p ∨ r.isComposite q.node = true)) ∧
    ∃ unit, d.spaces = .ok unit ∧ unit.metrics.halstead = .ofTokens (counted.map r.tokenAt) ∧
      unit.metrics.halstead.length = counted.length := by
  intro r d counted
  have hhalstead : (d.unit.survey.space d.lineUse).metrics.halstead =
      .ofTokens (counted.map r.tokenAt) := by
    rw [Parcel.halstead_metrics, ← List.flatMap_map Parcel.body, Frame.survey,
      Frame.map_body_surveyIn]
    exact Halstead.ofTokens_perm (perm_tokens_walk rfl name root)
  refine ⟨tokens_walk rfl name root, fun p hp a => ?_, fun p _ h => h.filter_isCounted rfl,
    _, r.spaces_walk name root, hhalstead, ?_⟩
  · exact not_isCounted_of_mem_ancestors rfl (List.mem_filter.mp hp).2
  · rw [hhalstead, Halstead.length_ofTokens, List.length_map]

/-- A template with a closure in it, which holds a template of its own: the name in the inner
template belongs to the frame of the closure, and is counted with the outer template, in the
unit. -/
theorem tokens_counted_once_template :
    let leaf (kind : String) (named : Bool) (start stop : Nat) : Node :=
      .mk ⟨kind, named, false, start, stop, none⟩ []
    let inner : Node := .mk ⟨"template_string", true, false, 4, 7, none⟩
      [leaf "identifier" true 5 6]
    let closure : Node := .mk ⟨"arrow_function", true, false, 2, 7, none⟩
      [leaf "identifier" true 2 3, inner]
    let outer : Node := .mk ⟨"template_string", true, false, 0, 8, none⟩ [closure]
    let mark : Node := leaf ";" false 8 9
    let root : Node := .mk ⟨"program", true, false, 0, 9, none⟩ [outer, mark]
    let r : Reading :=
      { pack := Language.javascript.pack, source := ⟨[96, 36, 120, 61, 96, 121, 96, 96, 59]⟩ }
    let top : Place := ⟨outer, [⟨root.label, [], [mark]⟩]⟩
    let p : Place := ⟨leaf "identifier" true 5 6, [⟨inner.label, [], []⟩,
      ⟨closure.label, [leaf "identifier" true 2 3], []⟩, ⟨outer.label, [], []⟩,
      ⟨root.label, [], [mark]⟩]⟩
    top ∈ root.places.filter r.isCounted ∧ .root root ∈ top.ancestors ∧
      r.isCounted (.root root) = false ∧
    p ∈ root.places ∧ r.IsCountable p ∧ r.isCounted p = false ∧
      (∃ q, (p :: p.ancestors).filter r.isCounted = [q] ∧
        (q = p ∨ r.isComposite q.node = true)) ∧
    ∃ unit, (r.walk none root).draft.spaces = .ok unit ∧ unit.metrics.halstead.length = 1 := by
  intro leaf inner closure outer mark root r top p
  obtain ⟨-, habove, honce, unit, hunit, -, hlength⟩ :=
    tokens_counted_once .javascript r.source ∅ none root
  have htop : top ∈ root.places.filter r.isCounted :=
    List.mem_filter.mpr ⟨.tail _ (.head _), by decide +kernel⟩
  have hp : p ∈ root.places := .tail _ (.tail _ (.tail _ (.tail _ (.tail _ (.head _)))))
  have hcountable : r.IsCountable p :=
    ⟨by decide +kernel, rfl, rfl, by decide +kernel, by decide +kernel, by decide, by decide⟩
  exact ⟨htop, .head _, habove top htop _ (.head _), hp, hcountable, by decide +kernel,
    honce p hp hcountable, unit, hunit, hlength.trans (by decide +kernel)⟩

end Reading

end ScopeMetrics
