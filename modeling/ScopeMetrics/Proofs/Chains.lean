import ScopeMetrics.Proofs.Ledger

/-!
# Chains of conditions

Grammars write an if with further arms in three ways.  Some wrap the `else` and what follows it,
some put both beside the first arm, and one has a clause for each further arm.  In the first two a
further arm is an if of its own, so a chain is as deep as it is long.

* `Chain`: an if with all its arms, and its `Outline`: the nodes that make up the chain, the nodes
  that the arms hold, and how many arms there are.
* `governor?_of_alternative`: the `else` belongs to the if, in each way of writing it.
* `shares_of_chain`: what the arms of a chain add, the first one in any position.
* **`chain_scores_flat`**: however it is written, a chain scores its first arm by its nesting and
  every other arm and the last `else` with one point, adds one decision for each arm, and what its
  arms hold is one level deeper than the chain.
-/

namespace ScopeMetrics

namespace Place

/-- A child has the children before it and after it for siblings. -/
theorem above_of_childrenFrom_eq {l : Label} {above : List Crumb} {q : Place} {ys : List Place} :
    ∀ {cs before : List Node} {xs : List Place}, childrenFrom l above before cs = xs ++ q :: ys →
      q.above = ⟨l, (xs.map node).reverse ++ before, ys.map node⟩ :: above
  | [], _, [], h => by cases h
  | [], _, _ :: _, h => by cases h
  | c :: cs, before, [], h => by
      obtain ⟨rfl, rfl⟩ := List.cons.inj h
      rw [map_node_childrenFrom]
      rfl
  | c :: cs, before, x :: xs, h => by
      obtain ⟨rfl, hrest⟩ := List.cons.inj h
      rw [above_of_childrenFrom_eq hrest]
      simp

theorem above_of_children_eq {p q : Place} {xs ys : List Place} (h : p.children = xs ++ q :: ys) :
    q.above = ⟨p.node.label, (xs.map node).reverse, ys.map node⟩ :: p.above := by
  rw [above_of_childrenFrom_eq h, List.append_nil]

end Place

/-! ### How a chain is written -/

/-- How a grammar attaches what follows the first arm of a chain. -/
inductive ChainStyle where
  /-- A wrapper holds the `else` and what follows it. -/
  | wrapped
  /-- The `else` and what follows it are children of the if. -/
  | beside
  /-- Further arms are clauses of the first one, and a wrapper holds the `else`. -/
  | clauses
  deriving DecidableEq

/-- How a language attaches it; two languages have no conditions. -/
def Language.chainStyle? : Language → Option ChainStyle
  | .cpp | .javascript | .rust | .typescript | .tsx => some .wrapped
  | .csharp | .go | .java => some .beside
  | .python => some .clauses
  | .css | .html => none

/-- The kind of an if. -/
def Language.ifKind : Language → String
  | .rust => "if_expression"
  | _ => "if_statement"

/-- The token `else`. -/
structure Node.IsElse (n : Node) : Prop where
  leaf : n.isLeaf = true
  anonymous : n.named = false
  kind_eq : n.kind = "else"
  isError : n.isError = false

/-- Whether a node goes on with a chain, and is not held by an arm. -/
def Node.continues (n : Node) : Bool :=
  if n.named then n.kind == "else_clause" || n.kind == "elif_clause" else n.kind == "else"

/-- The children of an if that end in an `else`: those before the `else`, the `else` and what
follows it. -/
inductive Alternative : ChainStyle → Place → List Place → Place → List Place → Prop where
  | wrapped {style : ChainStyle} {p w e : Place} {before rest : List Place}
      (hstyle : style ≠ .beside) (hchildren : p.children = before ++ [w])
      (hw : w.node.Is "else_clause") (hinside : w.children = e :: rest) (he : e.node.IsElse) :
      Alternative style p before e rest
  | beside {p e : Place} {before rest : List Place} (hchildren : p.children = before ++ e :: rest)
      (he : e.node.IsElse) : Alternative .beside p before e rest

/-- What a chain is made of: the nodes of its arms and its `else` tokens, what the arms and the last
`else` hold, the number of its arms, and whether it ends in an `else`. -/
structure Outline where
  own : List Place
  held : List Place
  arms : Nat
  closed : Bool

/-- Clauses that are further arms of an if. -/
structure Clauses (style : ChainStyle) (elifs : List Place) : Prop where
  style_eq : elifs ≠ [] → style = .clauses
  clause : ∀ q ∈ elifs, q.node.Is "elif_clause"
  held : ∀ q ∈ elifs, ∀ c ∈ q.children, c.node.continues = false

/-- An if with all its arms.  The last `else` is not followed by an if. -/
inductive Chain (lang : Language) (style : ChainStyle) : Place → Outline → Prop where
  | last {p : Place} {held elifs : List Place} (hif : p.node.Is lang.ifKind)
      (hheld : ∀ q ∈ held, q.node.continues = false) (helifs : Clauses style elifs)
      (hchildren : p.children = held ++ elifs) :
      Chain lang style p
        ⟨p :: elifs, held ++ elifs.flatMap Place.children, elifs.length + 1, false⟩
  | closed {p e : Place} {held elifs rest : List Place} (hif : p.node.Is lang.ifKind)
      (hheld : ∀ q ∈ held, q.node.continues = false) (helifs : Clauses style elifs)
      (halt : Alternative style p (held ++ elifs) e rest)
      (hrest : ∀ q ∈ rest, lang.pack.isBranch q.node.label = false) :
      Chain lang style p
        ⟨p :: (elifs ++ [e]), held ++ elifs.flatMap Place.children ++ rest, elifs.length + 1, true⟩
  | more {p e q : Place} {held : List Place} {o : Outline} (hstyle : style ≠ .clauses)
      (hif : p.node.Is lang.ifKind) (hheld : ∀ q ∈ held, q.node.continues = false)
      (halt : Alternative style p held e [q]) (hchain : Chain lang style q o) :
      Chain lang style p ⟨p :: e :: o.own, held ++ o.held, o.arms + 1, o.closed⟩

theorem Alternative.isElse {style : ChainStyle} {p e : Place} {before rest : List Place}
    (h : Alternative style p before e rest) : e.node.IsElse := by
  cases h with
  | wrapped _ _ _ _ he => exact he
  | beside _ he => exact he

theorem Chain.isIf {lang : Language} {style : ChainStyle} {p : Place} {o : Outline}
    (h : Chain lang style p o) : p.node.Is lang.ifKind := by
  cases h with
  | last hif => exact hif
  | closed hif => exact hif
  | more _ hif => exact hif

/-! ### What the tables say -/

namespace Language

/-- Where a language has conditions, an if has these flags, and no rule takes its decision away. -/
theorem if_tables (lang : Language) : lang.chainStyle?.isSome = true →
    ((Group.flagsOf lang.pack.kinds lang.ifKind).has .branch ∧
      (Group.flagsOf lang.pack.kinds lang.ifKind).has .nesting ∧
      (Group.flagsOf lang.pack.kinds lang.ifKind).has .decision ∧
      (Group.flagsOf lang.pack.kinds lang.ifKind).has .else_ = false ∧
      (Group.flagsOf lang.pack.kinds lang.ifKind).has .comment = false ∧
      (Group.flagsOf lang.pack.kinds lang.ifKind).meets .scope = false ∧
      (lang.pack.defaultLabels ++ lang.pack.wildcardArms).contains lang.ifKind = false) := by
  cases lang <;> decide +kernel

theorem else_tables (lang : Language) : lang.chainStyle?.isSome = true →
    Group.flagsOf lang.pack.tokens "else" = Pack.elseFlags := by
  cases lang <;> decide +kernel

theorem wrapper_tables (lang : Language) :
    Group.flagsOf lang.pack.kinds "else_clause" = ∅ := by
  cases lang <;> decide +kernel

theorem elif_tables (lang : Language) : lang.chainStyle? = some .clauses →
    (Group.flagsOf lang.pack.kinds "elif_clause" = {.branch, .decision, .else_} ∧
      (lang.pack.defaultLabels ++ lang.pack.wildcardArms).contains "elif_clause" = false) := by
  cases lang <;> decide +kernel

end Language

namespace Reading

variable {r : Reading} {root : Node} {p q : Place} {lang : Language} {style : ChainStyle}

theorem flags_of_isElse (hr : r.pack = lang.pack) (hstyle : lang.chainStyle? = some style)
    {n : Node} (h : n.IsElse) : r.flags n = Pack.elseFlags := by
  have hn : n.label.named = false := h.anonymous
  have hk : n.label.kind = "else" := h.kind_eq
  rw [flags, hr, Pack.flags, hn, hk]
  exact lang.else_tables (by rw [hstyle]; rfl)

theorem isBranch_of_if (hr : r.pack = lang.pack) (hstyle : lang.chainStyle? = some style) {n : Node}
    (h : n.Is lang.ifKind) : r.pack.isBranch n.label = true ∧ (r.flags n).has .comment = false := by
  have hn : n.label.named = true := h.named
  obtain ⟨hbranch, -, -, -, hcomment, -⟩ :=
    lang.if_tables (by rw [hstyle]; rfl)
  rw [← flags_of_is hr h] at hbranch hcomment
  refine ⟨?_, hcomment⟩
  rw [Pack.isBranch, hn, Bool.true_and]
  exact hbranch

/-- An if is read, nests unless it continues a chain, and scores and decides. -/
theorem if_adds (hr : r.pack = lang.pack) (hstyle : lang.chainStyle? = some style) (root : Node)
    (h : p.node.Is lang.ifKind) :
    (r.isEntered p = true ∧ r.opensScope p = false) ∧
      (r.classify p).has .nesting = !r.continuesChain p ∧
      r.partAt root (·.score) p =
        (if r.continuesChain p then 1 else 1 + (r.surroundingsAt root p).nesting) ∧
      r.partAt root (·.decisions) p = 1 := by
  have hflags := flags_of_is hr h
  obtain ⟨hbranch, hnesting, hdecision, helse, hcomment, hscope, hrules⟩ :=
    lang.if_tables (by rw [hstyle]; rfl)
  rw [← hflags] at hbranch hnesting hdecision helse hcomment hscope
  obtain ⟨hi, ho⟩ := isPlain_of_flags h.isError hcomment hscope
  have hnests : (r.classify p).has .nesting = !r.continuesChain p := by
    rw [has_nesting_classify hi, hbranch, hnesting, Bool.true_and, Bool.true_and]
  refine ⟨⟨hi, ho⟩, hnests, ?_, ?_⟩
  · have hn : p.named = true := h.named
    rw [score_at ho, hnests, has_else_classify hi, hbranch, hnesting, helse, hn]
    cases r.continuesChain p <;> rfl
  · have hkind : p.kind = lang.ifKind := h.kind_eq
    rw [decisions_of_kind ⟨hi, ho⟩ (by rw [hr, hkind]; exact hrules), hdecision]
    rfl

/-- An `else` is read and scores if it belongs to an if and no if follows. -/
theorem else_adds (hr : r.pack = lang.pack) (hstyle : lang.chainStyle? = some style) (root : Node)
    (h : p.node.IsElse) :
    r.isEntered p = true ∧
      r.partAt root (·.score) p = Tally.one (r.elseScores p) ∧
      r.partAt root (·.decisions) p = 0 := by
  have hflags := flags_of_isElse hr hstyle h
  obtain ⟨hi, ho⟩ := isPlain_of_flags h.isError (by rw [hflags]; rfl) (by rw [hflags]; rfl)
  refine ⟨hi, ?_, ?_⟩
  · have hn : p.named = false := h.anonymous
    rw [score_at ho, has_nesting_classify hi, has_else_classify hi, has_logical_classify hi, hflags,
      hn]
    cases r.elseScores p <;> rfl
  · rw [decisions_at ho, has_decision_classify hi, hflags]
    rfl

/-- What wraps an `else` is read and does not nest. -/
theorem wrapper_plain (hr : r.pack = lang.pack) (h : p.node.Is "else_clause") :
    (r.isEntered p = true ∧ r.opensScope p = false) ∧ (r.classify p).has .nesting = false := by
  have hflags : r.flags p.node = ∅ := by rw [flags_of_is hr h, lang.wrapper_tables]
  have hplain := isPlain_of_flags_eq_empty hflags h.isError
  refine ⟨hplain, ?_⟩
  rw [has_nesting_classify hplain.1, hflags]
  rfl

/-- A clause for a further arm is read, does not nest, scores one point and decides. -/
theorem elif_adds (hr : r.pack = lang.pack) (hstyle : lang.chainStyle? = some .clauses)
    (root : Node) (h : p.node.Is "elif_clause") :
    (r.isEntered p = true ∧ r.opensScope p = false) ∧ (r.classify p).has .nesting = false ∧
      r.partAt root (·.score) p = 1 ∧ r.partAt root (·.decisions) p = 1 := by
  obtain ⟨hflags, hrules⟩ := lang.elif_tables hstyle
  rw [← flags_of_is hr h] at hflags
  obtain ⟨hi, ho⟩ := isPlain_of_flags h.isError (by rw [hflags]; rfl) (by rw [hflags]; rfl)
  have hnests : (r.classify p).has .nesting = false := by
    rw [has_nesting_classify hi, hflags]
    rfl
  refine ⟨⟨hi, ho⟩, hnests, ?_, ?_⟩
  · have hn : p.named = true := h.named
    rw [score_at ho, hnests, has_else_classify hi, hflags, hn]
    rfl
  · have hkind : p.kind = "elif_clause" := h.kind_eq
    rw [decisions_of_kind ⟨hi, ho⟩ (by rw [hr, hkind]; exact hrules), hflags]
    rfl

/-! ### Where the parts of a chain stand -/

/-- A place that is visited in the frame of another, at some nesting. -/
structure VisitedAt (r : Reading) (root : Node) (p q : Place) (nesting : Int) : Prop where
  reached : r.isReached q = true
  frame : r.ownerAddress q = r.ownerAddress p
  nesting : (r.surroundingsAt root q).nesting = nesting

theorem visitedAt_self (root : Node) (hp : r.isReached p = true) :
    r.VisitedAt root p p (r.surroundingsAt root p).nesting :=
  ⟨hp, rfl, rfl⟩

theorem VisitedAt.trans {d e : Int} {c : Place} (h : r.VisitedAt root p q d)
    (hc : r.VisitedAt root q c e) : r.VisitedAt root p c e :=
  ⟨hc.reached, hc.frame.trans h.frame, hc.nesting⟩

/-- What is below a place that opens no scope is deeper if the place nests. -/
theorem VisitedAt.child {d : Int} (h : r.VisitedAt root p q d)
    (hplain : r.isEntered q = true ∧ r.opensScope q = false) {c : Place} (hc : c ∈ q.children) :
    r.VisitedAt root p c (d + Tally.one ((r.classify q).has .nesting)) where
  reached := by rw [isReached_of_mem_children hc, hplain.1, h.reached]; rfl
  frame := by rw [ownerAddress_of_plain hplain.2 hc, h.frame]
  nesting := by
    have hn : (r.categoryAt q).has .nesting = (r.classify q).has .nesting :=
      has_categoryIn (s := r.surroundingsAt root q) rfl
    rw [surroundingsAt_of_mem_children hc, surroundingsUnder_of_plain hplain.2, entered, hn,
      h.nesting, Tally.one]
    split
    · rfl
    · exact (Int.add_zero d).symm

/-! ### The `else` of an if -/

section

variable {e : Place} {before rest : List Place}

/-- An `else` belongs to its if, and what follows it are its siblings. -/
theorem governor?_of_alternative (hr : r.pack = lang.pack) (hif : p.node.Is lang.ifKind)
    (h : Alternative style p before e rest) :
    r.governor? e = some p.node.label ∧ e.following = rest.map Place.node := by
  have hcontainers : r.pack.elseContainers = ["else_clause"] := by rw [hr, lang.elseContainers_eq]
  cases h with
  | @wrapped _ _ w _ _ _ _ hchildren hw hinside _ =>
      have hinside' : w.children = [] ++ e :: rest := hinside
      have heabove := Place.above_of_children_eq hinside'
      have hwabove := Place.above_of_children_eq hchildren
      have hkind : w.node.label.kind = "else_clause" := hw.kind_eq
      refine ⟨?_, by rw [Place.following, heabove]; rfl⟩
      rw [governor?, heabove]
      simp only [hcontainers, hkind, hwabove]
      rfl
  | beside hchildren _ =>
      have heabove := Place.above_of_children_eq hchildren
      have hkind : p.node.label.kind ≠ "else_clause" := by
        have hk : p.node.label.kind = lang.ifKind := hif.kind_eq
        rw [hk]
        cases lang <;> decide
      refine ⟨?_, by rw [Place.following, heabove]; rfl⟩
      rw [governor?, heabove]
      simp [hcontainers, hkind]

/-- What follows the `else` of an if continues the chain. -/
theorem continuesChain_of_alternative (hr : r.pack = lang.pack)
    (h : Alternative style p before e (q :: rest)) : r.continuesChain q = true := by
  rw [continuesChain, Bool.or_eq_true]
  cases h with
  | @wrapped _ _ w _ _ _ _ hchildren hw hinside _ =>
      left
      have hinside' : w.children = [e] ++ q :: rest := hinside
      have hkind : w.node.label.kind = "else_clause" := hw.kind_eq
      rw [Place.parentLabel?, Place.above_of_children_eq hinside', hr, lang.elseContainers_eq]
      simp [hkind]
  | beside hchildren he =>
      right
      have hchildren' : p.children = (before ++ [e]) ++ q :: rest := by
        rw [hchildren, List.append_assoc, List.singleton_append]
      rw [Place.prev?, Place.above_of_children_eq hchildren']
      simp [he.anonymous, he.kind_eq]

/-- The `else` of an if scores unless the first node after it that is no comment is an if. -/
theorem elseScores_of_alternative (hr : r.pack = lang.pack)
    (hstyle : lang.chainStyle? = some style) (hif : p.node.Is lang.ifKind)
    (h : Alternative style p before e rest) : r.elseScores e =
      !((rest.map Place.node).find? fun n => !(r.flags n).has .comment).any
        fun n => r.pack.isBranch n.label := by
  obtain ⟨hgovernor, hfollowing⟩ := governor?_of_alternative hr hif h
  rw [elseScores, hgovernor, Option.any_some, (isBranch_of_if hr hstyle hif).1, Bool.true_and,
    nextCode?, hfollowing]

theorem elseScores_of_last (hr : r.pack = lang.pack) (hstyle : lang.chainStyle? = some style)
    (hif : p.node.Is lang.ifKind) (h : Alternative style p before e rest)
    (hrest : ∀ q ∈ rest, lang.pack.isBranch q.node.label = false) : r.elseScores e = true := by
  rw [elseScores_of_alternative hr hstyle hif h, Bool.not_eq_true', Option.any_eq_false]
  intro n hn
  obtain ⟨q, hq, rfl⟩ := List.mem_map.mp (List.mem_of_find?_eq_some hn)
  rw [hr, hrest q hq]

theorem elseScores_of_more (hr : r.pack = lang.pack) (hstyle : lang.chainStyle? = some style)
    (hif : p.node.Is lang.ifKind) (h : Alternative style p before e (q :: rest))
    (hq : q.node.Is lang.ifKind) : r.elseScores e = false := by
  obtain ⟨hbranch, hcomment⟩ := isBranch_of_if hr hstyle hq
  rw [elseScores_of_alternative hr hstyle hif h, List.map_cons,
    List.find?_cons_of_pos (by rw [hcomment]; rfl), Option.any_some, hbranch, Bool.not_true]

/-- The `else`, what comes before it and what follows it are visited where the children of the if
are. -/
theorem visitedAt_of_alternative (hr : r.pack = lang.pack) {d : Int}
    (h : Alternative style p before e rest) (hd : ∀ c ∈ p.children, r.VisitedAt root p c d) :
    (∀ q ∈ before, r.VisitedAt root p q d) ∧ r.VisitedAt root p e d ∧
      ∀ q ∈ rest, r.VisitedAt root p q d := by
  cases h with
  | @wrapped _ _ w _ _ _ _ hchildren hw hinside _ =>
      obtain ⟨hplain, hnests⟩ := wrapper_plain (r := r) hr hw
      rw [hchildren] at hd
      have hinner : ∀ c ∈ w.children, r.VisitedAt root p c d := fun c hc => by
        have := (hd w (by simp)).child hplain hc
        rwa [hnests, Tally.one, if_neg Bool.false_ne_true, Int.add_zero] at this
      rw [hinside] at hinner
      exact ⟨fun q hq => hd q (by simp [hq]), hinner e List.mem_cons_self,
        fun q hq => hinner q (List.mem_cons_of_mem e hq)⟩
  | beside hchildren _ =>
      rw [hchildren] at hd
      exact ⟨fun q hq => hd q (by simp [hq]), hd e (by simp), fun q hq => hd q (by simp [hq])⟩

/-- The `else` comes after what the nodes before it tell, and before what follows it tells. -/
theorem sublist_of_alternative (hr : r.pack = lang.pack) (hstyle : lang.chainStyle? = some style)
    (h : Alternative style p before e rest) (hp : ∀ c ∈ p.children, r.isReached c = true)
    {xs ys : List Place} (hxs : xs.Sublist (before.flatMap r.own))
    (hys : ys.Sublist (rest.flatMap r.own)) :
    (xs ++ e :: ys).Sublist (p.children.flatMap r.own) := by
  have hentered : r.isEntered e = true := (else_adds hr hstyle p.node h.isElse).1
  have htail : r.isReached e = true → (e :: ys).Sublist ((e :: rest).flatMap r.own) := fun hreach =>
    List.flatMap_cons ▸ (singleton_sublist_own hreach hentered).append hys
  cases h with
  | @wrapped _ _ w _ _ _ _ hchildren hw hinside _ =>
      obtain ⟨hplain, -⟩ := wrapper_plain (r := r) hr hw
      have hw' : r.isReached w = true := hp w (by rw [hchildren]; simp)
      have hreach : r.isReached e = true := by
        rw [isReached_of_mem_children (p := w) (by rw [hinside]; simp), hplain.1, hw']
        rfl
      rw [hchildren, List.flatMap_append, List.flatMap_singleton, own_plain hw' hplain.1 hplain.2,
        hinside]
      exact hxs.append ((htail hreach).cons w)
  | beside hchildren _ =>
      have hreach : r.isReached e = true := hp e (by rw [hchildren]; simp)
      rw [hchildren, List.flatMap_append]
      exact hxs.append (htail hreach)

end

/-! ### The share of a chain -/

/-- What a chain adds from its first arm on, where that arm may itself continue a chain. -/
structure Shares (r : Reading) (root : Node) (p : Place) (o : Outline) : Prop where
  score : sumOf (r.partAt root (·.score)) o.own =
    (if r.continuesChain p then 1 else 1 + (r.surroundingsAt root p).nesting) + (o.arms - 1) +
      Tally.one o.closed
  decisions : sumOf (r.partAt root (·.decisions)) o.own = o.arms
  held : ∀ q ∈ o.held, r.VisitedAt root p q
    ((r.surroundingsAt root p).nesting + Tally.one (!r.continuesChain p))
  own : o.own.Sublist (r.own p)

/-- The clauses of an if are visited with its children and add one point and one decision each. -/
theorem share_of_clauses (hr : r.pack = lang.pack) (hstyle : lang.chainStyle? = some style)
    {elifs : List Place} (h : Clauses style elifs) {d : Int}
    (hd : ∀ q ∈ elifs, r.VisitedAt root p q d) :
    sumOf (r.partAt root (·.score)) elifs = elifs.length ∧
      sumOf (r.partAt root (·.decisions)) elifs = elifs.length ∧
      (∀ c ∈ elifs.flatMap Place.children, r.VisitedAt root p c d) ∧
      elifs.Sublist (elifs.flatMap r.own) := by
  have hadds : ∀ q ∈ elifs, _ := fun q hq => elif_adds hr
    (h.style_eq (List.ne_nil_of_mem hq) ▸ hstyle) root (h.clause q hq)
  refine ⟨?_, ?_, fun c hc => ?_, ?_⟩
  · rw [← sumOf_one]
    exact sumOf_congr fun q hq => (hadds q hq).2.2.1
  · rw [← sumOf_one]
    exact sumOf_congr fun q hq => (hadds q hq).2.2.2
  · obtain ⟨q, hq, hc⟩ := List.mem_flatMap.mp hc
    obtain ⟨hplain, hnests, -⟩ := hadds q hq
    have := (hd q hq).child hplain hc
    rwa [hnests, Tally.one, if_neg Bool.false_ne_true, Int.add_zero] at this
  · exact sublist_flatMap_own fun q hq => ⟨(hd q hq).reached, (hadds q hq).1.1⟩

/-- What an if holds is one level deeper, unless the if continues a chain. -/
theorem visitedAt_of_if (hr : r.pack = lang.pack) (hstyle : lang.chainStyle? = some style)
    (root : Node) (hif : p.node.Is lang.ifKind) (hp : r.isReached p = true) {c : Place}
    (hc : c ∈ p.children) : r.VisitedAt root p c
      ((r.surroundingsAt root p).nesting + Tally.one (!r.continuesChain p)) := by
  obtain ⟨hplain, hnests, -⟩ := if_adds hr hstyle root hif
  have h := (visitedAt_self root hp).child hplain hc
  rwa [hnests] at h

section

variable {e : Place} {held elifs rest : List Place}

/-- An if without an `else`. -/
theorem shares_of_last (hr : r.pack = lang.pack) (hstyle : lang.chainStyle? = some style)
    (hif : p.node.Is lang.ifKind) (helifs : Clauses style elifs)
    (hchildren : p.children = held ++ elifs) (hp : r.isReached p = true) :
    r.Shares root p
      ⟨p :: elifs, held ++ elifs.flatMap Place.children, elifs.length + 1, false⟩ := by
  obtain ⟨hplain, -, hscore, hdecisions⟩ := if_adds hr hstyle root hif
  have hbelow : ∀ c ∈ held ++ elifs, r.VisitedAt root p c _ := fun c hc =>
    visitedAt_of_if hr hstyle root hif hp (hchildren ▸ hc)
  obtain ⟨hscores, hdecided, hheld, hown⟩ := share_of_clauses hr hstyle helifs
    fun q hq => hbelow q (List.mem_append_right _ hq)
  refine ⟨?_, ?_, fun q hq => ?_, ?_⟩
  · have hopen : Tally.one false = 0 := rfl
    rw [sumOf_cons, hscore, hscores, hopen]
    push_cast
    omega
  · rw [sumOf_cons, hdecisions, hdecided]
    push_cast
    omega
  · rcases List.mem_append.mp hq with hq | hq
    · exact hbelow q (List.mem_append_left _ hq)
    · exact hheld q hq
  · refine cons_sublist_own hp hplain ?_
    rw [hchildren, List.flatMap_append]
    exact hown.trans (List.sublist_append_right _ _)

/-- An if that ends in an `else` with no further if. -/
theorem shares_of_closed (hr : r.pack = lang.pack) (hstyle : lang.chainStyle? = some style)
    (hif : p.node.Is lang.ifKind) (helifs : Clauses style elifs)
    (halt : Alternative style p (held ++ elifs) e rest)
    (hrest : ∀ q ∈ rest, lang.pack.isBranch q.node.label = false) (hp : r.isReached p = true) :
    r.Shares root p
      ⟨p :: (elifs ++ [e]), held ++ elifs.flatMap Place.children ++ rest, elifs.length + 1,
        true⟩ := by
  obtain ⟨hplain, -, hscore, hdecisions⟩ := if_adds hr hstyle root hif
  have hbelow : ∀ c ∈ p.children, r.VisitedAt root p c _ := fun c hc =>
    visitedAt_of_if hr hstyle root hif hp hc
  obtain ⟨hbefore, -, hafter⟩ := visitedAt_of_alternative hr halt hbelow
  obtain ⟨hscores, hdecided, hheld, hown⟩ := share_of_clauses hr hstyle helifs
    fun q hq => hbefore q (List.mem_append_right _ hq)
  obtain ⟨-, hscore', hdecisions'⟩ := else_adds hr hstyle root halt.isElse
  have helse := elseScores_of_last hr hstyle hif halt hrest
  refine ⟨?_, ?_, fun q hq => ?_, ?_⟩
  · rw [sumOf_cons, sumOf_append, sumOf_singleton, hscore, hscores, hscore', helse]
    push_cast
    omega
  · rw [sumOf_cons, sumOf_append, sumOf_singleton, hdecisions, hdecided, hdecisions']
    push_cast
    omega
  · rcases List.mem_append.mp hq with hq | hq
    · rcases List.mem_append.mp hq with hq | hq
      · exact hbefore q (List.mem_append_left _ hq)
      · exact hheld q hq
    · exact hafter q hq
  · refine cons_sublist_own hp hplain (sublist_of_alternative hr hstyle halt
      (fun c hc => (hbelow c hc).reached) ?_ (List.nil_sublist _))
    rw [List.flatMap_append]
    exact hown.trans (List.sublist_append_right _ _)

/-- An if with a chain after its `else`: the `else` is silent, and the next if scores flat and holds
what the first would hold. -/
theorem shares_of_more (hr : r.pack = lang.pack) (hstyle : lang.chainStyle? = some style)
    {o : Outline} (hif : p.node.Is lang.ifKind) (halt : Alternative style p held e [q])
    (hchain : Chain lang style q o) (ih : r.isReached q = true → r.Shares root q o)
    (hp : r.isReached p = true) :
    r.Shares root p ⟨p :: e :: o.own, held ++ o.held, o.arms + 1, o.closed⟩ := by
  obtain ⟨hplain, -, hscore, hdecisions⟩ := if_adds hr hstyle root hif
  have hbelow : ∀ c ∈ p.children, r.VisitedAt root p c _ := fun c hc =>
    visitedAt_of_if hr hstyle root hif hp hc
  obtain ⟨hbefore, -, hafter⟩ := visitedAt_of_alternative hr halt hbelow
  have hq := hafter q List.mem_cons_self
  have hcontinues := continuesChain_of_alternative hr halt
  obtain ⟨hscores, hdecided, hheld, hown⟩ := ih hq.reached
  rw [hcontinues] at hscores hheld
  rw [if_pos rfl] at hscores
  obtain ⟨-, hscore', hdecisions'⟩ := else_adds hr hstyle root halt.isElse
  have helse := elseScores_of_more hr hstyle hif halt hchain.isIf
  refine ⟨?_, ?_, fun c hc => ?_, ?_⟩
  · have hsilent : Tally.one false = 0 := rfl
    rw [sumOf_cons, sumOf_cons, hscore, hscores, hscore', helse, hsilent]
    push_cast
    omega
  · rw [sumOf_cons, sumOf_cons, hdecisions, hdecided, hdecisions']
    push_cast
    omega
  · rcases List.mem_append.mp hc with hc | hc
    · exact hbefore c hc
    · have h := hq.trans (hheld c hc)
      rwa [Tally.one, Bool.not_true, if_neg Bool.false_ne_true, Int.add_zero, hq.nesting] at h
  · have hinner : o.own.Sublist ([q].flatMap r.own) := by
      rw [List.flatMap_singleton]
      exact hown
    exact cons_sublist_own hp hplain (sublist_of_alternative hr hstyle halt
      (fun c hc => (hbelow c hc).reached) (List.nil_sublist _) hinner)

end

theorem shares_of_chain (hr : r.pack = lang.pack) (hstyle : lang.chainStyle? = some style)
    {o : Outline} (h : Chain lang style p o) : r.isReached p = true → r.Shares root p o := by
  induction h with
  | last hif _ helifs hchildren => exact shares_of_last hr hstyle hif helifs hchildren
  | closed hif _ helifs halt hrest => exact shares_of_closed hr hstyle hif helifs halt hrest
  | more _ hif _ halt hchain ih => exact shares_of_more hr hstyle hif halt hchain ih

/-- **A chain scores the same however it is written.**  In every language that has conditions, let
an if with all its arms be reached in a tree, and not itself follow an `else`.  If it is visited at
nesting `d`, its own nodes add `1 + d` points for the first arm and one for each further arm and for
a last `else`, and one decision for each arm; and all that its arms and its last `else` hold, their
conditions and bodies, is visited at nesting `d + 1`. -/
theorem chain_scores_flat (lang : Language) (style : ChainStyle) (source : Source)
    (macros : SortedSet String) (name : Option String) (root : Node) (p : Place) (o : Outline) :
    let r : Reading := { pack := lang.pack, source, macros }
    let d := (r.surroundingsAt root p).nesting
    lang.chainStyle? = some style → Chain lang style p o →
    p ∈ root.places → r.isReached p = true → r.continuesChain p = false →
      r.Adds name root (·.score) p o.own ((1 + d) + (o.arms - 1) + if o.closed then 1 else 0) ∧
      r.Adds name root (·.decisions) p o.own o.arms ∧
      ∀ q ∈ o.held, r.VisitedAt root p q (d + 1) := by
  intro r d hstyle hchain hp hreached hfirst
  obtain ⟨hscore, hdecisions, hheld, hown⟩ := shares_of_chain (r := r) rfl hstyle hchain hreached
  rw [hfirst] at hscore hheld
  exact ⟨adds_of_sublist rfl name Tally.additive_score hp hreached hown hscore,
    adds_of_sublist rfl name Tally.additive_decisions hp hreached hown hdecisions, hheld⟩

/-- In a loop, `if (a) {} else if (b) {} else {}`: two for the first arm, one for the second and
one for the `else`. -/
theorem chain_scores_flat_in_loop :
    let token (kind : String) (start stop : Nat) : Node :=
      .mk ⟨kind, false, false, start, stop, none⟩ []
    let node (kind : String) (start stop : Nat) (cs : List Node) : Node :=
      .mk ⟨kind, true, false, start, stop, none⟩ cs
    let second := node "if_statement" 27 45
      [token "if" 27 29, node "parenthesized_expression" 30 33 [node "identifier" 31 32 []],
        node "block" 34 36 [], token "else" 37 41, node "block" 42 44 []]
    let first := node "if_statement" 12 45
      [token "if" 12 14, node "parenthesized_expression" 15 18 [node "identifier" 16 17 []],
        node "block" 19 21 [], token "else" 22 26, second]
    let loop := node "while_statement" 0 45
      [token "while" 0 5, node "parenthesized_expression" 6 9 [node "identifier" 7 8 []], first]
    let root := node "program" 0 46 [loop]
    let r : Reading :=
      { pack := Language.java.pack
        source := .ofText "while (x)   if (a) {} else if (b) {} else {};\n" }
    let p : Place := ⟨first, [⟨loop.label, loop.children.reverse.tail, []⟩, ⟨root.label, [], []⟩]⟩
    let q : Place := p.children.getD 4 p
    let o : Outline :=
      ⟨[p, p.children.getD 3 p, q, q.children.getD 3 q],
        p.children.take 3 ++ (q.children.take 3 ++ q.children.drop 4), 2, true⟩
    Chain .java .beside p o ∧ p ∈ root.places ∧ r.isReached p = true ∧
      r.continuesChain p = false ∧ (r.surroundingsAt root p).nesting = 1 ∧
      r.Adds none root (·.score) p o.own 4 ∧ r.Adds none root (·.decisions) p o.own 2 ∧
      ∀ c ∈ o.held, r.VisitedAt root p c 2 := by
  intro token node second first loop root r p q o
  have hheld : ∀ c ∈ p.children.take 3, c.node.continues = false := by decide +kernel
  have hheld' : ∀ c ∈ q.children.take 3, c.node.continues = false := by decide +kernel
  have hrest : ∀ c ∈ q.children.drop 4, Language.java.pack.isBranch c.node.label = false := by
    decide +kernel
  have hnone : Clauses .beside [] := ⟨nofun, nofun, nofun⟩
  have hclosed : Chain .java .beside q
      ⟨[q, q.children.getD 3 q], q.children.take 3 ++ q.children.drop 4, 1, true⟩ :=
    .closed ⟨rfl, rfl, rfl⟩ hheld' hnone (.beside rfl ⟨rfl, rfl, rfl, rfl⟩) hrest
  have hchain : Chain .java .beside p o :=
    .more (by decide) ⟨rfl, rfl, rfl⟩ hheld (.beside rfl ⟨rfl, rfl, rfl, rfl⟩) hclosed
  have hp : p ∈ root.places :=
    .tail _ (.tail _ (.tail _ (.tail _ (.tail _ (.head _)))))
  have hreached : r.isReached p = true := by decide +kernel
  have hfirst : r.continuesChain p = false := by decide +kernel
  have hnesting : (r.surroundingsAt root p).nesting = 1 := by decide +kernel
  have h := chain_scores_flat .java .beside r.source ∅ none root p o rfl hchain hp hreached hfirst
  rw [hnesting] at h
  exact ⟨hchain, hp, hreached, hfirst, hnesting, h⟩

end Reading

end ScopeMetrics
