import Mathlib.Data.List.SplitBy
import ScopeMetrics.Proofs.Ledger

/-!
# Sequences of logical operators

Logical operators of one kind of operation that are nested to the left, `((a && b) && c) || d`,
form sequences: a maximal run of equal operators is one.  Whether an operator opens a sequence is
asked of it alone, by a look at the operator of its left operand.

* `LeftNested`: an expression that is nested to the left, and its operators in source order.
* `startsSequence_iff`: an operator opens a sequence unless the one before it is equal.
* **`one_point_per_run`**: as many operators open a sequence as there are runs, so the expression
  scores one point for each run, and one decision for each operator.
-/

namespace ScopeMetrics

/-! ### Runs -/

/-- The number of maximal runs of equal members of a list. -/
def runs (xs : List String) : Nat := (xs.splitBy (· == ·)).length

theorem length_splitBy_loop_concat (o : String) :
    ∀ (xs : List String) (x : String) (run : List String) (done : List (List String)),
      (List.splitBy.loop (· == ·) (xs ++ [o]) x run done).length =
        (List.splitBy.loop (· == ·) xs x run done).length +
          if (x :: xs).getLast? = some o then 0 else 1
  | [], x, run, done => by
      by_cases h : x = o
      · simp [List.splitBy.loop, h]
      · simp [List.splitBy.loop, h, beq_eq_false_iff_ne.mpr h]
  | y :: xs, x, run, done => by
      rw [List.getLast?_cons_cons, List.cons_append, List.splitBy.loop, List.splitBy.loop]
      split <;> exact length_splitBy_loop_concat o xs y _ _

/-- One more member opens a run unless it is equal to the last. -/
theorem runs_concat (xs : List String) (o : String) :
    runs (xs ++ [o]) = runs xs + if xs.getLast? = some o then 0 else 1 := by
  cases xs with
  | nil => rfl
  | cons x xs => exact length_splitBy_loop_concat o xs x [] []

/-! ### Expressions -/

/-- A leaf of another kind than the operations, of which the tables say nothing. -/
structure IsOperand (pack : Pack) (kind : String) (n : Node) : Prop where
  leaf : n.isLeaf = true
  named : n.named = true
  kind_ne : n.kind ≠ kind
  flags : pack.flags n.label = ∅

/-- A token that is a logical operator. -/
structure IsLogicalToken (pack : Pack) (n : Node) : Prop where
  leaf : n.isLeaf = true
  anonymous : n.named = false
  isError : n.isError = false
  logical : (pack.flags n.label).has .logical = true

/-- A node that is an operation of some kind, of which the tables say nothing. -/
structure IsOperation (pack : Pack) (kind : String) (l : Label) : Prop where
  named : l.named = true
  kind_eq : l.kind = kind
  isError : l.isError = false
  flags : pack.flags l = ∅

/-- Whether a node holds its left operand under the field for it or as its first named child. -/
def HoldsLeft (n left : Node) : Prop :=
  n.field? "left" = some left ∨
    n.field? "left" = none ∧ n.namedChildren.head? = some left

/-- Operations of one kind nested to the left, with their operators in source order. -/
inductive LeftNested (pack : Pack) (kind : String) : Node → List String → Prop where
  | operand {n : Node} (h : IsOperand pack kind n) : LeftNested pack kind n []
  | operation {l : Label} {left token right : Node} {ops : List String}
      (hleft : LeftNested pack kind left ops) (hl : IsOperation pack kind l)
      (htoken : IsLogicalToken pack token) (hright : IsOperand pack kind right)
      (hholds : HoldsLeft (.mk l [left, token, right]) left) :
      LeftNested pack kind (.mk l [left, token, right]) (ops ++ [token.kind])

namespace Language

variable {lang : Language} {l : Label}

/-- The tokens of logical operators are listed in groups with the flags of these, in no other
group, and among no kinds that a rule looks for. -/
theorem logical_groups (lang : Language) :
    (lang.pack.tokens.all fun g => !g.flags.has .logical ||
      (g.flags = Pack.logicalFlags && lang.pack.tokens.all fun h =>
        h.flags = g.flags || !h.kinds.any g.kinds.contains) &&
      !(lang.pack.defaultLabels ++ lang.pack.wildcardArms).any g.kinds.contains) = true := by
  cases lang <;> decide +kernel

/-- A logical operator has the flags of one, and no rule takes its decision away. -/
theorem flags_of_logical (hn : l.named = false) (h : (lang.pack.flags l).has .logical = true) :
    lang.pack.flags l = Pack.logicalFlags ∧
      (lang.pack.defaultLabels ++ lang.pack.wildcardArms).contains l.kind = false := by
  obtain ⟨g, hg, hk, hf⟩ := Pack.exists_group h
  rw [if_neg (by rw [hn]; exact Bool.false_ne_true)] at hg
  have hgroup := List.all_eq_true.mp lang.logical_groups g hg
  rw [hf, Bool.not_true, Bool.false_or, Bool.and_eq_true, Bool.and_eq_true, Bool.not_eq_true',
    List.any_eq_false] at hgroup
  obtain ⟨⟨hflags, halone⟩, hrules⟩ := hgroup
  refine ⟨?_, ?_⟩
  · rw [Pack.flags, if_neg (by rw [hn]; exact Bool.false_ne_true),
      Group.flagsOf_eq_of_alone hg hk halone, of_decide_eq_true hflags]
  · rw [Bool.eq_false_iff]
    intro hc
    exact hrules _ (List.contains_iff_mem.mp hc) (List.contains_iff_mem.mpr hk)

end Language

theorem LeftNested.named {pack : Pack} {kind : String} {n : Node} {ops : List String}
    (h : LeftNested pack kind n ops) : n.named = true := by
  cases h with
  | operand h => exact h.named
  | operation _ hl _ _ _ => exact hl.named

namespace Reading

variable {r : Reading} {root : Node} {p : Place} {lang : Language}

/-! ### Opening a sequence -/

/-- The left operand is where the expression says. -/
theorem leftOperand?_of_holdsLeft {n left : Node} (h : HoldsLeft n left) :
    leftOperand? n = some left := by
  rw [leftOperand?]
  rcases h with h | ⟨hnone, hhead⟩
  · rw [h, Option.orElse_some]
  · rw [hnone, Option.orElse_none, hhead]

/-- An operator opens a sequence unless the operator before it is equal. -/
theorem startsSequence_iff {pack : Pack} {kind : String} {l : Label} {left : Node}
    {ops : List String} (hleft : LeftNested pack kind left ops) (hl : IsOperation pack kind l)
    (token : Node) {right : Node} (hholds : HoldsLeft (.mk l [left, token, right]) left)
    (above : List Crumb) :
    startsSequence ⟨token, ⟨l, [left], [right]⟩ :: above⟩ = true ↔
      ops.getLast? ≠ some token.kind := by
  have hstarts : startsSequence ⟨token, ⟨l, [left], [right]⟩ :: above⟩ =
      (left.kind != l.kind || !left.children.any fun c => !c.named && c.kind == token.kind) := by
    have hparent : Place.parent? ⟨token, ⟨l, [left], [right]⟩ :: above⟩ =
        some ⟨.mk l [left, token, right], above⟩ := rfl
    rw [startsSequence, hparent]
    dsimp only
    rw [leftOperand?_of_holdsLeft hholds]
    rfl
  rw [hstarts, hl.kind_eq]
  cases hleft with
  | operand h => simp [h.kind_ne]
  | @operation l' left' token' right' ops' hleft' hl' htoken' hright' hholds' =>
      have hkind : (Node.mk l' [left', token', right']).kind = kind := hl'.kind_eq
      simp [hkind, Node.children, hleft'.named, htoken'.anonymous, hright'.named]

/-- The logical operators of a tree in preorder. -/
def logicalTokens (r : Reading) (p : Place) : List Place :=
  p.subtree.filter fun q => !q.named && (r.flags q.node).has .logical

theorem logicalTokens_operand {kind : String} (h : IsOperand r.pack kind p.node) :
    r.logicalTokens p = [] := by
  obtain ⟨⟨l, cs⟩, above⟩ := p
  obtain rfl : cs = [] := List.isEmpty_iff.mp h.leaf
  have hn : Place.named ⟨.mk l [], above⟩ = true := h.named
  simp [logicalTokens, Place.subtree_eq, Place.descendants, Place.children, Place.childrenFrom,
    Node.children, hn]

/-- The operators of an operation are those of its left operand and its own. -/
theorem logicalTokens_operation {kind : String} {l : Label} {left token right : Node}
    {above : List Crumb} (hl : IsOperation r.pack kind l) (htoken : IsLogicalToken r.pack token)
    (hright : IsOperand r.pack kind right) :
    r.logicalTokens ⟨.mk l [left, token, right], above⟩ =
      r.logicalTokens ⟨left, ⟨l, [], [token, right]⟩ :: above⟩ ++
        [⟨token, ⟨l, [left], [right]⟩ :: above⟩] := by
  have hself : Place.named ⟨.mk l [left, token, right], above⟩ = true := hl.named
  have hrest : r.logicalTokens ⟨right, ⟨l, [token, left], []⟩ :: above⟩ = [] :=
    logicalTokens_operand hright
  have htok : r.logicalTokens ⟨token, ⟨l, [left], [right]⟩ :: above⟩ =
      [⟨token, ⟨l, [left], [right]⟩ :: above⟩] := by
    obtain ⟨t, cs⟩ := token
    obtain rfl : cs = [] := List.isEmpty_iff.mp htoken.leaf
    have hn : Place.named ⟨.mk t [], ⟨l, [left], [right]⟩ :: above⟩ = false := htoken.anonymous
    have hf : (r.flags (.mk t [])).has .logical = true := htoken.logical
    simp [logicalTokens, Place.subtree_eq, Place.descendants, Place.children, Place.childrenFrom,
      Node.children, hn, hf]
  have hchildren : Place.children ⟨.mk l [left, token, right], above⟩ =
      [⟨left, ⟨l, [], [token, right]⟩ :: above⟩, ⟨token, ⟨l, [left], [right]⟩ :: above⟩,
        ⟨right, ⟨l, [token, left], []⟩ :: above⟩] := rfl
  rw [logicalTokens] at htok hrest ⊢
  rw [Place.subtree_eq, List.filter_cons_of_neg (by simp [hself]), Place.descendants, hchildren,
    List.flatMap_cons, List.flatMap_cons, List.flatMap_cons, List.flatMap_nil, List.filter_append,
    List.filter_append, List.filter_append, htok, hrest]
  rfl

/-- The operators are those of the expression, and as many open a sequence as there are runs. -/
theorem logicalTokens_of_leftNested {kind : String} {n : Node} {ops : List String}
    (h : LeftNested r.pack kind n ops) : ∀ above : List Crumb,
    (r.logicalTokens ⟨n, above⟩).map Place.kind = ops ∧
      ((r.logicalTokens ⟨n, above⟩).filter startsSequence).length = runs ops := by
  induction h with
  | operand h =>
      intro above
      rw [logicalTokens_operand h]
      exact ⟨rfl, rfl⟩
  | @operation l left token right ops hleft hl htoken hright hholds ih =>
      intro above
      obtain ⟨hmap, hlength⟩ := ih (⟨l, [], [token, right]⟩ :: above)
      rw [logicalTokens_operation hl htoken hright, List.map_append, hmap, List.filter_append,
        List.length_append, hlength, runs_concat]
      refine ⟨rfl, congrArg _ ?_⟩
      have hiff := startsSequence_iff hleft hl token hholds above
      by_cases hlast : ops.getLast? = some token.kind
      · rw [if_pos hlast, List.filter_cons_of_neg fun hs => hiff.mp hs hlast]
        rfl
      · rw [if_neg hlast, List.filter_cons_of_pos (hiff.mpr hlast)]
        rfl

/-! ### What the expression adds -/

/-- A leaf that adds nothing adds nothing, whether it is read or not. -/
theorem sumOf_own_leaf {part : Tally → Int} (hleaf : p.node.isLeaf = true)
    (hzero : r.partAt root part p = 0) : sumOf (r.partAt root part) (r.own p) = 0 := by
  obtain ⟨⟨l, cs⟩, above⟩ := p
  obtain rfl : cs = [] := List.isEmpty_iff.mp hleaf
  refine sumOf_zero fun q hq => ?_
  obtain ⟨hq, -⟩ := List.mem_filter.mp hq
  rw [List.mem_singleton.mp hq]
  exact hzero

theorem own_of_leaf (hp : r.isReached p = true) (hi : r.isEntered p = true)
    (ho : r.opensScope p = false) (hleaf : p.node.isLeaf = true) : r.own p = [p] := by
  obtain ⟨⟨l, cs⟩, above⟩ := p
  obtain rfl : cs = [] := List.isEmpty_iff.mp hleaf
  exact own_plain hp hi ho

/-- A logical operator is read, and adds a decision, and a point if it opens a sequence. -/
theorem logicalToken_adds (hr : r.pack = lang.pack) (root : Node)
    (h : IsLogicalToken r.pack p.node) :
    r.isEntered p = true ∧ r.opensScope p = false ∧
      r.partAt root (·.score) p = Tally.one (startsSequence p) ∧
      r.partAt root (·.decisions) p = 1 := by
  have hlogical := h.logical
  rw [hr] at hlogical
  obtain ⟨hflags, hkind⟩ := Language.flags_of_logical h.anonymous hlogical
  have hflags' : r.flags p.node = Pack.logicalFlags := by rw [flags, hr, hflags]
  obtain ⟨hi, ho⟩ := isPlain_of_flags h.isError (by rw [hflags']; rfl) (by rw [hflags']; rfl)
  refine ⟨hi, ho, ?_, ?_⟩
  · rw [score_at ho, has_nesting_classify hi, has_else_classify hi, has_logical_classify hi,
      hflags']
    simp [Pack.logicalFlags]
  · rw [decisions_of_kind ⟨hi, ho⟩ (by rw [hr]; exact hkind), hflags']
    rfl

/-- An expression adds a point for each run and a decision for each operator. -/
theorem sumOf_own_of_leftNested (hr : r.pack = lang.pack) (root : Node) {kind : String} {n : Node}
    {ops : List String} (h : LeftNested r.pack kind n ops) : ∀ above : List Crumb,
    r.isReached ⟨n, above⟩ = true →
      sumOf (r.partAt root (·.score)) (r.own ⟨n, above⟩) = runs ops ∧
        sumOf (r.partAt root (·.decisions)) (r.own ⟨n, above⟩) = ops.length := by
  induction h with
  | @operand n h =>
      intro above _
      have hflags : r.flags (Place.mk n above).node = ∅ := h.flags
      exact ⟨sumOf_own_leaf h.leaf (partAt_of_flags_eq_empty hflags).1,
        sumOf_own_leaf h.leaf (partAt_of_flags_eq_empty hflags).2⟩
  | @operation l left token right ops hleft hl htoken hright hholds ih =>
      intro above hp
      have hflags : r.flags (Place.mk (.mk l [left, token, right]) above).node = ∅ := hl.flags
      obtain ⟨hi, ho⟩ := isPlain_of_flags_eq_empty hflags hl.isError
      have hreach : ∀ q ∈ Place.children ⟨.mk l [left, token, right], above⟩,
          r.isReached q = true := fun q hq => by
        rw [isReached_of_mem_children hq, hi, hp]
        rfl
      have hchildren : Place.children ⟨.mk l [left, token, right], above⟩ =
          [⟨left, ⟨l, [], [token, right]⟩ :: above⟩, ⟨token, ⟨l, [left], [right]⟩ :: above⟩,
            ⟨right, ⟨l, [token, left], []⟩ :: above⟩] := rfl
      rw [hchildren] at hreach
      obtain ⟨hit, hot, hscore, hdecisions⟩ := logicalToken_adds
        (p := ⟨token, ⟨l, [left], [right]⟩ :: above⟩) hr root htoken
      have hown := own_of_leaf (hreach _ (by simp)) hit hot htoken.leaf
      obtain ⟨hscores, hdecided⟩ := ih _ (hreach _ List.mem_cons_self)
      have hright' : r.flags (Place.mk right (⟨l, [token, left], []⟩ :: above)).node = ∅ :=
        hright.flags
      have hiff := startsSequence_iff hleft hl token hholds above
      have hsum : ∀ part, sumOf (r.partAt root part) (r.own ⟨.mk l [left, token, right], above⟩) =
          r.partAt root part ⟨.mk l [left, token, right], above⟩ +
            (sumOf (r.partAt root part) (r.own ⟨left, ⟨l, [], [token, right]⟩ :: above⟩) +
            (r.partAt root part ⟨token, ⟨l, [left], [right]⟩ :: above⟩ +
            sumOf (r.partAt root part) (r.own ⟨right, ⟨l, [token, left], []⟩ :: above⟩))) := by
        intro part
        rw [own_plain hp hi ho, hchildren, sumOf_cons, sumOf_flatMap, sumOf_cons, sumOf_cons,
          sumOf_singleton, hown, sumOf_singleton]
      rw [hsum, hsum, hscores, hdecided, hscore, hdecisions, (partAt_of_flags_eq_empty hflags).1,
        (partAt_of_flags_eq_empty hflags).2,
        sumOf_own_leaf hright.leaf (partAt_of_flags_eq_empty hright').1,
        sumOf_own_leaf hright.leaf (partAt_of_flags_eq_empty hright').2, runs_concat,
        List.length_append, List.length_singleton, Tally.one]
      by_cases hlast : ops.getLast? = some token.kind
      · rw [if_pos hlast, if_neg fun hs => hiff.mp hs hlast]
        omega
      · rw [if_neg hlast, if_pos (hiff.mpr hlast)]
        omega

/-- **One point for each run of equal logical operators.**  In every language, let operations of a
kind without flags be nested to the left, with leaves without flags for operands, at a place of a
tree that is reached.  Then its operators are the expression's, as many of them open a sequence as
there are maximal runs of equal ones, and the expression adds as many points to the score of its
frame, whatever its nesting, and one decision for each operator. -/
theorem one_point_per_run (lang : Language) (source : Source) (macros : SortedSet String)
    (name : Option String) (root : Node) (p : Place) (kind : String) (ops : List String) :
    let r : Reading := { pack := lang.pack, source, macros }
    p ∈ root.places → r.isReached p = true → LeftNested lang.pack kind p.node ops →
      (r.logicalTokens p).map Place.kind = ops ∧
      ((r.logicalTokens p).filter startsSequence).length = runs ops ∧
      r.Adds name root (·.score) p (r.own p) (runs ops) ∧
      r.Adds name root (·.decisions) p (r.own p) ops.length := by
  intro r hp hreached h
  obtain ⟨hops, hruns⟩ := logicalTokens_of_leftNested (r := r) h p.above
  obtain ⟨hscore, hdecisions⟩ := sumOf_own_of_leftNested (r := r) rfl root h p.above hreached
  exact ⟨hops, hruns,
    adds_of_sublist rfl name Tally.additive_score hp hreached (.refl _) hscore,
    adds_of_sublist rfl name Tally.additive_decisions hp hreached (.refl _) hdecisions⟩

/-- Inside a loop, `a and b and c or d` has two runs. -/
theorem one_point_per_run_mixed :
    let leaf (kind : String) (named : Bool) (start stop : Nat) (field : String) : Node :=
      .mk ⟨kind, named, false, start, stop, some field⟩ []
    let operation (stop : Nat) (field : String) (left token right : Node) : Node :=
      .mk ⟨"boolean_operator", true, false, 6, stop, some field⟩ [left, token, right]
    let both := operation 13 "left" (leaf "identifier" true 6 7 "left")
      (leaf "and" false 8 11 "operator") (leaf "identifier" true 12 13 "right")
    let all := operation 19 "left" both (leaf "and" false 14 17 "operator")
      (leaf "identifier" true 18 19 "right")
    let either := operation 24 "condition" all (leaf "or" false 20 22 "operator")
      (leaf "identifier" true 23 24 "right")
    let keyword : Node := .mk ⟨"while", false, false, 0, 5, none⟩ []
    let loop : Node := .mk ⟨"while_statement", true, false, 0, 31, none⟩ [keyword, either]
    let root : Node := .mk ⟨"module", true, false, 0, 31, none⟩ [loop]
    let r : Reading :=
      { pack := Language.python.pack, source := .ofText "while a and b and c or d: pass\n" }
    let p : Place := ⟨either, [⟨loop.label, [keyword], []⟩, ⟨root.label, [], []⟩]⟩
    p ∈ root.places ∧ r.isReached p = true ∧ (r.surroundingsAt root p).nesting = 1 ∧
      LeftNested r.pack "boolean_operator" either ["and", "and", "or"] ∧
      runs ["and", "and", "or"] = 2 ∧
      r.Adds none root (·.score) p (r.own p) 2 ∧ r.Adds none root (·.decisions) p (r.own p) 3 := by
  intro leaf operation both all either keyword loop root r p
  have hp : p ∈ root.places := .tail _ (.tail _ (.tail _ (.head _)))
  have hreached : r.isReached p = true := by decide +kernel
  have hname : Group.flagsOf r.pack.kinds "identifier" = ∅ := by decide +kernel
  have hkind : Group.flagsOf r.pack.kinds "boolean_operator" = ∅ := by decide +kernel
  have hand : (Group.flagsOf r.pack.tokens "and").has .logical = true := by decide +kernel
  have hor : (Group.flagsOf r.pack.tokens "or").has .logical = true := by decide +kernel
  have hne : "identifier" ≠ "boolean_operator" := by decide
  have hboth : LeftNested r.pack "boolean_operator" both ([] ++ ["and"]) :=
    .operation (.operand ⟨rfl, rfl, hne, hname⟩) ⟨rfl, rfl, rfl, hkind⟩ ⟨rfl, rfl, rfl, hand⟩
      ⟨rfl, rfl, hne, hname⟩ (.inl rfl)
  have hall : LeftNested r.pack "boolean_operator" all (["and"] ++ ["and"]) :=
    .operation hboth ⟨rfl, rfl, rfl, hkind⟩ ⟨rfl, rfl, rfl, hand⟩ ⟨rfl, rfl, hne, hname⟩ (.inl rfl)
  have hnested : LeftNested r.pack "boolean_operator" either (["and", "and"] ++ ["or"]) :=
    .operation hall ⟨rfl, rfl, rfl, hkind⟩ ⟨rfl, rfl, rfl, hor⟩ ⟨rfl, rfl, hne, hname⟩ (.inl rfl)
  obtain ⟨-, -, hscore, hdecisions⟩ := one_point_per_run .python r.source ∅ none root p
    "boolean_operator" ["and", "and", "or"] hp hreached hnested
  exact ⟨hp, hreached, by decide +kernel, hnested, by decide, hscore, hdecisions⟩

end Reading

end ScopeMetrics
