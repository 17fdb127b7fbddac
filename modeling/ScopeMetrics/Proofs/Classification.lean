import Mathlib.Tactic.SplitIfs
import ScopeMetrics.Frame.Build

/-!
# What classification keeps

The rules that turn base flags into the category of a node take flags away; the only flags they
bring in are those of counted tokens and of an `else`.

* `has_classify`: any other flag of a category was in the base flags of the node.
* `has_classify_of_code`: the rules after the one for tokens leave alone what puts code on a line.
* `has_classify_of_scope`: a flag of a scope is one of the tables, unless a body is missing.
* `classify_eq_comment`: a node with the flag of a comment has no other flag.
* `has_categoryIn`: inside an operand a node loses the flags of tokens and no other.
* `not_meets_scope_of_isComposite`: in every language, what counts as one operand opens no scope.
-/

namespace ScopeMetrics

/-- Taking flags away under a condition brings none in. -/
theorem Category.has_of_ite_diff {b : Prop} [Decidable b] {c d : Category} {f : Flag}
    (h : (if b then c \ d else c).has f = true) : c.has f = true := by
  split at h
  · rw [has_diff, Bool.and_eq_true] at h
    exact h.1
  · exact h

/-- Putting a flag in brings no other in. -/
theorem Category.has_union_singleton {c : Category} {f g : Flag}
    (h : (c ∪ {g}).has f = true) : f = g ∨ c.has f = true := by
  rw [has_union, Bool.or_eq_true, has_singleton, decide_eq_true_eq] at h
  exact h.symm.imp_left Eq.symm

/-- A flag outside `d` is not taken away with `d`. -/
theorem Category.has_diff_of_not {c d : Category} {f : Flag} (h : d.has f = false) :
    (c \ d).has f = c.has f := by
  rw [has_diff, h, Bool.not_false, Bool.and_true]

/-- Taking other flags away under a condition leaves a flag as it is. -/
theorem Category.has_ite_diff_of_not {b : Prop} [Decidable b] {c d : Category} {f : Flag}
    (h : d.has f = false) : (if b then c \ d else c).has f = c.has f := by
  split
  · exact has_diff_of_not h
  · rfl

/-- Whether a category meets another depends on the flags of the second alone. -/
theorem Category.meets_congr {a b d : Category} (h : ∀ f, d.has f = true → a.has f = b.has f) :
    a.meets d = b.meets d := by
  rw [Bool.eq_iff_iff, meets_iff, meets_iff]
  constructor
  · rintro ⟨f, ha, hd⟩
    exact ⟨f, h f hd ▸ ha, hd⟩
  · rintro ⟨f, hb, hd⟩
    exact ⟨f, (h f hd).symm ▸ hb, hd⟩

@[simp] theorem Category.meets_singleton (c : Category) (f : Flag) : c.meets {f} = c.has f := by
  rw [Bool.eq_iff_iff, meets_iff]
  constructor
  · rintro ⟨g, hg, hf⟩
    rw [has_singleton, decide_eq_true_iff] at hf
    exact hf ▸ hg
  · exact fun h => ⟨f, h, by rw [has_singleton, decide_eq_true_iff]⟩

@[simp] theorem Category.meets_insert (c d : Category) (f : Flag) :
    c.meets (insert f d) = (c.has f || c.meets d) := by
  rw [Bool.eq_iff_iff, Bool.or_eq_true, meets_iff, meets_iff]
  constructor
  · rintro ⟨g, hg, hf⟩
    rw [has_insert, Bool.or_eq_true, decide_eq_true_iff] at hf
    rcases hf with rfl | hf
    · exact .inl hg
    · exact .inr ⟨g, hg, hf⟩
  · rintro (h | ⟨g, hg, hd⟩)
    · exact ⟨f, h, by simp⟩
    · exact ⟨g, hg, by simp [hd]⟩

theorem Category.meets_token (c : Category) :
    c.meets .token = (c.has .operator || c.has .operand) := by
  rw [token, meets_insert, meets_singleton]

theorem Category.meets_callable (c : Category) :
    c.meets .callable = (c.has .function || c.has .closure) := by
  rw [callable, meets_insert, meets_singleton]

/-- No flag of a scope is one of a token. -/
theorem Category.not_token_of_scope {f : Flag} (h : scope.has f = true) : token.has f = false := by
  revert h
  cases f <;> decide

namespace Reading

variable {r : Reading} {p : Place} {f : Flag}

/-! ### The rules -/

theorem has_tokenRule {n : Node} {c : Category} (h : (r.tokenRule n c).has f = true) :
    f = .operator ∨ f = .operand ∨ c.has f = true := by
  unfold tokenRule at h
  split_ifs at h
  · exact .inr (Category.has_union_singleton h)
  · exact .inr (.inr h)
  · exact (Category.has_union_singleton h).imp_right .inr
  · exact .inr (Category.has_union_singleton h)
  · exact .inr (.inr h)
  · exact (Category.has_union_singleton h).imp_right .inr

theorem has_chainRule {c : Category} (h : (r.chainRule p c).has f = true) :
    f = .else_ ∨ c.has f = true := by
  unfold chainRule at h
  split at h
  · refine (Category.has_union_singleton h).imp_right fun h => ?_
    rw [Category.has_diff, Bool.and_eq_true] at h
    exact h.1
  · exact .inr h

/-- A flag that the rules do not bring in was in the base flags. -/
theorem has_classify (h : (r.classify p).has f = true) :
    f = .operator ∨ f = .operand ∨ f = .else_ ∨ (r.flags p.node).has f = true := by
  unfold classify at h
  split at h
  · rw [Category.has_empty] at h
    cases h
  · simp only at h
    split at h
    · rename_i hc
      rw [Category.has_singleton, decide_eq_true_eq] at h
      exact .inr (.inr (.inr (h ▸ hc)))
    · -- the rules after `chainRule` only take away, and so does `bodyRule` before it
      have hchain := Category.has_of_ite_diff <| Category.has_of_ite_diff <|
        Category.has_of_ite_diff <| Category.has_of_ite_diff <| Category.has_of_ite_diff <|
        Category.has_of_ite_diff <| Category.has_of_ite_diff <| Category.has_of_ite_diff h
      rcases has_chainRule hchain with h | h
      · exact .inr (.inr (.inl h))
      · rcases has_tokenRule (Category.has_of_ite_diff h) with h | h | h
        · exact .inl h
        · exact .inr (.inl h)
        · exact .inr (.inr (.inr h))

theorem classify_of_isError (h : p.node.isError = true) : r.classify p = ∅ := by
  rw [classify, if_pos h]

/-- A comment keeps its flag, unless it is an error. -/
theorem has_comment_classify (he : p.node.isError = false) :
    (r.classify p).has .comment = (r.flags p.node).has .comment := by
  rw [Bool.eq_iff_iff]
  constructor
  · intro h
    rcases has_classify h with h | h | h | h
    · cases h
    · cases h
    · cases h
    · exact h
  · intro h
    rw [classify, he, if_neg Bool.false_ne_true]
    simp only [h, if_true, Category.has_singleton, decide_true]

/-- A node with the flag of a comment has that flag alone. -/
theorem classify_eq_comment (h : (r.classify p).has .comment = true) :
    r.classify p = {.comment} := by
  have he : p.node.isError = false := by
    rw [Bool.eq_false_iff]
    intro he
    rw [classify_of_isError he, Category.has_empty] at h
    cases h
  rw [has_comment_classify he] at h
  rw [classify, he, if_neg Bool.false_ne_true]
  exact if_pos h

/-! ### After the rule for tokens -/

/-- The rules after the one for tokens, in their order. -/
def laterRules (r : Reading) (p : Place) (c : Category) : Category :=
  r.bodyRule p c |> r.chainRule p |> r.elseRule p |> r.comparisonRule p |> r.defaultTokenRule p |>
    r.defaultLabelRule p |> r.wildcardRule p |> r.assignmentRule p |> r.exitRule p |>
    r.attributeRule p

theorem classify_eq_laterRules (he : p.node.isError = false)
    (hc : (r.classify p).has .comment = false) :
    r.classify p = r.laterRules p (r.tokenRule p.node (r.flags p.node)) := by
  rw [has_comment_classify he] at hc
  rw [classify, he, if_neg Bool.false_ne_true]
  simp only [hc, Bool.false_eq_true, if_false]
  rfl

/-- The rule for chains exchanges two flags and leaves the others. -/
theorem has_chainRule_eq (c : Category) (f : Flag) : (r.chainRule p c).has f =
    if c.has .branch && c.has .nesting && r.continuesChain p then
      c.has f && !decide (.nesting = f) || decide (.else_ = f)
    else c.has f := by
  rw [chainRule]
  split
  · rw [Category.has_union, Category.has_diff, Category.has_singleton, Category.has_singleton]
  · rfl

theorem has_chainRule_of_ne {f : Flag} (hn : f ≠ .nesting) (he : f ≠ .else_) (c : Category) :
    (r.chainRule p c).has f = c.has f := by
  rw [has_chainRule_eq, decide_eq_false (Ne.symm hn), decide_eq_false (Ne.symm he)]
  split <;> simp

/-- The rules after the one for `else` take away five kinds of flag. -/
theorem has_laterRules {f : Flag} (hf : f ∉ [.condition, .decision, .assignment, .exit, .attribute])
    (c : Category) :
    (r.laterRules p c).has f = (r.elseRule p (r.chainRule p (r.bodyRule p c))).has f := by
  have hother : ∀ g ∈ [Flag.condition, .decision, .assignment, .exit, .attribute],
      ({g} : Category).has f = false := by
    intro g hg
    rw [Category.has_singleton, decide_eq_false_iff_not]
    rintro rfl
    exact hf hg
  rw [laterRules, attributeRule, Category.has_ite_diff_of_not (hother _ (by decide)),
    exitRule, Category.has_ite_diff_of_not (hother _ (by decide)),
    assignmentRule, Category.has_ite_diff_of_not (hother _ (by decide)),
    wildcardRule, Category.has_ite_diff_of_not (hother _ (by decide)),
    defaultLabelRule, Category.has_ite_diff_of_not (hother _ (by decide)),
    defaultTokenRule, Category.has_ite_diff_of_not (hother _ (by decide)),
    comparisonRule, Category.has_ite_diff_of_not (hother _ (by decide))]

/-- The rules after the one for bodies leave alone every flag that they do not name. -/
theorem has_laterRules_of_not_mem
    (hf : f ∉ [.nesting, .else_, .condition, .decision, .assignment, .exit, .attribute])
    (c : Category) : (r.laterRules p c).has f = (r.bodyRule p c).has f := by
  have helse : ({.else_} : Category).has f = false := by
    rw [Category.has_singleton, decide_eq_false_iff_not]
    rintro rfl
    exact hf (by decide)
  rw [has_laterRules fun h => hf (List.mem_cons_of_mem _ (List.mem_cons_of_mem _ h)), elseRule,
    Category.has_ite_diff_of_not helse, has_chainRule_of_ne]
  · rintro rfl
    exact hf (by decide)
  · rintro rfl
    exact hf (by decide)

/-- The later rules leave alone what puts code on a line. -/
theorem has_laterRules_of_code (hf : Category.code.has f = true) (c : Category) :
    (r.laterRules p c).has f = c.has f := by
  have hnot : f ∉ [.nesting, .else_, .condition, .decision, .assignment, .exit, .attribute] ∧
      Category.scope.has f = false := by
    revert hf
    cases f <;> decide
  rw [has_laterRules_of_not_mem hnot.1, bodyRule, Category.has_ite_diff_of_not hnot.2]

theorem has_classify_of_code (hf : Category.code.has f = true) (he : p.node.isError = false)
    (hc : (r.classify p).has .comment = false) :
    (r.classify p).has f = (r.tokenRule p.node (r.flags p.node)).has f := by
  rw [classify_eq_laterRules he hc, has_laterRules_of_code hf]

/-- The rule for tokens brings in no other flag and takes none away. -/
theorem has_tokenRule_of_not (hf : Category.token.has f = false) (n : Node) (c : Category) :
    (r.tokenRule n c).has f = c.has f := by
  have hunion : ∀ g, Category.token.has g = true → (c ∪ {g}).has f = c.has f := by
    intro g hg
    have hne : g ≠ f := by
      rintro rfl
      rw [hf] at hg
      cases hg
    rw [Category.has_union, Category.has_singleton, decide_eq_false hne, Bool.or_false]
  unfold tokenRule
  split_ifs
  · exact hunion _ rfl
  · rfl
  · exact hunion _ rfl
  · exact hunion _ rfl
  · rfl
  · exact hunion _ rfl

/-- Whether a node lacks the body without which it opens no scope. -/
def lacksBody (r : Reading) (n : Node) : Bool :=
  r.pack.requiresBody.contains n.kind && (n.field? "body").isNone

/-- The rule for bodies takes the flags of a scope from a node that lacks its body. -/
theorem has_bodyRule_of_scope (hf : Category.scope.has f = true) (c : Category) :
    (r.bodyRule p c).has f = (c.has f && !r.lacksBody p.node) := by
  have hkind : r.lacksBody p.node =
      (r.pack.requiresBody.contains p.kind && (p.node.field? "body").isNone) := rfl
  rw [bodyRule, Bool.and_assoc, ← hkind]
  cases hc : c.has f with
  | false =>
      rw [Bool.false_and, Bool.eq_false_iff]
      intro h
      rw [Category.has_of_ite_diff h] at hc
      cases hc
  | true =>
      rw [Category.meets_iff.mpr ⟨f, hc, hf⟩, Bool.true_and]
      cases r.lacksBody p.node with
      | true => rw [if_pos rfl, Category.has_diff, hf]; exact Bool.and_false _
      | false => rw [if_neg Bool.false_ne_true, hc]; rfl

/-- A flag of a scope comes from the tables, and goes where a body is needed and missing. -/
theorem has_classify_of_scope (hf : Category.scope.has f = true) :
    (r.classify p).has f =
      (!p.node.isError && !(r.flags p.node).has .comment &&
        ((r.flags p.node).has f && !r.lacksBody p.node)) := by
  have hnot : f ∉ [.nesting, .else_, .condition, .decision, .assignment, .exit, .attribute] ∧
      ({.comment} : Category).has f = false := by
    revert hf
    cases f <;> decide
  cases he : p.node.isError with
  | true => rw [classify_of_isError he, Category.has_empty]; rfl
  | false =>
      have hcomment := has_comment_classify (r := r) he
      cases hc : (r.flags p.node).has .comment with
      | true => rw [classify_eq_comment (hcomment.trans hc), hnot.2]; rfl
      | false =>
          rw [classify_eq_laterRules he (hcomment.trans hc), has_laterRules_of_not_mem hnot.1,
            has_bodyRule_of_scope hf, has_tokenRule_of_not (Category.not_token_of_scope hf)]
          rfl

/-! ### Inside operands -/

/-- Inside an operand a node loses the flags of tokens and no other. -/
theorem has_categoryIn {s : Surroundings} (hf : Category.token.has f = false) :
    (r.categoryIn s p).has f = (r.classify p).has f := by
  unfold categoryIn
  split
  · exact Category.has_diff_of_not hf
  · rfl

/-- A comment keeps its flag inside an operand. -/
theorem categoryIn_of_comment (h : (r.classify p).has .comment = true) (s : Surroundings) :
    r.categoryIn s p = {.comment} := by
  rw [categoryIn, classify_eq_comment h]
  split <;> decide

/-- Whether a node opens a scope does not depend on an operand around it. -/
theorem meets_scope_categoryIn {s : Surroundings} :
    (r.categoryIn s p).meets .scope = (r.classify p).meets .scope :=
  Category.meets_congr fun _ hf => has_categoryIn (Category.not_token_of_scope hf)

end Reading

/-! ### Composites -/

/-- In every pack, the kinds that count as one operand are no kinds of scope openers. -/
theorem Language.composites_not_scope (l : Language) :
    (l.pack.composites.all fun k => !(Group.flagsOf l.pack.kinds k).meets .scope) = true := by
  cases l <;> decide +kernel

/-- What counts as one operand opens no scope. -/
theorem Reading.not_meets_scope_of_isComposite {r : Reading} {l : Language} (hr : r.pack = l.pack)
    {p : Place} (h : r.isComposite p.node = true) : (r.classify p).meets .scope = false := by
  obtain ⟨hn, hk⟩ : p.node.label.named = true ∧ p.node.label.kind ∈ l.pack.composites := by
    simpa [isComposite, Pack.isComposite, hr] using h
  have hbase : (r.flags p.node).meets .scope = false := by
    have := List.all_eq_true.mp l.composites_not_scope _ hk
    simpa [Reading.flags, Pack.flags, hr, hn] using this
  rw [Bool.eq_false_iff, Ne, Category.meets_iff] at hbase ⊢
  rintro ⟨f, hf, hs⟩
  rcases has_classify hf with rfl | rfl | rfl | hb
  · revert hs; decide
  · revert hs; decide
  · revert hs; decide
  · exact hbase ⟨f, hb, hs⟩

end ScopeMetrics
