import ScopeMetrics.Proofs.Walk

/-!
# What the tables of all languages have in common

A node has a flag in the tables if some group that lists its kind carries it
(`Group.has_flagsOf`), so a property of all nodes of a language is one of its few groups.

* `Language.exists_named_group`: what opens a scope, is an if or is a comment is named.
* `Language.flags_of_scope`: a kind that opens a scope has one flag and no other.
* `Language.not_scope_of_elseContainer`: what wraps an `else` opens no scope.
* `Language.not_token_flags`: what is counted is not in the tables.
* `Language.kind_of_comment`: a comment is named, and all comments are of a few kinds.
-/

namespace ScopeMetrics

/-! ### Flags by group -/

theorem Group.has_foldl (kind : String) (f : Flag) : ∀ (groups : List Group) (c : Category),
    (groups.foldl (fun c g => if g.kinds.contains kind then c ∪ g.flags else c) c).has f =
      (c.has f || groups.any fun g => g.kinds.contains kind && g.flags.has f)
  | [], c => by simp
  | g :: groups, c => by
      rw [List.foldl_cons, has_foldl kind f groups, List.any_cons]
      by_cases h : g.kinds.contains kind = true
      · rw [if_pos h, h, Category.has_union, Bool.true_and, Bool.or_assoc]
      · rw [if_neg h, Bool.eq_false_iff.mpr h, Bool.false_and, Bool.false_or]

/-- A kind has the flags of the groups that list it. -/
theorem Group.has_flagsOf (groups : List Group) (kind : String) (f : Flag) :
    (flagsOf groups kind).has f = groups.any fun g => g.kinds.contains kind && g.flags.has f := by
  rw [flagsOf, has_foldl, Category.has_empty, Bool.false_or]

/-- A kind that no group with other flags lists has the flags of a group that lists it. -/
theorem Group.flagsOf_eq_of_alone {groups : List Group} {g : Group} {kind : String}
    (hg : g ∈ groups) (hk : kind ∈ g.kinds)
    (halone : (groups.all fun h => h.flags = g.flags || !h.kinds.any g.kinds.contains) = true) :
    flagsOf groups kind = g.flags := by
  refine Category.ext_has fun f => ?_
  rw [has_flagsOf, Bool.eq_iff_iff, List.any_eq_true]
  constructor
  · rintro ⟨h, hh, hf⟩
    rw [Bool.and_eq_true, List.contains_iff_mem] at hf
    have hsame := List.all_eq_true.mp halone h hh
    have hshared : h.kinds.any g.kinds.contains = true :=
      List.any_eq_true.mpr ⟨kind, hf.1, List.contains_iff_mem.mpr hk⟩
    rw [hshared, Bool.not_true, Bool.or_false, decide_eq_true_iff] at hsame
    exact hsame ▸ hf.2
  · exact fun hf => ⟨g, hg, by rw [hf, List.contains_iff_mem.mpr hk]; rfl⟩

theorem Pack.exists_group {p : Pack} {l : Label} {f : Flag} (h : (p.flags l).has f = true) :
    ∃ g ∈ (if l.named then p.kinds else p.tokens), l.kind ∈ g.kinds ∧ g.flags.has f = true := by
  rw [flags, Group.has_flagsOf, List.any_eq_true] at h
  obtain ⟨g, hg, h⟩ := h
  rw [Bool.and_eq_true, List.contains_iff_mem] at h
  exact ⟨g, hg, h⟩

theorem Pack.exists_group_of_all {p : Pack} {l : Label} {f : Flag} (h : (p.flags l).has f = true) :
    ∃ g ∈ p.kinds ++ p.tokens, l.kind ∈ g.kinds ∧ g.flags.has f = true := by
  obtain ⟨g, hg, hkind, hflag⟩ := exists_group h
  refine ⟨g, ?_, hkind, hflag⟩
  split at hg
  · exact List.mem_append_left _ hg
  · exact List.mem_append_right _ hg

/-- A flag that no group of tokens carries makes a node named. -/
theorem Pack.exists_named_group {p : Pack} {l : Label} {f : Flag}
    (htokens : (p.tokens.all fun g => !g.flags.has f) = true) (h : (p.flags l).has f = true) :
    l.named = true ∧ ∃ g ∈ p.kinds, l.kind ∈ g.kinds ∧ g.flags.has f = true := by
  obtain ⟨g, hg, hk, hf⟩ := exists_group h
  by_cases hn : l.named = true
  · rw [if_pos hn] at hg
    exact ⟨hn, g, hg, hk, hf⟩
  · rw [if_neg hn] at hg
    have := List.all_eq_true.mp htokens g hg
    rw [hf] at this
    cases this

namespace Language

variable {lang : Language} {l : Label}

/-! ### Named nodes -/

/-- The flags that only named nodes have. -/
def ofNamed : Category := .scope ∪ {.branch, .comment}

theorem tokens_not_named (lang : Language) :
    (lang.pack.tokens.all fun g => !g.flags.meets ofNamed) = true := by
  cases lang <;> decide +kernel

/-- What opens a scope, is an if or is a comment is named. -/
theorem exists_named_group {f : Flag} (hf : ofNamed.has f = true)
    (h : (lang.pack.flags l).has f = true) :
    l.named = true ∧ ∃ g ∈ lang.pack.kinds, l.kind ∈ g.kinds ∧ g.flags.has f = true := by
  refine Pack.exists_named_group (List.all_eq_true.mpr fun g hg => ?_) h
  have hmeets := List.all_eq_true.mp lang.tokens_not_named g hg
  rw [Bool.not_eq_true', Bool.eq_false_iff, Ne, Category.meets_iff] at hmeets
  rw [Bool.not_eq_true', Bool.eq_false_iff]
  exact fun hgf => hmeets ⟨f, hgf, hf⟩

/-! ### Scope openers -/

/-- The kinds of scope openers are listed in groups of one flag, and in no other group. -/
theorem scope_groups (lang : Language) :
    (lang.pack.kinds.all fun g => !g.flags.meets .scope ||
      ([Flag.function, .closure, .class_, .module].any fun f => g.flags = {f}) &&
        lang.pack.kinds.all fun h => h.flags = g.flags || !h.kinds.any g.kinds.contains) =
      true := by
  cases lang <;> decide +kernel

/-- A kind that opens a scope has one flag and no other. -/
theorem flags_of_scope (h : (lang.pack.flags l).meets .scope = true) :
    ∃ f, Category.scope.has f = true ∧ lang.pack.flags l = {f} := by
  obtain ⟨f, hf, hs⟩ := Category.meets_iff.mp h
  have hnamed : ofNamed.has f = true := by rw [ofNamed, Category.has_union, hs, Bool.true_or]
  obtain ⟨hn, g, hg, hk, hgf⟩ := exists_named_group hnamed hf
  have hgroup := List.all_eq_true.mp lang.scope_groups g hg
  rw [Category.meets_iff.mpr ⟨f, hgf, hs⟩, Bool.not_true, Bool.false_or, Bool.and_eq_true] at hgroup
  obtain ⟨hone, halone⟩ := hgroup
  obtain ⟨e, -, he⟩ := List.any_eq_true.mp hone
  obtain rfl : e = f := by
    rw [of_decide_eq_true he, Category.has_singleton] at hgf
    exact of_decide_eq_true hgf
  refine ⟨e, hs, ?_⟩
  rw [Pack.flags, if_pos hn, Group.flagsOf_eq_of_alone hg hk halone, of_decide_eq_true he]

theorem elseContainers_eq (lang : Language) : lang.pack.elseContainers = ["else_clause"] := by
  cases lang <;> rfl

theorem elseClause_not_scope (lang : Language) :
    ((lang.pack.kinds ++ lang.pack.tokens).all fun g =>
      !(g.flags.meets .scope && g.kinds.contains "else_clause")) = true := by
  cases lang <;> decide +kernel

/-- What wraps an `else` opens no scope. -/
theorem not_scope_of_elseContainer (h : lang.pack.elseContainers.contains l.kind = true) :
    (lang.pack.flags l).meets .scope = false := by
  rw [elseContainers_eq, List.contains_iff_mem, List.mem_singleton] at h
  rw [Bool.eq_false_iff, Ne, Category.meets_iff]
  rintro ⟨f, hf, hs⟩
  obtain ⟨g, hg, hk, hgf⟩ := Pack.exists_group_of_all hf
  have := List.all_eq_true.mp lang.elseClause_not_scope g hg
  rw [Category.meets_iff.mpr ⟨f, hgf, hs⟩, List.contains_iff_mem.mpr (h ▸ hk)] at this
  cases this

/-! ### Tokens and comments -/

/-- An if is named. -/
theorem not_branch_of_token (h : l.named = false) : (lang.pack.flags l).has .branch = false := by
  rw [Bool.eq_false_iff]
  intro hb
  rw [(exists_named_group (by decide) hb).1] at h
  cases h

theorem groups_not_token (lang : Language) :
    ((lang.pack.kinds ++ lang.pack.tokens).all fun g => !g.flags.meets .token) = true := by
  cases lang <;> decide +kernel

/-- No table says of a node that it is counted. -/
theorem not_token_flags {f : Flag} (hf : Category.token.has f = true) :
    (lang.pack.flags l).has f = false := by
  rw [Bool.eq_false_iff]
  intro h
  obtain ⟨g, hg, -, hgf⟩ := Pack.exists_group_of_all h
  have := List.all_eq_true.mp lang.groups_not_token g hg
  rw [Category.meets_iff.mpr ⟨f, hgf, hf⟩] at this
  cases this

/-- The kinds of comments in all languages. -/
def commentKinds : List String :=
  ["comment", "line_comment", "block_comment", "html_comment", "js_comment"]

theorem comment_groups (lang : Language) :
    (lang.pack.kinds.all fun g => !g.flags.has .comment || g.kinds.all commentKinds.contains) =
      true := by
  cases lang <;> decide +kernel

/-- A comment is named, and of one of the kinds of comments. -/
theorem kind_of_comment (h : (lang.pack.flags l).has .comment = true) :
    l.named = true ∧ l.kind ∈ commentKinds := by
  obtain ⟨hn, g, hg, hk, hf⟩ := exists_named_group (by decide) h
  have := List.all_eq_true.mp lang.comment_groups g hg
  rw [hf, Bool.not_true, Bool.false_or] at this
  exact ⟨hn, List.contains_iff_mem.mp (List.all_eq_true.mp this _ hk)⟩

end Language

end ScopeMetrics
