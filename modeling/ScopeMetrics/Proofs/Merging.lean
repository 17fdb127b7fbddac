import Mathlib.Data.List.Basic
import ScopeMetrics.Directives
import ScopeMetrics.Proofs.Tallying

/-!
# Merging directives

Directives are merged from the left: the left side stays as it is, and the right side adds the
paths that the left one does not include.  Which side is left shows in the order of the paths, and
a path that one side repeats may stay repeated; so the includes are neither a set nor a list without
repetition, and yet merging obeys the laws of a union.

* `merge_of_subset`: what is there already changes nothing.
* `mergeAll_append`: merging is associative and has an identity, so lists are merged in any groups.
* `eraseDups_foldl_merge`: read without repetition, the merged paths are all paths in the order of
  their first occurrences, since every single merge keeps that order.
* **`Directives.merge_laws`**: all of it together.
-/

namespace ScopeMetrics

/-! ### Taking paths away -/

section

variable {α : Type} [BEq α] [LawfulBEq α] {as bs cs : List α}

theorem mem_removeAll {x : α} : x ∈ bs.removeAll as ↔ x ∈ bs ∧ x ∉ as := by
  simp [List.removeAll]

theorem removeAll_congr (h : ∀ x, x ∈ as ↔ x ∈ bs) : cs.removeAll as = cs.removeAll bs := by
  refine List.filter_congr fun x _ => ?_
  rw [Bool.eq_iff_iff]
  simp [h x]

theorem removeAll_eq_nil (h : ∀ x ∈ bs, x ∈ as) : bs.removeAll as = [] := by
  simpa [List.removeAll] using h

/-- What both lists have is taken away in one step, or in two. -/
theorem removeAll_append : cs.removeAll (as ++ bs) = (cs.removeAll bs).removeAll as := by
  simp [List.removeAll, List.filter_filter]

/-- Without repetition, a list goes on with what is not in it yet. -/
theorem eraseDups_append_removeAll : (as ++ bs.removeAll as).eraseDups = (as ++ bs).eraseDups := by
  have htwice : (bs.removeAll as).removeAll as = bs.removeAll as := by
    simp [List.removeAll, List.filter_filter]
  rw [List.eraseDups_append, List.eraseDups_append, htwice]

/-- Lists that are the same without repetition go on in the same way. -/
theorem eraseDups_append_congr (h : as.eraseDups = bs.eraseDups) :
    (as ++ cs).eraseDups = (bs ++ cs).eraseDups := by
  have hmem : ∀ x, x ∈ as ↔ x ∈ bs := fun x => by
    rw [← List.mem_eraseDups, h, List.mem_eraseDups]
  rw [List.eraseDups_append, List.eraseDups_append, h, removeAll_congr hmem]

end

namespace SortedSet

variable {α : Type} [LT α] [LE α] [DecidableLT α] [DecidableEq α] [Std.IsLinearOrder α]
  [Std.LawfulOrderLT α] {a b : SortedSet α}

theorem union_of_subset (h : ∀ z ∈ b, z ∈ a) : a.union b = a := by
  refine ext_mem fun z => ?_
  rw [mem_union]
  exact ⟨fun hz => hz.elim id (h z), .inl⟩

theorem union_empty (a : SortedSet α) : a.union ∅ = a :=
  union_of_subset fun _ h => absurd h not_mem_empty

theorem empty_union (a : SortedSet α) : union ∅ a = a := by rw [union_comm, union_empty]

end SortedSet

namespace Directives

/-! ### One merge -/

@[ext] theorem ext {a b : Directives} (hmacros : a.macros = b.macros)
    (hincludes : a.includes = b.includes) : a = b := by
  obtain ⟨macros, includes⟩ := a
  cases hmacros
  cases hincludes
  rfl

section

variable {a b c : Directives}

theorem includes_merge : (a.merge b).includes = a.includes ++ b.includes.removeAll a.includes := rfl

@[simp] theorem mem_macros_merge {name : String} :
    name ∈ (a.merge b).macros ↔ name ∈ a.macros ∨ name ∈ b.macros := SortedSet.mem_union

@[simp] theorem mem_includes_merge {path : String} :
    path ∈ (a.merge b).includes ↔ path ∈ a.includes ∨ path ∈ b.includes := by
  rw [includes_merge, List.mem_append, mem_removeAll]
  by_cases h : path ∈ a.includes <;> simp [h]

/-- **What is there already changes nothing.** -/
theorem merge_of_subset (hmacros : ∀ name ∈ b.macros, name ∈ a.macros)
    (hincludes : ∀ path ∈ b.includes, path ∈ a.includes) : a.merge b = a := by
  refine ext (SortedSet.union_of_subset hmacros) ?_
  rw [includes_merge, removeAll_eq_nil hincludes, List.append_nil]

/-- Read without repetition, merged paths are those of the left side and then those of the right. -/
theorem eraseDups_merge :
    (a.merge b).includes.eraseDups = (a.includes ++ b.includes).eraseDups := by
  rw [includes_merge, eraseDups_append_removeAll]

end

theorem merge_assoc (a b c : Directives) : (a.merge b).merge c = a.merge (b.merge c) := by
  refine ext (SortedSet.union_assoc a.macros b.macros c.macros) ?_
  -- a path of `c` is new to `a` and `b` together exactly if it is new to `b` and then to `a`
  have hnew : c.includes.removeAll (a.merge b).includes =
      (c.includes.removeAll b.includes).removeAll a.includes := by
    rw [← removeAll_append]
    exact removeAll_congr fun path => by rw [mem_includes_merge, List.mem_append]
  have hright : (b.merge c).includes.removeAll a.includes =
      b.includes.removeAll a.includes ++ (c.includes.removeAll b.includes).removeAll a.includes :=
    List.filter_append _ _
  calc ((a.merge b).merge c).includes
      = a.includes ++ b.includes.removeAll a.includes ++
          c.includes.removeAll (a.merge b).includes := rfl
    _ = a.includes ++ (b.merge c).includes.removeAll a.includes := by
        rw [hnew, hright, List.append_assoc]
    _ = (a.merge (b.merge c)).includes := rfl

theorem merge_self (a : Directives) : a.merge a = a := merge_of_subset (fun _ h => h) fun _ h => h

theorem merge_empty (a : Directives) : a.merge {} = a :=
  merge_of_subset (fun _ h => absurd h SortedSet.not_mem_empty) fun _ h => by cases h

theorem empty_merge (a : Directives) : merge {} a = a := by
  refine ext (SortedSet.empty_union a.macros) ?_
  simp [includes_merge, List.removeAll]

instance : Std.Associative merge := ⟨merge_assoc⟩

instance : Std.IdempotentOp merge := ⟨merge_self⟩

instance : Std.LawfulIdentity merge {} where
  left_id := empty_merge
  right_id := merge_empty

/-! ### Many merges -/

/-- **Lists are merged in any groups.** -/
theorem mergeAll_append (ds es : List Directives) :
    mergeAll (ds ++ es) = (mergeAll ds).merge (mergeAll es) := by
  rw [mergeAll, List.foldl_append, ← merge_empty (ds.foldl merge {}), List.foldl_assoc]
  rfl

theorem mergeAll_cons (d : Directives) (ds : List Directives) :
    mergeAll (d :: ds) = d.merge (mergeAll ds) := by
  rw [← List.singleton_append, mergeAll_append, mergeAll, List.foldl_cons, List.foldl_nil,
    empty_merge]

theorem mem_macros_mergeAll {name : String} (ds : List Directives) :
    name ∈ (mergeAll ds).macros ↔ ∃ d ∈ ds, name ∈ d.macros := by
  induction ds with
  | nil => simp [mergeAll, SortedSet.not_mem_empty]
  | cons d ds ih => rw [mergeAll_cons, mem_macros_merge, ih, List.exists_mem_cons_iff]

theorem mem_includes_mergeAll {path : String} (ds : List Directives) :
    path ∈ (mergeAll ds).includes ↔ ∃ d ∈ ds, path ∈ d.includes := by
  induction ds with
  | nil => simp [mergeAll]
  | cons d ds ih => rw [mergeAll_cons, mem_includes_merge, ih, List.exists_mem_cons_iff]

/-- Merging one after the other keeps the order of first occurrences, wherever it begins. -/
theorem eraseDups_foldl_merge (ds : List Directives) : ∀ a : Directives,
    (ds.foldl merge a).includes.eraseDups = (a.includes ++ ds.flatMap includes).eraseDups := by
  induction ds with
  | nil => simp
  | cons d ds ih =>
      intro a
      rw [List.foldl_cons, ih, eraseDups_append_congr eraseDups_merge, List.append_assoc,
        List.flatMap_cons]

/-- **Merging obeys the laws of a union.**  It is associative and idempotent, and nothing is its
identity; so lists of directives may be merged in any groups.  The merged macros and paths are
those of all; the paths begin with those of the first, and have their first occurrences in the
order in which all of them occur.  Directives that are there already change nothing. -/
theorem merge_laws :
    Std.Associative merge ∧ Std.IdempotentOp merge ∧
    (∀ a, merge {} a = a ∧ merge a {} = a) ∧
    (∀ ds es, mergeAll (ds ++ es) = (mergeAll ds).merge (mergeAll es)) ∧
    (∀ ds name, name ∈ (mergeAll ds).macros ↔ ∃ d ∈ ds, name ∈ d.macros) ∧
    (∀ ds path, path ∈ (mergeAll ds).includes ↔ ∃ d ∈ ds, path ∈ d.includes) ∧
    (∀ d ds, d.includes <+: (mergeAll (d :: ds)).includes) ∧
    (∀ ds, (mergeAll ds).includes.eraseDups = (ds.flatMap includes).eraseDups) ∧
    ∀ a b : Directives, (∀ name ∈ b.macros, name ∈ a.macros) →
      (∀ path ∈ b.includes, path ∈ a.includes) → a.merge b = a := by
  refine ⟨inferInstance, inferInstance, fun a => ⟨empty_merge a, merge_empty a⟩, mergeAll_append,
    fun ds _ => mem_macros_mergeAll ds, fun ds _ => mem_includes_mergeAll ds, fun d ds => ?_,
    fun ds => ?_, fun a b => merge_of_subset⟩
  · rw [mergeAll_cons, includes_merge]
    exact List.prefix_append _ _
  · exact eraseDups_foldl_merge ds {}

/-- Directives that another one repeats in another order change nothing, and a path that is repeated
on the left stays repeated. -/
theorem merge_laws_repeated :
    merge ⟨.ofList ["A", "B"], ["x.h", "y.h", "x.h"]⟩ ⟨.ofList ["B"], ["y.h", "x.h"]⟩ =
      ⟨.ofList ["A", "B"], ["x.h", "y.h", "x.h"]⟩ := by
  obtain ⟨-, -, -, -, -, -, -, -, hsubset⟩ := merge_laws
  exact hsubset _ _ (by simp) (by simp)

end Directives

end ScopeMetrics
