import Mathlib.Data.List.Nodup
import ScopeMetrics.Disk
import ScopeMetrics.Proofs.Merging
import ScopeMetrics.Proofs.Places

/-!
# The includes of several units

The directives of a unit are collected with a stack of nodes (`Directives.gather`); an include puts
nothing on it, so an include inside another one is not looked at.  The stack goes through the tree
in document order.

* `Directives.gather_eq`: whatever is on the stack, its trees are collected one after the other.
* `Directives.includes_collect`: the paths of a unit are those of its outermost includes, in
  document order (`CodeUnit.includedPaths`).
* `Directives.count_mergeAll`: merged, a path is listed as often as the first unit with the path
  lists it.
* **`CodeUnit.merged_includes`**: so the merged paths begin to occur in the order in which they
  occur in all units, but are free of repetition only where no unit repeats a path that is new.
* `CodeUnit.one_unit_repeats`: one unit is enough to repeat a path.
-/

namespace ScopeMetrics

/-! ### Outermost includes -/

def Node.isInclude (n : Node) : Bool := n.kind == "preproc_include"

/-- Whether a place is an include and is not inside another one. -/
def Place.isOutermostInclude (p : Place) : Bool :=
  p.node.isInclude && p.ancestors.all fun a => !a.node.isInclude

/-- The path that an include names. -/
def Source.includedPath? (s : Source) (n : Node) : Option String :=
  (n.field? "path").map fun m => Directives.includedPath (s.text m.label)

namespace CodeUnit

/-- The paths that a unit includes, in document order. -/
def includedPaths (u : CodeUnit) : List String :=
  (u.tree.places.filter Place.isOutermostInclude).filterMap fun p => u.source.includedPath? p.node

def directives (u : CodeUnit) : Directives := .collect u.source u.tree

/-- The paths of several units, merged. -/
def mergedIncludes (us : List CodeUnit) : List String :=
  (Directives.mergeAll (us.map directives)).includes

end CodeUnit

theorem Node.sizeAll_append : ∀ cs ds : List Node, sizeAll (cs ++ ds) = sizeAll cs + sizeAll ds
  | [], ds => by rw [List.nil_append, sizeAll, Nat.zero_add]
  | c :: cs, ds => by rw [List.cons_append, sizeAll, sizeAll, sizeAll_append cs ds, Nat.add_assoc]

/-- What is looked at below a node: its children, but nothing below an include. -/
def Node.openChildren (n : Node) : List Node := if n.isInclude then [] else n.children

theorem Node.sizeAll_openChildren_lt (n : Node) : sizeAll n.openChildren < n.size := by
  obtain ⟨l, cs⟩ := n
  rw [openChildren, size]
  split
  · exact Nat.succ_pos _
  · exact Nat.lt_succ_self _

namespace Directives

/-! ### The stack -/

/-- Collects the directives of the trees on a stack.  The topmost node is taken and what is below
it is put in its place, the first child topmost. -/
def gather (s : Source) (found : Directives) : List Node → Directives
  | [] => found
  | n :: stack => gather s (found.append (ofNode s n)) (n.openChildren ++ stack)
termination_by stack => Node.sizeAll stack
decreasing_by
  rw [Node.sizeAll_append, Node.sizeAll]
  exact Nat.add_lt_add_right n.sizeAll_openChildren_lt _

theorem append_assoc (a b c : Directives) : (a.append b).append c = a.append (b.append c) :=
  ext (SortedSet.union_assoc _ _ _) (List.append_assoc _ _ _)

theorem append_empty (a : Directives) : a.append {} = a :=
  ext (SortedSet.union_empty _) (List.append_nil _)

theorem empty_append (a : Directives) : append {} a = a :=
  ext (SortedSet.empty_union _) (List.nil_append _)

section

variable {s : Source}

/-- A tree gives what its root gives and what is looked at below. -/
theorem collect_eq (n : Node) :
    collect s n = (ofNode s n).append (collectAll s n.openChildren) := by
  obtain ⟨l, cs⟩ := n
  rw [collect, Node.openChildren, Node.isInclude]
  by_cases h : (l.kind == "preproc_include") = true
  · simp [h, Node.kind, Node.label, collectAll, append_empty]
  · simp [h, Node.kind, Node.label, Node.children]

theorem collectAll_append : ∀ cs ds : List Node,
    collectAll s (cs ++ ds) = (collectAll s cs).append (collectAll s ds)
  | [], ds => by rw [List.nil_append, collectAll, empty_append]
  | c :: cs, ds => by
      rw [List.cons_append, collectAll, collectAll, collectAll_append cs ds, append_assoc]

/-- **The stack collects its trees one after the other.** -/
theorem gather_eq (found : Directives) (stack : List Node) :
    gather s found stack = found.append (collectAll s stack) := by
  fun_induction gather s found stack with
  | case1 found => rw [collectAll, append_empty]
  | case2 found n stack ih =>
      rw [ih, collectAll_append, collectAll, collect_eq n, append_assoc, append_assoc]

theorem gather_root (n : Node) : gather s {} [n] = collect s n := by
  rw [gather_eq, empty_append, collectAll, collectAll, append_empty]

/-! ### Document order -/

theorem includes_ofNode (n : Node) :
    (ofNode s n).includes = if n.isInclude then (s.includedPath? n).toList else [] := by
  rw [ofNode, Node.isInclude, definesMacro, Source.includedPath?]
  by_cases hdef : n.kind = "preproc_def"
  · simp [hdef]
  by_cases hfun : n.kind = "preproc_function_def"
  · simp [hfun]
  by_cases hinc : n.kind = "preproc_include"
  · cases n.field? "path" <;> simp [hinc]
  · simp [hdef, hfun, hinc]

theorem includes_collectAll (cs : List Node) :
    (collectAll s cs).includes = cs.flatMap fun c => (collect s c).includes := by
  induction cs with
  | nil => rw [collectAll, List.flatMap_nil]
  | cons c cs ih => rw [collectAll, List.flatMap_cons, ← ih, append]

/-- Below an include, no include is outermost. -/
theorem filter_below_include {p : Place} (h : p.node.isInclude = true) :
    p.descendants.filter Place.isOutermostInclude = [] := by
  refine List.filter_eq_nil_iff.mpr fun q hq hout => ?_
  obtain ⟨-, hall⟩ := Bool.and_eq_true_iff.mp hout
  have := List.all_eq_true.mp hall p (Place.mem_ancestors_of_mem_descendants hq)
  rw [h] at this
  cases this

/-- **The paths are collected in document order**, under a place that is not inside an include. -/
theorem includes_collect (p : Place) : (∀ a ∈ p.ancestors, a.node.isInclude = false) →
    (collect s p.node).includes =
      (p.subtree.filter Place.isOutermostInclude).filterMap fun q => s.includedPath? q.node := by
  induction p using Place.induct with
  | h p ih =>
      intro habove
      have hout : p.isOutermostInclude = p.node.isInclude := by
        rw [Place.isOutermostInclude, List.all_eq_true.mpr fun a ha => by simp [habove a ha],
          Bool.and_true]
      rw [Place.subtree_eq, List.filter_cons, hout, collect_eq, append, includes_ofNode,
        Node.openChildren]
      by_cases hinc : p.node.isInclude = true
      · -- an include is outermost, and nothing below it is
        simp only [hinc, if_true, filter_below_include hinc, collectAll, List.append_nil]
        cases hpath : s.includedPath? p.node <;> simp [hpath]
      · -- anything else is passed over, and its children follow each other
        rw [Bool.not_eq_true] at hinc
        have hchildren : ∀ q ∈ p.children, (collect s q.node).includes =
            (q.subtree.filter Place.isOutermostInclude).filterMap
              fun r => s.includedPath? r.node := fun q hq => ih q hq <| by
          rw [Place.ancestors_of_mem_children hq]
          exact List.forall_mem_cons.mpr ⟨hinc, habove⟩
        simp only [hinc, Bool.false_eq_true, if_false, List.nil_append, includes_collectAll,
          Place.descendants, List.filter_flatMap, List.filterMap_flatMap]
        rw [← Place.map_node_children, List.flatMap_map]
        exact List.flatMap_congr hchildren

end

/-! ### Repeated paths -/

/-- Of two sides, the left one says how often its paths are listed. -/
theorem count_merge (a b : Directives) (path : String) : (a.merge b).includes.count path =
    if path ∈ a.includes then a.includes.count path else b.includes.count path := by
  rw [includes_merge, List.count_append]
  by_cases h : path ∈ a.includes
  · have hnone : path ∉ b.includes.removeAll a.includes := fun hb => (mem_removeAll.mp hb).2 h
    rw [if_pos h, List.count_eq_zero_of_not_mem hnone, Nat.add_zero]
  · rw [if_neg h, List.count_eq_zero_of_not_mem h, Nat.zero_add, List.removeAll,
      List.count_filter (by simpa using h)]

/-- The first directives with a path say how often it is listed. -/
theorem count_mergeAll (ds : List Directives) (path : String) :
    (mergeAll ds).includes.count path =
      ((ds.find? fun d => path ∈ d.includes).map fun d => d.includes.count path).getD 0 := by
  induction ds with
  | nil => rfl
  | cons d ds ih =>
      rw [mergeAll_cons, count_merge, List.find?_cons]
      by_cases h : path ∈ d.includes
      · simp [h]
      · simp [h, ih]

end Directives

/-- Without repetition, nothing is listed twice. -/
theorem nodup_eraseDups {α : Type} [BEq α] [LawfulBEq α] (xs : List α) : xs.eraseDups.Nodup := by
  match xs with
  | [] => exact List.nodup_nil
  | x :: xs =>
      rw [List.eraseDups_cons, List.nodup_cons, List.mem_eraseDups]
      exact ⟨by simp, nodup_eraseDups _⟩
termination_by xs.length
decreasing_by exact Nat.lt_succ_of_le (List.length_filter_le _ _)

theorem eraseDups_of_nodup {α : Type} [BEq α] [LawfulBEq α] {xs : List α} (h : xs.Nodup) :
    xs.eraseDups = xs := by
  induction xs with
  | nil => rfl
  | cons x xs ih =>
      obtain ⟨hx, hxs⟩ := List.nodup_cons.mp h
      have hfilter : xs.filter (fun y => !y == x) = xs :=
        List.filter_eq_self.mpr fun y hy => by
          have : y ≠ x := fun e => hx (e ▸ hy)
          simpa using this
      rw [List.eraseDups_cons, hfilter, ih hxs]

namespace CodeUnit

open Directives

theorem includes_directives (u : CodeUnit) : u.directives.includes = u.includedPaths :=
  includes_collect (.root u.tree) fun _ h => by cases h

theorem find?_directives (us : List CodeUnit) (path : String) :
    (us.map directives).find? (fun d => path ∈ d.includes) =
      (us.find? fun u => path ∈ u.includedPaths).map directives := by
  rw [List.find?_map]
  congr 2
  funext u
  simp only [Function.comp, includes_directives]

/-- **Merged includes.**  The stack finds the paths of each unit in document order.  Merged, the
paths occur for the first time in the order in which they do so over all units, and each is listed
as often as the first unit with it lists it.  So each path is listed exactly once exactly if every
path is once in the first unit that includes it. -/
theorem merged_includes (us : List CodeUnit) :
    (∀ u : CodeUnit, gather u.source {} [u.tree] = u.directives ∧
      u.directives.includes = u.includedPaths) ∧
    (mergedIncludes us).eraseDups = (us.flatMap includedPaths).eraseDups ∧
    (∀ path, (mergedIncludes us).count path =
      ((us.find? fun u => path ∈ u.includedPaths).map fun u => u.includedPaths.count path).getD 0) ∧
    (mergedIncludes us = (us.flatMap includedPaths).eraseDups ↔
      ∀ path u, us.find? (fun u => path ∈ u.includedPaths) = some u →
        u.includedPaths.count path = 1) := by
  refine ⟨fun u => ⟨gather_root u.tree, includes_directives u⟩, ?_⟩
  have horder : (mergedIncludes us).eraseDups = (us.flatMap includedPaths).eraseDups := by
    rw [mergedIncludes, mergeAll, eraseDups_foldl_merge, List.flatMap_map]
    simp only [includes_directives, List.nil_append]
  have hcount : ∀ path, (mergedIncludes us).count path =
      ((us.find? fun u => path ∈ u.includedPaths).map
        fun u => u.includedPaths.count path).getD 0 := fun path => by
    rw [mergedIncludes, count_mergeAll, find?_directives, Option.map_map]
    simp only [Function.comp_def, includes_directives]
  refine ⟨horder, hcount, fun honce path u hu => ?_, fun honce => ?_⟩
  · have hnodup : (mergedIncludes us).Nodup := honce ▸ nodup_eraseDups _
    have hle := List.nodup_iff_count_le_one.mp hnodup path
    have hpos : 0 < u.includedPaths.count path :=
      List.count_pos_iff.mpr (by simpa using List.find?_some hu)
    rw [hcount, hu] at hle
    exact Nat.le_antisymm hle hpos
  · rw [← horder, eraseDups_of_nodup (List.nodup_iff_count_le_one.mpr fun path => ?_)]
    rw [hcount]
    cases hu : us.find? fun u => path ∈ u.includedPaths with
    | none => exact Nat.zero_le 1
    | some u => exact Nat.le_of_eq (honce path u hu)

/-- **One unit repeats a path**: `<a.h>` and `"a.h"` are the same path, and merging the directives
of the unit alone lists it twice. -/
theorem one_unit_repeats :
    let node (kind : String) (start stop : Nat) (field : Option String) (cs : List Node) : Node :=
      .mk ⟨kind, true, false, start, stop, field⟩ cs
    let token (kind : String) (start stop : Nat) : Node :=
      .mk ⟨kind, false, false, start, stop, none⟩ []
    let u : CodeUnit :=
      { source := .ofText "#include <a.h>\n#include \"a.h\"\n"
        tree := node "translation_unit" 0 30 none
          [node "preproc_include" 0 15 none
            [token "#include" 0 8, node "system_lib_string" 9 14 (some "path") []],
           node "preproc_include" 15 30 none
            [token "#include" 15 23, node "string_literal" 24 29 (some "path")
              [token "\"" 24 25, node "string_content" 25 28 none [], token "\"" 28 29]]] }
    mergedIncludes [u] = ["a.h", "a.h"] ∧ ([u].flatMap includedPaths).eraseDups = ["a.h"] := by
  decide +kernel

end CodeUnit

end ScopeMetrics
