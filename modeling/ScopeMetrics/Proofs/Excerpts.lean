import Mathlib.Data.List.Basic
import ScopeMetrics.Command.Table
import ScopeMetrics.Proofs.Rollup

/-!
# Excerpts of a tree of spaces

A limit on the depth shows the upper part of a tree of spaces.  There are three ways to go through
the tree: a stack that yields every space with its depth (`Space.yields`), the recursion that writes
nested data and stops at the limit, and the table, which goes through all spaces and passes over
those below the limit.

* `Space.yields_eq`: the stack yields the spaces in preorder, whatever is on it.
* `Space.flat_toValueAt`: read in preorder, the nested data has the spaces down to the limit, and
  fails where the metrics of the first of them that has none do.
* `Command.shownSpaces_eq`: the table has the same spaces, unless the limit is below zero.
* `Bundle.figures_toValue`: the data of metrics holds their counts, family by family; and
  `Command.lookup_spaceRow`: a row of the table holds some of them.
* **`Space.exports_agree`**: all three agree.
-/

namespace ScopeMetrics

open Arithmetic (Fault)

namespace Value

mutual

/-- Nested spaces in preorder, each with its depth and without those inside it. -/
def flat (depth : Nat) : Value → List (Nat × Entries)
  | .map es => (depth, Entries.erase es "spaces") :: flatEntries (depth + 1) es
  | _ => []

/-- The spaces that entries hold inside. -/
def flatEntries (depth : Nat) : Entries → List (Nat × Entries)
  | [] => []
  | (name, v) :: es => (if name = "spaces" then flatItems depth v else []) ++ flatEntries depth es

def flatItems (depth : Nat) : Value → List (Nat × Entries)
  | .list vs => flatAll depth vs
  | _ => []

def flatAll (depth : Nat) : List Value → List (Nat × Entries)
  | [] => []
  | v :: vs => v.flat depth ++ flatAll depth vs

end

end Value

/-! ### Steps that can fail -/

section

variable {α β γ ε : Type}

/-- What a step that did not fail went through. -/
theorem exists_of_bind_eq_ok {x : Except ε α} {f : α → Except ε β} {b : β}
    (h : x >>= f = .ok b) : ∃ a, x = .ok a ∧ f a = .ok b := by
  cases x with
  | error e => cases h
  | ok a => exact ⟨a, rfl, h⟩

theorem exists_eq_ok_of_isSome {x : Except ε α} (h : x.toOption.isSome = true) :
    ∃ a, x = .ok a := by
  cases x with
  | error e => cases h
  | ok a => exact ⟨a, rfl⟩

/-- A list is gone through to its end exactly if no step fails. -/
theorem exists_mapM_eq_ok {f : α → Except ε β} (xs : List α) :
    (∃ ys, xs.mapM f = .ok ys) ↔ ∀ x ∈ xs, ∃ y, f x = .ok y := by
  induction xs with
  | nil => exact ⟨fun _ _ h => (List.not_mem_nil h).elim, fun _ => ⟨[], rfl⟩⟩
  | cons x xs ih =>
      rw [List.forall_mem_cons, ← ih, List.mapM_cons]
      cases f x with
      | error e => simp [bind, Except.bind]
      | ok y => cases xs.mapM f <;> simp [bind, Except.bind, pure, Except.pure]

/-- What is read of each result is what is read of the step's input. -/
theorem map_of_mapM_eq_ok {f : α → Except ε β} {g : β → γ} {h : α → γ}
    (hf : ∀ x y, f x = .ok y → g y = h x) {xs : List α} :
    ∀ {ys : List β}, xs.mapM f = .ok ys → ys.map g = xs.map h := by
  induction xs with
  | nil =>
      intro ys hys
      cases hys
      rfl
  | cons x xs ih =>
      intro ys hys
      rw [List.mapM_cons] at hys
      obtain ⟨y, hy, hys⟩ := exists_of_bind_eq_ok hys
      obtain ⟨zs, hzs, hys⟩ := exists_of_bind_eq_ok hys
      cases hys
      rw [List.map_cons, List.map_cons, hf x y hy, ih hzs]

end

namespace Space

/-! ### The stack -/

/-- Yields the spaces on a stack and all spaces inside them.  The topmost space is taken and those
right inside it are put in its place, the first one topmost. -/
def yields : List (Nat × Space) → List (Nat × Space)
  | [] => []
  | (depth, s) :: stack => (depth, s) :: yields (s.inside.map (Prod.mk (depth + 1)) ++ stack)
termination_by stack => (stack.flatMap fun e => e.2.all).length
decreasing_by
  rw [List.flatMap_append, List.flatMap_cons, List.flatMap_map, all_eq, descendants]
  simp

theorem withDepthAll_eq (depth : Nat) (ss : List Space) :
    withDepthAll depth ss = ss.flatMap (withDepthFrom depth) := by
  induction ss with
  | nil => rw [withDepthAll, List.flatMap_nil]
  | cons s ss ih => rw [withDepthAll, ih, List.flatMap_cons]

theorem withDepthFrom_eq (depth : Nat) (s : Space) :
    s.withDepthFrom depth = (depth, s) :: s.inside.flatMap (withDepthFrom (depth + 1)) := by
  cases s
  rw [withDepthFrom, withDepthAll_eq]
  rfl

/-- **The stack yields preorder.** -/
theorem yields_eq (stack : List (Nat × Space)) :
    yields stack = stack.flatMap fun e => e.2.withDepthFrom e.1 := by
  fun_induction yields stack with
  | case1 => rfl
  | case2 depth s stack ih =>
      rw [ih, List.flatMap_append, List.flatMap_map, List.flatMap_cons, withDepthFrom_eq,
        List.cons_append]

/-! ### The limit -/

/-- Whether a space at some depth is shown.  The root is, whatever the limit is. -/
def isShown (maxDepth : Option Int) (e : Nat × Space) : Bool :=
  maxDepth.all fun d => (e.1 : Int) ≤ max d 0

/-- The spaces that are shown, in preorder with their depths. -/
def excerpt (s : Space) (maxDepth : Option Int) : List (Nat × Space) :=
  s.withDepth.filter (isShown maxDepth)

/-- What is shown of a space: its kind, name and lines, and the metrics of all of it. -/
def summary (s : Space) : Except Fault Entries := do
  let metrics ← s.metrics.toValue
  return [("kind", .text s.scope.kind.name), ("name", Value.ofText? s.scope.name),
    ("start_line", .int s.scope.startLine), ("end_line", .int s.scope.endLine),
    ("metrics", metrics)]

/-- What is shown of a space at some depth. -/
def row (e : Nat × Space) : Except Fault (Nat × Entries) := do
  return (e.1, ← e.2.summary)

theorem le_of_mem_withDepthFrom (s : Space) :
    ∀ depth, ∀ e ∈ s.withDepthFrom depth, depth ≤ e.1 := by
  induction s with
  | mk scope own metrics inside ih =>
      intro depth e he
      rw [withDepthFrom_eq] at he
      rcases List.mem_cons.mp he with rfl | he
      · exact Nat.le_refl _
      · obtain ⟨t, ht, he⟩ := List.mem_flatMap.mp he
        exact Nat.le_of_succ_le (ih t ht (depth + 1) e he)

variable {maxDepth : Option Int} {depth : Nat}

/-- Where the inside of a shown space is shown, the spaces right inside are. -/
theorem isShown_succ {s : Space} (h : showsInside maxDepth depth = true) :
    isShown maxDepth (depth + 1, s) = true := by
  cases maxDepth with
  | none => rfl
  | some d =>
      have hlt : (depth : Int) < d := of_decide_eq_true h
      simp only [isShown, Option.all_some, decide_eq_true_eq]
      omega

/-- Where the inside of a space is not shown, nothing below it is. -/
theorem filter_below (h : showsInside maxDepth depth = false) (ss : List Space) :
    (ss.flatMap (withDepthFrom (depth + 1))).filter (isShown maxDepth) = [] := by
  cases maxDepth with
  | none => cases h
  | some d =>
      have hle : ¬ (depth : Int) < d := of_decide_eq_false h
      refine List.filter_eq_nil_iff.mpr fun e he hshown => ?_
      obtain ⟨t, -, he⟩ := List.mem_flatMap.mp he
      have hdeep := le_of_mem_withDepthFrom t _ e he
      simp only [isShown, Option.all_some, decide_eq_true_eq] at hshown
      omega

/-! ### The recursion -/

/-- The data of the spaces inside a space at some depth, as far as it is shown. -/
def valuesInside (maxDepth : Option Int) (depth : Nat) (ss : List Space) :
    Except Fault (List Value) :=
  if showsInside maxDepth depth then toValueAll maxDepth (depth + 1) ss else .ok []

/-- The data of a space is what is shown of it, and then the spaces inside. -/
theorem toValueAt_eq (s : Space) : s.toValueAt maxDepth depth = do
    let head ← s.summary
    let inside ← valuesInside maxDepth depth s.inside
    return .map (head ++ [("spaces", .list inside)]) := by
  obtain ⟨scope, own, metrics, inside⟩ := s
  rw [toValueAt, summary, valuesInside]
  cases hmetrics : metrics.toValue with
  | error fault => simp only [Space.metrics, hmetrics]; rfl
  | ok m =>
      simp only [Space.metrics, hmetrics]
      cases showsInside maxDepth depth <;> rfl

/-- Nothing else that is shown of a space is called as the spaces inside it are. -/
theorem ne_spaces_of_summary {s : Space} {head : Entries} (h : s.summary = .ok head) :
    ∀ e ∈ head, e.1 ≠ "spaces" := by
  rw [summary] at h
  cases hmetrics : s.metrics.toValue with
  | error fault =>
      rw [hmetrics] at h
      cases h
  | ok m =>
      rw [hmetrics] at h
      cases h
      simp

theorem flatEntries_concat {vs : List Value} {head : Entries} (h : ∀ e ∈ head, e.1 ≠ "spaces") :
    Value.flatEntries depth (head ++ [("spaces", .list vs)]) = Value.flatAll depth vs := by
  induction head with
  | nil => simp [Value.flatEntries, Value.flatItems]
  | cons e head ih =>
      obtain ⟨he, hhead⟩ := List.forall_mem_cons.mp h
      simp [Value.flatEntries, he, ih hhead]

/-- The spaces inside are told from the rest by their name. -/
theorem flat_map {vs : List Value} {head : Entries} (h : ∀ e ∈ head, e.1 ≠ "spaces") :
    Value.flat depth (.map (head ++ [("spaces", .list vs)])) =
      (depth, head) :: Value.flatAll (depth + 1) vs := by
  have herase : Entries.erase (head ++ [("spaces", .list vs)]) "spaces" = head := by
    rw [Entries.erase, List.filter_append, List.filter_eq_self.mpr fun e he => by simp [h e he]]
    simp
  rw [Value.flat, herase, flatEntries_concat h]

/-- Data of spaces next to each other is read one after the other. -/
theorem flatAll_toValueAll {ss : List Space}
    (h : ∀ s ∈ ss, (s.toValueAt maxDepth depth).map (Value.flat depth) =
      ((s.withDepthFrom depth).filter (isShown maxDepth)).mapM row) :
    (toValueAll maxDepth depth ss).map (Value.flatAll depth) =
      ((ss.flatMap (withDepthFrom depth)).filter (isShown maxDepth)).mapM row := by
  induction ss with
  | nil => rfl
  | cons s ss ih =>
      obtain ⟨hs, hss⟩ := List.forall_mem_cons.mp h
      rw [List.flatMap_cons, List.filter_append, List.mapM_append, ← hs, ← ih hss, toValueAll]
      cases s.toValueAt maxDepth depth with
      | error fault => rfl
      | ok v => cases toValueAll maxDepth depth ss <;> rfl

/-- **The nested data shows the spaces down to the limit.** -/
theorem flat_toValueAt (s : Space) : ∀ depth : Nat, isShown maxDepth (depth, s) = true →
    (s.toValueAt maxDepth depth).map (Value.flat depth) =
      ((s.withDepthFrom depth).filter (isShown maxDepth)).mapM row := by
  induction s with
  | mk scope own metrics inside ih =>
      intro depth hshown
      -- the inside is written where it is shown, and elsewhere nothing of it is shown
      have hinside : (valuesInside maxDepth depth inside).map (Value.flatAll (depth + 1)) =
          ((inside.flatMap (withDepthFrom (depth + 1))).filter (isShown maxDepth)).mapM row := by
        rw [valuesInside]
        cases hbelow : showsInside maxDepth depth with
        | true => exact flatAll_toValueAll fun s hs => ih s hs (depth + 1) (isShown_succ hbelow)
        | false =>
            rw [filter_below hbelow]
            rfl
      rw [withDepthFrom_eq, List.filter_cons, if_pos hshown, List.mapM_cons, toValueAt_eq,
        Space.inside, ← hinside, row]
      cases hhead : (mk scope own metrics inside).summary with
      | error fault => rfl
      | ok head =>
          cases valuesInside maxDepth depth inside with
          | error fault => rfl
          | ok vs => exact congrArg Except.ok (flat_map (ne_spaces_of_summary hhead))

theorem flat_toValue (s : Space) (maxDepth : Option Int) :
    (s.toValue maxDepth).map (Value.flat 0) = (s.excerpt maxDepth).mapM row := by
  have hroot : isShown maxDepth (0, s) = true := by
    cases maxDepth with
    | none => rfl
    | some d => exact decide_eq_true (Int.le_max_right d 0)
  exact flat_toValueAt s 0 hroot

end Space

/-! ### The table -/

namespace Command

/-- The rows of a printed table. -/
def Printed.rows : Printed → List (List String)
  | .text _ => []
  | .table _ _ rows => rows

theorem shownSpaces_eq {s : Space} {maxDepth : Option Int} (h : ∀ d ∈ maxDepth, 0 ≤ d) :
    shownSpaces s maxDepth = s.excerpt maxDepth := by
  refine List.filter_congr fun e _ => ?_
  cases maxDepth with
  | none => rfl
  | some d =>
      have hd : max d 0 = d := Int.max_eq_left (h d rfl)
      rw [Space.isShown, Option.all_some, hd]
      rfl

/-- The table of an analysis has a row for every space that it shows. -/
theorem rows_printAnalysis {a : Analysis} {s : Space} (h : a.root = some s)
    (maxDepth : Option Int) :
    (printAnalysis a maxDepth).map (·.flatMap Printed.rows) =
      (shownSpaces s maxDepth).mapM fun e => spaceRow e.1 e.2 := by
  rw [printAnalysis, h]
  dsimp only
  cases (shownSpaces s maxDepth).mapM fun e => spaceRow e.1 e.2 with
  | error fault => rfl
  | ok rows =>
      by_cases herrors : a.errorCount = 0 <;>
        simp [herrors, Except.map, pure, Except.pure, bind, Except.bind, Printed.rows]

end Command

/-! ### What the metrics show -/

/-- The counts among entries, under their names. -/
def Entries.figures (es : Entries) : List (String × Int) :=
  es.filterMap fun e => match e.2 with
    | .int n => some (e.1, n)
    | _ => none

/-- The counts in the data of metrics, family by family. -/
def Value.figures : Value → List (String × List (String × Int))
  | .map families => families.map fun e => (e.1, match e.2 with
    | .map es => Entries.figures es
    | _ => [])
  | _ => []

namespace Bundle

/-- The counts of a bundle that are shown, family by family.  The other measures are derived from
them and are doubles. -/
def figures (b : Bundle) : List (String × List (String × Int)) := [
  ("cyclomatic",
    [("sum", b.cyclomatic.sum), ("min", b.cyclomatic.min), ("max", b.cyclomatic.max)]),
  ("cognitive", [("sum", b.cognitive.sum), ("min", b.cognitive.min), ("max", b.cognitive.max),
    ("max_nesting", b.cognitive.maxNesting)]),
  ("halstead", [("n1", b.halstead.operators.distinct), ("n2", b.halstead.operands.distinct),
    ("N1", b.halstead.operators.total), ("N2", b.halstead.operands.total),
    ("length", b.halstead.length), ("vocabulary", b.halstead.vocabulary)]),
  ("abc", [("assignments", b.abc.assignments), ("branches", b.abc.branches),
    ("conditions", b.abc.conditions)]),
  ("loc", [("sloc", b.loc.sloc), ("ploc", b.loc.ploc), ("lloc", b.loc.lloc), ("cloc", b.loc.cloc),
    ("blank", b.loc.blank)]),
  ("nom", [("functions", b.methods.functions), ("closures", b.methods.closures),
    ("total", b.methods.functions + b.methods.closures)]),
  ("nargs", [("function_args", b.arguments.functionArgs),
    ("closure_args", b.arguments.closureArgs), ("total", b.arguments.total),
    ("max", b.arguments.max)]),
  ("nexits", [("sum", b.exits.sum), ("max", b.exits.max)]),
  ("npm", members b.publicMethods),
  ("npa", members b.publicAttributes),
  ("wmc", [("sum", b.weighted.sum), ("classes", b.weighted.classes)]),
  ("mi", [])]
where
  members (a : Members) : List (String × Int) :=
    [("public", a.public_), ("private", a.private_), ("total", a.total), ("classes", a.classes)]

/-- The shown count of a family under a name. -/
def figure? (b : Bundle) (family name : String) : Option Int :=
  (b.figures.lookup family).bind (List.lookup name)

/-- **The data of metrics holds the counts.** -/
theorem figures_toValue {b : Bundle} {v : Value} (h : b.toValue = .ok v) :
    v.figures = b.figures := by
  -- the steps are those of the families one after the other, and each gives a double or the index
  simp only [toValue, Cyclomatic.entries, Cognitive.entries, Halstead.entries, Abc.entries,
    Arguments.entries, Exits.entries, Members.entries, Weighted.entries, bind_assoc, pure_bind] at h
  iterate 14 obtain ⟨_, -, h⟩ := exists_of_bind_eq_ok h
  cases h
  rfl

end Bundle

namespace Command

/-- The headings of the columns that hold counts, each with the family and the name of the count. -/
def countColumns : List (String × String × String) :=
  [("CC", "cyclomatic", "sum"), ("Cog", "cognitive", "sum"), ("SLOC", "loc", "sloc"),
    ("Args", "nargs", "total"), ("Exits", "nexits", "sum")]

/-- **The table holds the same counts as the data of metrics.** -/
theorem lookup_spaceRow {depth : Nat} {s : Space} {row : List String}
    (h : spaceRow depth s = .ok row) : ∀ c ∈ countColumns,
      (spaceHeader.zip row).lookup c.1 = (s.metrics.figure? c.2.1 c.2.2).map toString := by
  obtain ⟨volume, -, h⟩ := exists_of_bind_eq_ok h
  obtain ⟨index, -, h⟩ := exists_of_bind_eq_ok h
  cases h
  simp only [countColumns, List.forall_mem_cons]
  exact ⟨rfl, rfl, rfl, rfl, rfl, fun _ hc => (List.not_mem_nil hc).elim⟩

end Command

/-! ### All three -/

namespace Space

theorem exists_row_eq_ok (e : Nat × Space) :
    (∃ r, row e = .ok r) ↔ ∃ m, e.2.metrics.toValue = .ok m := by
  rw [row, summary]
  cases e.2.metrics.toValue <;> simp [bind, Except.bind, pure, Except.pure]

/-- The figures of a shown space, with its depth. -/
def shownFigures (e : Nat × Entries) : Nat × Option (List (String × List (String × Int))) :=
  (e.1, (Entries.get? e.2 "metrics").map Value.figures)

theorem shownFigures_row {e : Nat × Space} {r : Nat × Entries} (h : row e = .ok r) :
    shownFigures r = (e.1, some e.2.metrics.figures) := by
  obtain ⟨head, hhead, h⟩ := exists_of_bind_eq_ok h
  obtain ⟨m, hm, hhead⟩ := exists_of_bind_eq_ok hhead
  cases h
  cases hhead
  rw [← Bundle.figures_toValue hm]
  rfl

/-- **The exports of a tree agree.**  The stack yields the spaces in preorder with their depths.
The nested data, read in preorder, has those of them that are not deeper than the limit, and the
root in any case: each with its kind, name and lines and with the metrics of all that is inside it,
shown or not.  There is such data exactly if the metrics of the shown spaces have values, and then
it holds the counts of each of them.  If the limit is not below zero, the rows of the table are
those of the same spaces; and the counts in a row are those of the data. -/
theorem exports_agree (s : Space) (maxDepth : Option Int) :
    yields [(0, s)] = s.withDepth ∧
    (s.toValue maxDepth).map (Value.flat 0) = (s.excerpt maxDepth).mapM row ∧
    ((∃ v, s.toValue maxDepth = .ok v) ↔
      ∀ e ∈ s.excerpt maxDepth, ∃ m, e.2.metrics.toValue = .ok m) ∧
    (∀ v, s.toValue maxDepth = .ok v →
      (v.flat 0).map shownFigures =
        (s.excerpt maxDepth).map fun e => (e.1, some e.2.metrics.figures)) ∧
    ((∀ d ∈ maxDepth, 0 ≤ d) → ∀ a : Analysis, a.root = some s →
      (Command.printAnalysis a maxDepth).map (·.flatMap Command.Printed.rows) =
        (s.excerpt maxDepth).mapM fun e => Command.spaceRow e.1 e.2) ∧
    ∀ e ∈ s.excerpt maxDepth, ∀ cells, Command.spaceRow e.1 e.2 = .ok cells →
      ∀ c ∈ Command.countColumns, (Command.spaceHeader.zip cells).lookup c.1 =
        (e.2.metrics.figure? c.2.1 c.2.2).map toString := by
  refine ⟨?_, flat_toValue s maxDepth, ?_, fun v hv => ?_, fun hlimit a ha => ?_,
    fun e _ cells hcells => Command.lookup_spaceRow hcells⟩
  · rw [yields_eq, List.flatMap_singleton, withDepth]
  · have hflat := flat_toValue s maxDepth
    simp only [← exists_row_eq_ok, ← exists_mapM_eq_ok, ← hflat]
    cases s.toValue maxDepth <;> simp [Except.map]
  · have hflat := flat_toValue s maxDepth
    rw [hv] at hflat
    exact map_of_mapM_eq_ok (fun e r hr => shownFigures_row hr) hflat.symm
  · rw [Command.rows_printAnalysis ha, Command.shownSpaces_eq hlimit]

/-- A method in a class in a unit: one level down, the class is shown and the method is not, and
below zero only the unit is; each with the complexity of all that is inside it. -/
theorem exports_agree_one_level :
    let space (kind : SpaceKind) (name : String) (sum sloc : Int) (inside : List Space) : Space :=
      .mk { kind, name := some name, startLine := 1, endLine := sloc } {}
        { cyclomatic := { sum, max := 3 }, loc := { sloc, ploc := sloc } } inside
    let class_ := space .class_ "Box" 4 6 [space .function "put" 3 5 []]
    let unit := space .unit "box.py" 5 7 [class_]
    let a : Analysis := { language := .python, root := some unit }
    ((0 : Int) ≤ 1 ∧ a.root = some unit ∧
      (Command.printAnalysis a (some 1)).map (·.flatMap Command.Printed.rows) =
        [(0, unit), (1, class_)].mapM fun e => Command.spaceRow e.1 e.2) ∧
    (∃ v, unit.toValue (some 1) = .ok v ∧ (v.flat 0).map shownFigures =
      [(0, some unit.metrics.figures), (1, some class_.metrics.figures)]) ∧
    (∃ v, unit.toValue (some (-1)) = .ok v ∧
      (v.flat 0).map shownFigures = [(0, some unit.metrics.figures)]) ∧
    unit.metrics.figure? "cyclomatic" "sum" = some 5 ∧
    class_.metrics.figure? "loc" "sloc" = some 6 ∧
    ∃ cells, Command.spaceRow 1 class_ = .ok cells ∧
      (Command.spaceHeader.zip cells).lookup "CC" = some "4" := by
  intro space class_ unit a
  obtain ⟨-, -, hexists, hfigures, htable, hcells⟩ := exports_agree unit (some 1)
  obtain ⟨-, -, hexists', hfigures', -⟩ := exports_agree unit (some (-1))
  have hunit : ∃ m, unit.metrics.toValue = .ok m := exists_eq_ok_of_isSome (by decide +kernel)
  have hclass : ∃ m, class_.metrics.toValue = .ok m := exists_eq_ok_of_isSome (by decide +kernel)
  obtain ⟨v, hv⟩ := hexists.mpr
    (List.forall_mem_cons.mpr ⟨hunit, List.forall_mem_singleton.mpr hclass⟩)
  obtain ⟨w, hw⟩ := hexists'.mpr (List.forall_mem_singleton.mpr hunit)
  obtain ⟨cells, hrow⟩ : ∃ cells, Command.spaceRow 1 class_ = .ok cells :=
    exists_eq_ok_of_isSome (by decide +kernel)
  exact ⟨⟨by decide, rfl, htable (by simp) a rfl⟩, ⟨v, hv, hfigures v hv⟩, ⟨w, hw, hfigures' w hw⟩,
    rfl, rfl, cells, hrow, hcells (1, class_) (.tail _ (.head _)) cells hrow _ (.head _)⟩

end Space

end ScopeMetrics
