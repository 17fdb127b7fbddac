import Mathlib.Tactic.SplitIfs
import ScopeMetrics.Proofs.Combining
import ScopeMetrics.Tally

/-!
# Tallies forget the order of events

Merging tallies is commutative and associative, and a tally of events loses nothing when the tally
of no event is merged into it.  The latter holds only of tallies whose largest values are at least
zero (`Tally.IsBased`): a nesting or an arity may be negative, but the search for the largest one
begins at zero.

* `Tally.observe_eq`: merging the tally of an event changes every counter in place.
* `Tally.foldl_observe`: observing events one by one is merging their tally.
* **`Tally.ofEvents_additive`**: the order of events does not show in their tally, and the tally of
  two lists one after the other is put together from the tallies of both.
-/

namespace ScopeMetrics

namespace SortedSet

variable {α : Type} [LT α] [LE α] [DecidableLT α] [DecidableEq α] [Std.IsLinearOrder α]
  [Std.LawfulOrderLT α]

theorem union_comm (a b : SortedSet α) : a.union b = b.union a :=
  ext_mem fun z => by rw [mem_union, mem_union, Or.comm]

theorem union_assoc (a b c : SortedSet α) : (a.union b).union c = a.union (b.union c) :=
  ext_mem fun z => by rw [mem_union, mem_union, mem_union, mem_union, or_assoc]

end SortedSet

namespace Tally

/-- Whether the largest values of a tally are at least those of no event. -/
structure IsBased (t : Tally) : Prop where
  maxNesting : 0 ≤ t.maxNesting
  arguments : 0 ≤ t.arguments.max

theorem IsBased.empty : IsBased {} := ⟨Int.le_refl 0, Int.le_refl 0⟩

theorem IsBased.observe {t : Tally} (h : t.IsBased) (e : Event) : (t.observe e).IsBased :=
  ⟨Int.le_trans h.maxNesting (Int.le_max_left _ _), Int.le_trans h.arguments (Int.le_max_left _ _)⟩

/-! ### One event -/

/-- A count, one more if a condition holds. -/
def countIf (b : Bool) (n : Int) : Int := if b then n + 1 else n

/-- The members of a class after an event. -/
def updateMembers (flag : Flag) (m : Members) (e : Event) : Members :=
  if e.opensClass then { m with classes := m.classes + 1 }
  else if e.visible.isSome && e.has flag then
    if e.visible = some true then { m with public_ := m.public_ + 1 }
    else { m with private_ := m.private_ + 1 }
  else m

/-- The tally after an event, each counter changed in place: of several flags that a counter looks
at the first one counts, and the largest values are running ones. -/
def update (t : Tally) (e : Event) : Tally where
  decisions := countIf (e.has .decision) t.decisions
  score :=
    if e.has .nesting then t.score + (1 + e.nesting)
    else if e.has .else_ then t.score + 1
    else countIf (e.has .logical && e.sequence) t.score
  maxNesting := if e.has .nesting then max t.maxNesting (e.nesting + 1) else t.maxNesting
  halstead :=
    if e.has .operator then { t.halstead with operators := t.halstead.operators.add e.text 1 }
    else if e.has .operand then { t.halstead with operands := t.halstead.operands.add e.text 1 }
    else t.halstead
  abc := ⟨countIf (e.has .assignment) t.abc.assignments, countIf (e.has .call) t.abc.branches,
    countIf (e.has .condition) t.abc.conditions⟩
  codeLines :=
    if e.has .comment then t.codeLines
    else if e.category.meets .code then t.codeLines.union (LineSet.range e.startLine e.endLine)
    else t.codeLines
  commentLines :=
    if e.has .comment then t.commentLines.union (LineSet.range e.startLine e.endLine)
    else t.commentLines
  lloc := countIf (e.has .statement) t.lloc
  methods :=
    if !e.opensCallable then t.methods
    else if e.has .closure then { t.methods with closures := t.methods.closures + 1 }
    else { t.methods with functions := t.methods.functions + 1 }
  arguments :=
    let n := e.arity.getD 0
    if !e.opensCallable then t.arguments
    else if e.has .closure then t.arguments.combine { closureArgs := n, closures := 1, max := n }
    else t.arguments.combine { functionArgs := n, functions := 1, max := n }
  exits := countIf (e.has .exit) t.exits
  publicMethods := updateMembers .function t.publicMethods e
  publicAttributes := updateMembers .attribute t.publicAttributes e

theorem add_one (b : Bool) (n : Int) : n + one b = countIf b n := by
  cases b
  · exact Int.add_zero n
  · rfl

theorem combine_membersOf (flag : Flag) (m : Members) (e : Event) :
    m.combine (membersOf flag e) = updateMembers flag m e := by
  unfold membersOf updateMembers
  rcases e.visible with _ | _ | _ <;> cases e.opensClass <;> cases e.has flag <;>
    simp [Members.combine]

theorem combine_halsteadOf (h : Halstead) (e : Event) :
    h.combine (halsteadOf e) =
      if e.has .operator then { h with operators := h.operators.add e.text 1 }
      else if e.has .operand then { h with operands := h.operands.add e.text 1 }
      else h := by
  unfold halsteadOf
  split_ifs <;> rfl

/-- Merging the tally of an event changes every counter in place. -/
theorem observe_eq {t : Tally} (h : t.IsBased) (e : Event) : t.observe e = t.update e := by
  have hnesting : max t.maxNesting 0 = t.maxNesting := Int.max_eq_left h.maxNesting
  have harguments : t.arguments.combine {} = t.arguments := by
    have : max t.arguments.max 0 = t.arguments.max := Int.max_eq_left h.arguments
    simp [Arguments.combine, this]
  rw [observe, merge, update, Tally.mk.injEq]
  refine ⟨add_one _ _, ?_, ?_, combine_halsteadOf _ _, ?_, ?_, ?_, add_one _ _, ?_, ?_, add_one _ _,
    combine_membersOf _ _ _, combine_membersOf _ _ _⟩
  · simp only [ofEvent, scoreOf]
    split_ifs
    · rfl
    · rfl
    · exact add_one _ _
  · simp only [ofEvent]
    split_ifs
    · omega
    · exact hnesting
  · exact congr (congr (congrArg Abc.mk (add_one _ _)) (add_one _ _)) (add_one _ _)
  · simp only [ofEvent]
    cases e.has .comment <;> cases e.category.meets .code <;> rfl
  · simp only [ofEvent]
    split_ifs <;> rfl
  · simp only [ofEvent, methodsOf]
    split_ifs <;> simp [Methods.combine]
  · simp only [ofEvent, argumentsOf]
    split_ifs
    · exact harguments
    · rfl
    · rfl

/-! ### Merging -/

theorem merge_comm (a b : Tally) : a.merge b = b.merge a := by
  rw [merge, merge, Int.add_comm a.decisions, Int.add_comm a.score, Int.max_comm a.maxNesting,
    Halstead.combine_comm a.halstead, Abc.combine_comm a.abc, SortedSet.union_comm a.codeLines,
    SortedSet.union_comm a.commentLines, Int.add_comm a.lloc, Methods.combine_comm a.methods,
    Arguments.combine_comm a.arguments, Int.add_comm a.exits,
    Members.combine_comm a.publicMethods, Members.combine_comm a.publicAttributes]

theorem merge_assoc (a b c : Tally) : (a.merge b).merge c = a.merge (b.merge c) := by
  simp only [merge, Int.add_assoc, Int.max_assoc, Halstead.combine_assoc, Abc.combine_assoc,
    SortedSet.union_assoc, Methods.combine_assoc, Arguments.combine_assoc, Members.combine_assoc]

/-- The tally of no event adds nothing to one whose largest values are at least zero. -/
theorem merge_empty {t : Tally} (h : t.IsBased) : t.merge {} = t := by
  have hnesting : max t.maxNesting 0 = t.maxNesting := Int.max_eq_left h.maxNesting
  have harguments : max t.arguments.max 0 = t.arguments.max := Int.max_eq_left h.arguments
  simp only [merge, hnesting, Int.add_zero, Abc.combine, Methods.combine, Arguments.combine,
    harguments, Members.combine]
  rfl

/-! ### Lists of events -/

/-- Observing events one by one is merging their tally. -/
theorem foldl_observe (es : List Event) : ∀ {t : Tally}, t.IsBased →
    es.foldl observe t = t.merge (ofEvents es) := by
  induction es with
  | nil => exact fun h => (merge_empty h).symm
  | cons e es ih =>
      intro t h
      have hfirst : t.merge (({} : Tally).observe e) = t.observe e := by
        rw [observe, ← merge_assoc, merge_empty h, observe]
      rw [ofEvents, List.foldl_cons, List.foldl_cons, ih (h.observe e),
        ih (IsBased.empty.observe e), ← merge_assoc, hfirst]

/-- Counters that are changed in place give the tally. -/
theorem foldl_update (es : List Event) : ∀ {t : Tally}, t.IsBased →
    es.foldl update t = es.foldl observe t := by
  induction es with
  | nil => exact fun _ => rfl
  | cons e es ih =>
      intro t h
      rw [List.foldl_cons, List.foldl_cons, ← observe_eq h, ih (h.observe e)]

theorem isBased_ofEvents (es : List Event) : (ofEvents es).IsBased :=
  List.foldlRecOn es observe .empty fun _ h e _ => h.observe e

theorem ofEvents_append (xs ys : List Event) :
    ofEvents (xs ++ ys) = (ofEvents xs).merge (ofEvents ys) := by
  rw [← foldl_observe ys (isBased_ofEvents xs), ofEvents, ofEvents, List.foldl_append]

/-- Two events may be observed in either order. -/
theorem observe_comm (t : Tally) (d e : Event) :
    (t.observe d).observe e = (t.observe e).observe d := by
  rw [observe, observe, observe, observe, merge_assoc, merge_comm (ofEvent d), merge_assoc]

theorem ofEvents_perm {xs ys : List Event} (h : xs.Perm ys) : ofEvents xs = ofEvents ys :=
  h.foldl_eq' (fun d _ e _ t => observe_comm t d e) _

/-- **Tallies are additive and forget the order of events.**  Whatever flags, texts, lines, nesting,
arity and visibility the events have: counters that are changed in place, event by event, end as the
tally, and events in another order have the same tally.  Over two lists one after the other,
decisions, scores, exits and statements are added, the deepest nesting is the deeper one, bags and
counts are combined, and the sets of lines are united. -/
theorem ofEvents_additive (xs ys : List Event) :
    xs.foldl update {} = ofEvents xs ∧
    (∀ zs, xs.Perm zs → ofEvents zs = ofEvents xs) ∧
    (ofEvents (xs ++ ys)).decisions = (ofEvents xs).decisions + (ofEvents ys).decisions ∧
    (ofEvents (xs ++ ys)).cognitive.sum =
      (ofEvents xs).cognitive.sum + (ofEvents ys).cognitive.sum ∧
    (ofEvents (xs ++ ys)).exitCounts.sum =
      (ofEvents xs).exitCounts.sum + (ofEvents ys).exitCounts.sum ∧
    (ofEvents (xs ++ ys)).lloc = (ofEvents xs).lloc + (ofEvents ys).lloc ∧
    (ofEvents (xs ++ ys)).cognitive.maxNesting =
      max (ofEvents xs).cognitive.maxNesting (ofEvents ys).cognitive.maxNesting ∧
    (ofEvents (xs ++ ys)).halstead = (ofEvents xs).halstead.combine (ofEvents ys).halstead ∧
    (ofEvents (xs ++ ys)).abc = (ofEvents xs).abc.combine (ofEvents ys).abc ∧
    (ofEvents (xs ++ ys)).methods = (ofEvents xs).methods.combine (ofEvents ys).methods ∧
    (ofEvents (xs ++ ys)).arguments = (ofEvents xs).arguments.combine (ofEvents ys).arguments ∧
    (ofEvents (xs ++ ys)).publicMethods =
      (ofEvents xs).publicMethods.combine (ofEvents ys).publicMethods ∧
    (ofEvents (xs ++ ys)).publicAttributes =
      (ofEvents xs).publicAttributes.combine (ofEvents ys).publicAttributes ∧
    (∀ n, n ∈ (ofEvents (xs ++ ys)).codeLines ↔
      n ∈ (ofEvents xs).codeLines ∨ n ∈ (ofEvents ys).codeLines) ∧
    (∀ n, n ∈ (ofEvents (xs ++ ys)).commentLines ↔
      n ∈ (ofEvents xs).commentLines ∨ n ∈ (ofEvents ys).commentLines) := by
  refine ⟨foldl_update xs .empty, fun zs h => (ofEvents_perm h).symm, ?_⟩
  rw [ofEvents_append]
  exact ⟨rfl, rfl, rfl, rfl, rfl, rfl, rfl, rfl, rfl, rfl, rfl, fun _ => SortedSet.mem_union,
    fun _ => SortedSet.mem_union⟩

/-- A closure with a negative number of parameters and an if of negative nesting, in either order:
both largest values stay zero, and a call in another list has its line in the union. -/
theorem ofEvents_additive_negative :
    let lambda : Event := { kind := "lambda", category := {.closure}, arity := some (-2) }
    let cond : Event := { kind := "if", category := {.nesting, .decision, .else_}, nesting := -5 }
    let call : Event :=
      { kind := "call", category := {.call, .operator}, text := "f", startLine := 3, endLine := 3 }
    ofEvents [cond, lambda] = ofEvents [lambda, cond] ∧
      (ofEvents ([lambda, cond] ++ [call])).cognitive.sum = -4 ∧
      (ofEvents ([lambda, cond] ++ [call])).cognitive.maxNesting = 0 ∧
      (ofEvents ([lambda, cond] ++ [call])).arguments =
        { closureArgs := -2, closures := 1, max := 0 } ∧
      3 ∈ (ofEvents ([lambda, cond] ++ [call])).codeLines := by
  intro lambda cond call
  obtain ⟨-, hperm, -, hsum, -, -, hmax, -, -, -, harguments, -, -, hcode, -⟩ :=
    ofEvents_additive [lambda, cond] [call]
  have hline : 3 ∈ (ofEvents [call]).codeLines.toList := by decide
  exact ⟨hperm _ (.swap _ _ _), hsum.trans (by decide), hmax.trans (by decide),
    harguments.trans (by decide), (hcode 3).mpr (.inr hline)⟩

end Tally

end ScopeMetrics
