import ScopeMetrics.Proofs.Likeness
import ScopeMetrics.Proofs.Rollup
import ScopeMetrics.Proofs.Routing

/-!
# A scope sees nothing outside

The frame that a scope opener starts, with everything inside it, depends on the subtree of the
opener alone.  Below the opener the walk begins with fresh surroundings, and no rule that looks
around reaches past it: a rule asks for the parent, for the neighbours, or for the grandparent if
the parent only wraps an `else`, and what wraps an `else` opens no scope.

* `frames_walk`: the frames of a walk are those of its reached scope openers, in preorder
  (`frameOf`).
* **`frameOf_determined`**: scope openers with the same subtree start the same frame, in whichever
  trees and wherever in them, unless they are part of an operand.
-/

namespace ScopeMetrics.Reading

/-! ### The frame of a scope opener -/

/-- The frame that a scope opener of a tree starts, with the frames inside it. -/
def frameOf (r : Reading) (root : Node) (p : Place) : Frame :=
  let c := r.categoryAt p
  let inner := r.visitEach (opened (r.surroundingsAt root p) p.node c) (r.accessOf p) p.children
  .mk { scope := r.scopeOf p.node c
        access := inner.access
        events := r.openingEvent p.node c :: inner.events } inner.frames

variable {r : Reading} {root : Node} {p q : Place} {lang : Language}

theorem frames_visitEach {s : Surroundings} :
    ∀ (ps : List Place) (access : Option Bool), (∀ p ∈ ps, ∀ access,
        (r.visit p.above s access p.node).frames.flatMap Frame.frames =
          (p.subtree.filter r.opensFrame).map (r.frameOf root)) →
      (r.visitEach s access ps).frames.flatMap Frame.frames =
        ((ps.flatMap Place.subtree).filter r.opensFrame).map (r.frameOf root)
  | [], _, _ => rfl
  | p :: ps, access, h => by
      rw [visitEach, List.flatMap_cons, List.filter_append, List.map_append,
        ← h p List.mem_cons_self access,
        ← frames_visitEach ps _ fun q hq => h q (List.mem_cons_of_mem _ hq)]
      exact List.flatMap_append

/-- A visit opens the frames of the scope openers below it. -/
theorem frames_visit (hr : r.pack = lang.pack) (root : Node) :
    ∀ p : Place, r.isReached p = true → ∀ access,
      (r.visit p.above (r.surroundingsAt root p) access p.node).frames.flatMap Frame.frames =
        (p.subtree.filter r.opensFrame).map (r.frameOf root) := by
  intro p
  induction p using Place.induct with
  | h p ih =>
      intro hp access
      have below : r.isEntered p = true → ∀ q ∈ p.children, ∀ access,
          (r.visit q.above (r.surroundingsUnder root (p :: p.ancestors)) access
            q.node).frames.flatMap Frame.frames =
              (q.subtree.filter r.opensFrame).map (r.frameOf root) := fun hi q hq access => by
        have hq' : r.isReached q = true := by rw [isReached_of_mem_children hq, hi, hp]; rfl
        rw [← surroundingsAt_of_mem_children hq]
        exact ih q hq hq' access
      rcases r.place_cases p with he | hc | ho | ⟨hi, ho⟩
      · rw [filter_opensFrame_of_not_entered (not_isEntered_of_isError he)
          (opensScope_of_isError he), visit_error he]
        rfl
      · rw [filter_opensFrame_of_not_entered (not_isEntered_of_comment hc)
          (opensScope_of_comment hc), visit_comment hc]
        rfl
      · have hf : r.opensFrame p = true := by rw [opensFrame, hp, ho]; rfl
        have hbelow := below (isEntered_of_opensScope ho)
        rw [surroundingsUnder_of_opener ho (not_isComposite_of_opensScope hr ho)] at hbelow
        rw [visit_opener ho, Place.subtree_eq, List.filter_cons_of_pos hf, List.map_cons,
          Place.descendants, ← frames_visitEach _ (r.accessOf p) hbelow, List.flatMap_singleton,
          Frame.frames, Frame.framesAll_eq]
        rfl
      · have hf : ¬ r.opensFrame p = true := by simp [opensFrame, ho]
        have hbelow := below hi
        rw [surroundingsUnder_of_plain ho] at hbelow
        rw [visit_plain hi ho, Place.subtree_eq, List.filter_cons_of_neg hf]
        exact frames_visitEach _ _ hbelow

/-- The frames of a walk are that of the unit and those of the reached scope openers. -/
theorem frames_walk (hr : r.pack = lang.pack) (name : Option String) (root : Node) :
    (r.walk name root).draft.unit.frames =
      (r.walk name root).draft.unit :: (root.places.filter r.opensFrame).map (r.frameOf root) := by
  have hframes := frames_visit hr root (.root root) rfl none
  rw [walk, Frame.frames, Frame.framesAll_eq]
  exact congrArg _ hframes

/-! ### Openers with the same subtree -/

/-- No rule that looks around applies to a scope opener: it has no other flag. -/
theorem standsAlike_of_opener (hr : r.pack = lang.pack) (ho : r.opensScope p = true) :
    r.StandsAlike p q := by
  have hbase := meets_scope_flags ho
  rw [Reading.flags, hr] at hbase
  obtain ⟨f, hs, hf⟩ := Language.flags_of_scope hbase
  have hother : ∀ g, Category.scope.has g = false → ¬ (r.flags p.node).has g = true := by
    intro g hg h
    rw [Reading.flags, hr, hf, Category.has_singleton, decide_eq_true_iff] at h
    rw [h, hg] at hs
    cases hs
  exact ⟨fun h => absurd h (hother _ rfl), fun h => absurd h (hother _ rfl),
    fun h => absurd h (hother _ rfl), fun h => absurd h (hother _ rfl)⟩

theorem not_elseContainer_of_opener (hr : r.pack = lang.pack) (ho : r.opensScope p = true) :
    ¬ r.pack.elseContainers.contains p.node.label.kind = true := by
  intro h
  rw [hr] at h
  have hbase := meets_scope_flags ho
  rw [Reading.flags, hr, Language.not_scope_of_elseContainer h] at hbase
  cases hbase

/-- Scope openers with the same subtree start the same frame. -/
theorem frameOf_congr {root' : Node} (hr : r.pack = lang.pack) (hpo : r.opensScope p = true)
    (hpin : r.isInOperand p.ancestors = false) (hqin : r.isInOperand q.ancestors = false)
    (hl : p.node.label.bare = q.node.label.bare) (hc : p.node.children = q.node.children) :
    r.frameOf root p = r.frameOf root' q := by
  have hn : r.ReadsAlike p.node q.node := readsAlike_of_children hl hc
  have hcat : r.categoryAt p = r.categoryAt q := by
    rw [categoryAt, categoryAt, hpin, hqin, classify_congr hr hn (standsAlike_of_opener hr hpo)]
  have hs : (opened (r.surroundingsAt root p) p.node (r.categoryAt q)).Alike
      (opened (r.surroundingsAt root' q) q.node (r.categoryAt q)) :=
    ⟨rfl, hn.kind, rfl, hpin.trans hqin.symm⟩
  -- an `else` below could look past a wrapping parent, but no scope opener is one
  have hbelow : Aligned (fun p q => p.node = q.node ∧ r.SeesAlike p.above q.above)
      (r.IsSilent fun _ => true) p.children q.children := by
    rw [Place.children, Place.children, ← hc]
    exact aligned_children hl (fun h => absurd h (not_elseContainer_of_opener hr hpo)) []
  have haccess : r.accessOf p = r.accessOf q := by
    rw [accessOf, accessOf, hcat, startAccess_congr hn]
  have hinner := alike_visitEach hbelow
    (fun c _ d hcd => (simulation_seesAlike r fun _ => true).visit hr c d hcd hs) (r.accessOf q)
  obtain ⟨hevents, hframes⟩ := hinner.of_forall fun _ => rfl
  rw [frameOf, frameOf]
  simp only [hcat, haccess, scopeOf_congr hn, openingEvent_congr hn, hinner.access, hevents,
    hframes]

/-- **A scope sees nothing outside.**  For the pack of every language, every source and every set
of macros: the frames of a walk are, after that of the unit, those that the reached scope openers
start, in preorder; and scope openers that are not part of an operand and whose subtrees are the
same start the same frame, in whichever trees they stand and however deep in them. -/
theorem frameOf_determined (lang : Language) (source : Source) (macros : SortedSet String) :
    let r : Reading := { pack := lang.pack, source, macros }
    (∀ (name : Option String) (root : Node), (r.walk name root).draft.unit.frames.tail =
      (root.places.filter r.opensFrame).map (r.frameOf root)) ∧
    ∀ root root' : Node, ∀ p ∈ root.places.filter r.opensFrame,
      ∀ q ∈ root'.places.filter r.opensFrame,
        r.isInOperand p.ancestors = false → r.isInOperand q.ancestors = false →
        p.node.label.bare = q.node.label.bare → p.node.children = q.node.children →
        r.frameOf root p = r.frameOf root' q := by
  intro r
  refine ⟨fun name root => by rw [frames_walk rfl name root, List.tail_cons],
    fun root root' p hp q _ hpin hqin hl hc => ?_⟩
  have hpo := (List.mem_filter.mp hp).2
  rw [opensFrame, Bool.and_eq_true] at hpo
  exact frameOf_congr rfl hpo.2 hpin hqin hl hc

/-- A function with a loop in it, at the top of a unit and inside the alternative of an if: in both
trees the loop scores one. -/
theorem frameOf_determined_in_if :
    let leaf (kind : String) (start stop : Nat) (field : Option String) : Node :=
      .mk ⟨kind, true, false, start, stop, field⟩ []
    let function (field : Option String) : Node :=
      .mk ⟨"function_definition", true, false, 2, 8, field⟩
        [leaf "identifier" 2 3 (some "name"), .mk ⟨"for_statement", true, false, 4, 8, none⟩
          [leaf "identifier" 4 5 none, leaf "identifier" 6 8 none]]
    let r : Reading := { pack := Language.python.pack, source := ⟨List.replicate 9 120⟩ }
    let root : Node := .mk ⟨"module", true, false, 0, 9, none⟩ [function none]
    let other : Node := .mk ⟨"module", true, false, 0, 9, none⟩
      [.mk ⟨"if_statement", true, false, 0, 9, none⟩
        [leaf "identifier" 0 1 (some "condition"), function (some "alternative")]]
    let p : Place := ⟨function none, [⟨root.label, [], []⟩]⟩
    let q : Place := ⟨function (some "alternative"),
      [⟨⟨"if_statement", true, false, 0, 9, none⟩,
        [leaf "identifier" 0 1 (some "condition")], []⟩, ⟨other.label, [], []⟩]⟩
    p ∈ root.places.filter r.opensFrame ∧ q ∈ other.places.filter r.opensFrame ∧
      r.isInOperand p.ancestors = false ∧ r.isInOperand q.ancestors = false ∧
      p.node.label.bare = q.node.label.bare ∧ p.node.children = q.node.children ∧
      r.frameOf root p = r.frameOf other q ∧ (r.frameOf other q).body.tally.score = 1 := by
  intro leaf function r root other p q
  have hp : p ∈ root.places.filter r.opensFrame :=
    List.mem_filter.mpr ⟨.tail _ (.head _), by decide +kernel⟩
  have hq : q ∈ other.places.filter r.opensFrame :=
    List.mem_filter.mpr ⟨.tail _ (.tail _ (.tail _ (.head _))), by decide +kernel⟩
  exact ⟨hp, hq, by decide +kernel, by decide +kernel, rfl, rfl,
    (frameOf_determined .python _ ∅).2 root other p hp q hq (by decide +kernel) (by decide +kernel)
      rfl rfl, by decide +kernel⟩

end ScopeMetrics.Reading
