import Mathlib.Order.Bounds.Basic
import ScopeMetrics.Proofs.Census

/-!
# Entry paths

A space adds its decisions to the complexity, and one entry path if it can be called or has nothing
inside it (`Space.hasEntry`).  A class or module with something inside adds none, so its own sum may
be zero while its largest value is one; rolled up this does not happen, because every space has a
leaf below it (`Space.exists_isLeaf`).

Sums and extreme values are combined by different rules.  A part of a bundle that combining selects
from either side (`Bundle.Selects`) is, rolled up, the part of one space of the subtree that no
other exceeds.

* `Space.part_metrics_of_selects`: the extreme values, for `min` and `max` alike.
* **`Draft.cyclomatic_consistent`**: sums, numbers of spaces, smallest and largest values of all
  spaces of a closed unit, and the inequalities among them.
-/

namespace ScopeMetrics

/-! ### Sums -/

section

variable {α : Type}

theorem sumOf_ite (p : α → Bool) (xs : List α) :
    sumOf (fun x => if p x then 1 else 0) xs = xs.countP p := by
  rw [← sumOf_filter, sumOf_one, List.countP_eq_length_filter]

theorem sumOf_nonneg {f : α → Int} {xs : List α} (h : ∀ x ∈ xs, 0 ≤ f x) : 0 ≤ sumOf f xs := by
  induction xs with
  | nil => exact Int.le_refl 0
  | cons x xs ih =>
      exact Int.add_nonneg (h x List.mem_cons_self) (ih fun y hy => h y (List.mem_cons_of_mem x hy))

theorem le_sumOf {f : α → Int} {x : α} {xs : List α} (h : ∀ y ∈ xs, 0 ≤ f y) (hx : x ∈ xs) :
    f x ≤ sumOf f xs := by
  obtain ⟨front, back, rfl⟩ := List.append_of_mem hx
  have hfront : 0 ≤ sumOf f front := sumOf_nonneg fun y hy => h y (List.mem_append_left _ hy)
  have hback : 0 ≤ sumOf f back :=
    sumOf_nonneg fun y hy => h y (List.mem_append_right _ (List.mem_cons_of_mem x hy))
  rw [sumOf_append, sumOf_cons]
  omega

theorem sumOf_le {f : α → Int} {c : Int} {xs : List α} (h : ∀ x ∈ xs, f x ≤ c) :
    sumOf f xs ≤ xs.length * c := by
  induction xs with
  | nil => exact Int.le_of_eq (Int.zero_mul c).symm
  | cons x xs ih =>
      have hx := h x List.mem_cons_self
      have hxs := ih fun y hy => h y (List.mem_cons_of_mem x hy)
      rw [sumOf_cons, List.length_cons, Int.natCast_succ, Int.add_mul, Int.one_mul]
      omega

end

/-- The decisions of a frame are its events with the flag of a decision. -/
theorem Tally.decisions_ofEvents (es : List Event) :
    (ofEvents es).decisions = es.countP (·.has .decision) := by
  rw [part_ofEvents (·.decisions) rfl (fun _ _ => rfl), ← sumOf_ite]
  rfl

/-! ### Extreme values -/

/-- A part of a bundle that combining selects from one of the sides, so that `R` relates it to
both. -/
structure Bundle.Selects (R : Int → Int → Prop) (part : Bundle → Int) : Prop where
  refl : ∀ n, R n n
  trans : ∀ {l m n}, R l m → R m n → R l n
  left : ∀ a b : Bundle, R (part (a.combine b)) (part a)
  right : ∀ a b : Bundle, R (part (a.combine b)) (part b)
  either : ∀ a b : Bundle, part (a.combine b) = part a ∨ part (a.combine b) = part b
  derive : ∀ b, part b.derive = part b

namespace Bundle

theorem selects_min : Selects (· ≤ ·) (·.cyclomatic.min) where
  refl := Int.le_refl
  trans := Int.le_trans
  left _ _ := Int.min_le_left _ _
  right _ _ := Int.min_le_right _ _
  either a b := by
    show min _ _ = _ ∨ min _ _ = _
    omega
  derive _ := rfl

theorem selects_max : Selects (· ≥ ·) (·.cyclomatic.max) where
  refl := Int.le_refl
  trans h h' := Int.le_trans h' h
  left _ _ := Int.le_max_left _ _
  right _ _ := Int.le_max_right _ _
  either a b := by
    show max _ _ = _ ∨ max _ _ = _
    omega
  derive _ := rfl

variable {R : Int → Int → Prop} {part : Bundle → Int}

/-- A part that combining selects is one of the parts that were joined, and related to all. -/
theorem Selects.joined (h : Selects R part) (bs : List Bundle) : ∀ b : Bundle,
    (∀ c ∈ b :: bs, R (part (b.joined bs)) (part c)) ∧
      ∃ c ∈ b :: bs, part (b.joined bs) = part c := by
  induction bs with
  | nil =>
      intro b
      refine ⟨fun c hc => ?_, b, List.mem_cons_self, rfl⟩
      rw [List.mem_singleton.mp hc]
      exact h.refl _
  | cons c bs ih =>
      intro b
      obtain ⟨hall, d, hd, heq⟩ := ih (b.combine c)
      have hfirst : R (part (b.joined (c :: bs))) (part (b.combine c)) := hall _ List.mem_cons_self
      constructor
      · intro x hx
        rcases List.mem_cons.mp hx with rfl | hx
        · exact h.trans hfirst (h.left x c)
        · rcases List.mem_cons.mp hx with rfl | hx
          · exact h.trans hfirst (h.right b x)
          · exact hall x (List.mem_cons_of_mem _ hx)
      · rcases List.mem_cons.mp hd with rfl | hd
        · rcases h.either b c with hb | hc
          · exact ⟨b, List.mem_cons_self, heq.trans hb⟩
          · exact ⟨c, List.mem_cons_of_mem b List.mem_cons_self, heq.trans hc⟩
        · exact ⟨d, List.mem_cons_of_mem b (List.mem_cons_of_mem c hd), heq⟩

end Bundle

namespace Space

/-- A part that combining selects is, rolled up, that of a space in the subtree. -/
theorem part_metrics_of_selects {R : Int → Int → Prop} {part : Bundle → Int}
    (h : Bundle.Selects R part) {s : Space} (hs : s.IsRolled) :
    (∀ t ∈ s.all, R (part s.metrics) (part t.own)) ∧
      ∃ t ∈ s.all, part s.metrics = part t.own := by
  have howns : s.all.map own = s.own :: s.descendants.map own := by rw [all_eq, List.map_cons]
  have hmetrics : part s.metrics = part (s.own.joined (s.descendants.map own)) := by
    rw [metrics_of_isRolled hs, h.derive]
  obtain ⟨hall, c, hc, heq⟩ := h.joined (s.descendants.map own) s.own
  rw [← howns] at hall hc
  rw [hmetrics]
  obtain ⟨t, ht, rfl⟩ := List.mem_map.mp hc
  exact ⟨fun t ht => hall _ (List.mem_map_of_mem ht), t, ht, heq⟩

/-! ### Entry paths -/

/-- Whether a space adds an entry path: it can be called, or nothing is inside it. -/
def hasEntry (s : Space) : Bool := s.scope.kind.isCallable || s.isLeaf

theorem self_mem_all (s : Space) : s ∈ s.all := by
  rw [all_eq]
  exact List.mem_cons_self

/-- Every space is a leaf or has one below it. -/
theorem exists_isLeaf (s : Space) : ∃ t ∈ s.all, t.isLeaf = true := by
  induction s with
  | mk scope own metrics inside ih =>
      rw [all_mk]
      cases inside with
      | nil => exact ⟨_, List.mem_cons_self, rfl⟩
      | cons s ss =>
          obtain ⟨t, ht, hleaf⟩ := ih s List.mem_cons_self
          have hbelow : t ∈ (s :: ss).flatMap all :=
            List.mem_flatMap.mpr ⟨s, List.mem_cons_self, ht⟩
          exact ⟨t, List.mem_cons_of_mem _ hbelow, hleaf⟩

theorem one_le_countP_hasEntry (s : Space) : 1 ≤ s.all.countP hasEntry := by
  obtain ⟨t, ht, hleaf⟩ := s.exists_isLeaf
  exact List.countP_pos_iff.mpr ⟨t, ht, by rw [hasEntry, hleaf, Bool.or_true]⟩

/-- Whether every space has as its own the complexity of its decisions. -/
def IsMeasured (s : Space) : Prop :=
  ∀ t ∈ s.all, 0 ≤ t.own.cyclomatic.decisions ∧
    t.own.cyclomatic = .ofSpace t.own.cyclomatic.decisions t.hasEntry

theorem addsUp_sum : Bundle.AddsUp (·.cyclomatic.sum) := {}

variable {s : Space}

/-- The smallest and the largest value are those of spaces in the subtree. -/
theorem IsMeasured.isLeast_isGreatest (h : s.IsMeasured) (hs : s.IsRolled) :
    IsLeast {v | ∃ t ∈ s.all, v = t.own.cyclomatic.decisions + 1} s.metrics.cyclomatic.min ∧
      IsGreatest {v | ∃ t ∈ s.all, v = t.own.cyclomatic.decisions + 1}
        s.metrics.cyclomatic.max := by
  have hmin : ∀ t ∈ s.all, t.own.cyclomatic.min = t.own.cyclomatic.decisions + 1 := fun t ht =>
    congrArg Cyclomatic.min (h t ht).2
  have hmax : ∀ t ∈ s.all, t.own.cyclomatic.max = t.own.cyclomatic.decisions + 1 := fun t ht =>
    congrArg Cyclomatic.max (h t ht).2
  obtain ⟨hlow, t, ht, hleast⟩ := part_metrics_of_selects Bundle.selects_min hs
  obtain ⟨hhigh, u, hu, hgreatest⟩ := part_metrics_of_selects Bundle.selects_max hs
  refine ⟨⟨⟨t, ht, hleast.trans (hmin t ht)⟩, ?_⟩, ⟨⟨u, hu, hgreatest.trans (hmax u hu)⟩, ?_⟩⟩
  · rintro v ⟨x, hx, rfl⟩
    exact hmin x hx ▸ hlow x hx
  · rintro v ⟨x, hx, rfl⟩
    exact hmax x hx ▸ hhigh x hx

theorem IsMeasured.sum_own (h : s.IsMeasured) {t : Space} (ht : t ∈ s.all) :
    t.own.cyclomatic.sum = t.own.cyclomatic.decisions + if t.hasEntry then 1 else 0 :=
  congrArg Cyclomatic.sum (h t ht).2

/-- The sum is that of all decisions, and the number of spaces with an entry path. -/
theorem IsMeasured.sum_metrics (h : s.IsMeasured) (hs : s.IsRolled) :
    s.metrics.cyclomatic.sum =
      sumOf (fun t => t.own.cyclomatic.decisions) s.all + s.all.countP hasEntry := by
  rw [part_metrics addsUp_sum hs, ← sumOf_ite, ← sumOf_add]
  exact sumOf_congr fun t ht => h.sum_own ht

/-- Some space of the subtree has the largest value, and some space has an entry path. -/
theorem IsMeasured.max_le_sum (h : s.IsMeasured) (hs : s.IsRolled) :
    s.metrics.cyclomatic.max ≤ s.metrics.cyclomatic.sum := by
  obtain ⟨t, ht, hmax⟩ := (h.isLeast_isGreatest hs).2.1
  have hdecisions := le_sumOf (fun u hu => (h u hu).1) ht
  have hentries := s.one_le_countP_hasEntry
  rw [h.sum_metrics hs, hmax]
  omega

/-- No space adds more than the largest value. -/
theorem IsMeasured.sum_le (h : s.IsMeasured) (hs : s.IsRolled) :
    s.metrics.cyclomatic.sum ≤ s.all.length * s.metrics.cyclomatic.max := by
  rw [part_metrics addsUp_sum hs]
  refine sumOf_le fun t ht => ?_
  have hmax : t.own.cyclomatic.decisions + 1 ≤ s.metrics.cyclomatic.max :=
    (h.isLeast_isGreatest hs).2.2 ⟨t, ht, rfl⟩
  rw [h.sum_own ht]
  split <;> omega

end Space

namespace Parcel

theorem decisions_own (use : LineUse) (p : Parcel) :
    (p.space use).own.cyclomatic.decisions = p.body.events.countP (·.has .decision) := by
  cases p
  exact Tally.decisions_ofEvents _

theorem isMeasured_space (use : LineUse) (p : Parcel) : (p.space use).IsMeasured := by
  intro t ht
  rw [all_space] at ht
  obtain ⟨q, -, rfl⟩ := List.mem_map.mp ht
  constructor
  · rw [decisions_own]
    exact Int.natCast_nonneg _
  · cases q
    rfl

end Parcel

namespace Draft

/-- **Rolled-up complexity is consistent.**  The spaces of a unit whose frames are closed exist, one
for each frame, and the own decisions of a space are the events of its frame that are decisions.  In
every space, rolled up: the sum is that of the decisions of its subtree, and one for each space
there that is a function, a closure or a leaf; the smallest and the largest value are those of the
decisions plus one; and the values lie in order. -/
theorem cyclomatic_consistent (d : Draft) (hclosed : d.unit.open? = none) :
    ∃ root, d.spaces = .ok root ∧
      root.all.map (fun s => (s.scope, s.own.cyclomatic.decisions)) =
        d.unit.bodies.map (fun b => (b.scope, (b.events.countP (·.has .decision) : Int))) ∧
      ∀ s ∈ root.all,
        s.metrics.cyclomatic.sum =
          sumOf (fun t => t.own.cyclomatic.decisions) s.all +
            s.all.countP (fun t => t.scope.kind = .function || t.scope.kind = .closure ||
              t.inside.isEmpty) ∧
        s.metrics.cyclomatic.spaces = s.all.length ∧
        IsLeast {v | ∃ t ∈ s.all, v = t.own.cyclomatic.decisions + 1} s.metrics.cyclomatic.min ∧
        IsGreatest {v | ∃ t ∈ s.all, v = t.own.cyclomatic.decisions + 1}
          s.metrics.cyclomatic.max ∧
        1 ≤ s.metrics.cyclomatic.min ∧
        s.metrics.cyclomatic.min ≤ s.metrics.cyclomatic.max ∧
        s.metrics.cyclomatic.max ≤ s.metrics.cyclomatic.sum ∧
        s.metrics.cyclomatic.sum ≤ s.metrics.cyclomatic.spaces * s.metrics.cyclomatic.max := by
  refine ⟨d.unit.survey.space d.lineUse, by rw [spaces, hclosed], ?_, fun s hs => ?_⟩
  · rw [← d.unit.map_body_surveyIn, Parcel.all_space, List.map_map, List.map_map]
    refine List.map_congr_left fun p _ => ?_
    rw [Function.comp_apply, Function.comp_apply, Parcel.scope_space, Parcel.decisions_own]
  · rw [Parcel.all_space] at hs
    obtain ⟨p, -, rfl⟩ := List.mem_map.mp hs
    have hmeasured := p.isMeasured_space d.lineUse
    have hrolled := p.isRolled_space d.lineUse
    have hspaces : (p.space d.lineUse).metrics.cyclomatic.spaces = (p.space d.lineUse).all.length :=
      p.count_spaces (·.cyclomatic.spaces) {} fun _ _ _ => rfl
    have hentry : Space.hasEntry = fun t => t.scope.kind = .function ||
        t.scope.kind = .closure || t.inside.isEmpty := by
      funext t
      rw [Space.hasEntry, Space.isLeaf]
      cases t.scope.kind <;> rfl
    obtain ⟨hleast, hgreatest⟩ := hmeasured.isLeast_isGreatest hrolled
    refine ⟨hentry ▸ hmeasured.sum_metrics hrolled, hspaces, hleast, hgreatest, ?_,
      hgreatest.2 hleast.1, hmeasured.max_le_sum hrolled, hspaces ▸ hmeasured.sum_le hrolled⟩
    obtain ⟨t, ht, hmin⟩ := hleast.1
    have hdecisions := (hmeasured t ht).1
    omega

/-- A class with two methods, one of them with two decisions and a closure inside.  The unit and the
class are not leaves and cannot be called, so five spaces have three entry paths. -/
theorem cyclomatic_consistent_methods :
    let decision : Event := { kind := "if", category := {.decision, .nesting} }
    let frame (kind : SpaceKind) (low high : Int) (events : List Event) :=
      Frame.mk { scope := { kind, name := none, startLine := low, endLine := high }, events }
    let d : Draft :=
      ⟨frame .unit 1 9 []
        [frame .class_ 1 8 []
          [frame .function 2 3 [decision, decision] [frame .closure 3 3 [] []],
           frame .function 4 6 [] []]], []⟩
    d.unit.open? = none ∧ ∃ root, d.spaces = .ok root ∧ root ∈ root.all ∧
      root.own.cyclomatic.sum = 0 ∧ root.metrics.cyclomatic = ⟨2, 5, 5, 1, 3⟩ ∧
      IsGreatest {v | ∃ t ∈ root.all, v = t.own.cyclomatic.decisions + 1} 3 ∧
      root.metrics.cyclomatic.sum ≤
        root.metrics.cyclomatic.spaces * root.metrics.cyclomatic.max := by
  intro decision frame d
  obtain ⟨root, hroot, -, hall⟩ := cyclomatic_consistent d rfl
  have hvalues : d.spaces.toOption.map (fun s => (s.own.cyclomatic.sum, s.metrics.cyclomatic)) =
      some (0, ⟨2, 5, 5, 1, 3⟩) := by decide +kernel
  rw [hroot] at hvalues
  obtain ⟨hown, hmetrics⟩ := Prod.mk.inj (Option.some.inj hvalues)
  obtain ⟨-, -, -, hgreatest, -, -, -, hsum⟩ := hall root root.self_mem_all
  rw [hmetrics] at hgreatest
  exact ⟨rfl, root, hroot, root.self_mem_all, hown, hmetrics, hgreatest, hsum⟩

end Draft

end ScopeMetrics
