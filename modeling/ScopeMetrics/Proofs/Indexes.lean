import ScopeMetrics.Proofs.Doubles
import ScopeMetrics.Proofs.EntryPaths
import ScopeMetrics.Proofs.Tokens

/-!
# Indexes have values

The index of a bundle takes a root and a sine, and converts two counts to doubles.  The line counts
of a space keep the first two in their domain, and the counts cannot exceed the number of events and
frames of the unit (`Parcel.part_le_load`).

* `Bundle.index_of_bounds`: what the index of a bundle needs.
* **`Parcel.index_space`**: both bundles of every space meet it.
-/

namespace ScopeMetrics

theorem Arithmetic.ofInt_cases (n : Int) :
    (∃ x, ofInt n = .ok x) ∨ ofInt n = .error .integerTooLarge := by
  unfold ofInt
  split
  · exact .inl ⟨_, rfl⟩
  · exact .inr rfl

namespace Bundle

/-- An index is in the domain if there are no more lines with comments than lines, and it has a
value if the numbers in it are small enough. -/
theorem index_of_bounds {b : Bundle} (hlow : 0 ≤ b.loc.cloc) (hhigh : b.loc.cloc ≤ b.loc.sloc) :
    b.index ≠ .error .outsideDomain ∧
      (b.halstead.length < Decimal.twoPow 1023 → b.cyclomatic.sum.natAbs < Decimal.twoPow 1023 →
        ∃ m, b.index = .ok m) := by
  have hcompute : ∀ x y, Arithmetic.ofInt b.halstead.length = .ok x →
      Arithmetic.ofInt b.cyclomatic.sum = .ok y → ∃ m, b.index = .ok m := by
    intro x y hx hy
    rw [index, Halstead.volume, hx, hy]
    exact Maintainability.exists_compute _ _ hlow hhigh
  constructor
  · rcases Arithmetic.ofInt_cases b.halstead.length with ⟨x, hx⟩ | hx
    · rcases Arithmetic.ofInt_cases b.cyclomatic.sum with ⟨y, hy⟩ | hy
      · obtain ⟨m, hm⟩ := hcompute x y hx hy
        rw [hm]
        nofun
      · rw [index, Halstead.volume, hx, hy]
        nofun
    · rw [index, Halstead.volume, hx]
      nofun
  · intro hlength hsum
    obtain ⟨x, hx⟩ := Arithmetic.exists_ofInt (n := b.halstead.length) hlength
    obtain ⟨y, hy⟩ := Arithmetic.exists_ofInt hsum
    exact hcompute x y hx hy

theorem addsUp_length : AddsUp fun b => (b.halstead.length : Int) where
  combine a b := by
    show ((a.halstead.combine b.halstead).length : Int) = a.halstead.length + b.halstead.length
    rw [Halstead.length, Halstead.combine, Bag.total_merge, Bag.total_merge, Halstead.length,
      Halstead.length]
    omega

end Bundle

/-! ### What the counters of a unit cannot exceed -/

section

variable {α : Type}

theorem sumOf_le_sumOf {f g : α → Int} {xs : List α} (h : ∀ x ∈ xs, f x ≤ g x) :
    sumOf f xs ≤ sumOf g xs := by
  induction xs with
  | nil => exact Int.le_refl 0
  | cons x xs ih =>
      exact Int.add_le_add (h x List.mem_cons_self) (ih fun y hy => h y (List.mem_cons_of_mem x hy))

theorem sumOf_le_of_sublist {f : α → Int} {xs ys : List α} (hf : ∀ x, 0 ≤ f x)
    (h : xs.Sublist ys) : sumOf f xs ≤ sumOf f ys := by
  induction h with
  | slnil => exact Int.le_refl 0
  | cons y _ ih =>
      rw [sumOf_cons]
      have := hf y
      omega
  | cons_cons x _ ih => exact Int.add_le_add_left ih (f x)

end

/-- What the counters of a frame cannot exceed: its events, and one for its entry path. -/
def Frame.Body.load (b : Frame.Body) : Int := b.events.length + 1

namespace Parcel

theorem all_sublist {p q : Parcel} (h : q ∈ p.all) : q.all.Sublist p.all := by
  induction p with
  | mk body span inside ih =>
      rw [all_mk] at h ⊢
      rcases List.mem_cons.mp h with rfl | h
      · rw [all_mk]
      · obtain ⟨c, hc, hq⟩ := List.mem_flatMap.mp h
        have hflat : c.all.Sublist (inside.map all).flatten :=
          List.sublist_flatten_of_mem (List.mem_map_of_mem hc)
        rw [List.flatMap_def]
        exact ((ih c hc hq).trans hflat).cons _

/-- A part that the load of a frame bounds in every space is bounded, rolled up, by the load of the
unit. -/
theorem part_le_load {part : Bundle → Int} (hpart : Bundle.AddsUp part) {use : LineUse}
    (hown : ∀ p : Parcel, 0 ≤ part (p.space use).own ∧ part (p.space use).own ≤ p.body.load)
    {unit p : Parcel} (hp : p ∈ unit.all) : ∀ b ∈ [(p.space use).own, (p.space use).metrics],
      0 ≤ part b ∧ part b ≤ sumOf (fun q => q.body.load) unit.all := by
  have hload : ∀ q : Parcel, 0 ≤ q.body.load := fun q =>
    Int.le_trans (hown q).1 (hown q).2
  have hmetrics : part (p.space use).metrics = sumOf (fun q => part (q.space use).own) p.all := by
    rw [Space.part_metrics hpart (isRolled_space use p), all_space, sumOf_map]
  intro b hb
  rcases List.mem_cons.mp hb with rfl | hb
  · exact ⟨(hown p).1, Int.le_trans (hown p).2 (le_sumOf (fun q _ => hload q) hp)⟩
  · rw [List.mem_singleton.mp hb, hmetrics]
    refine ⟨sumOf_nonneg fun q _ => (hown q).1, ?_⟩
    exact Int.le_trans (sumOf_le_sumOf fun q _ => (hown q).2)
      (sumOf_le_of_sublist hload (all_sublist hp))

theorem length_own_le (use : LineUse) (p : Parcel) :
    0 ≤ ((p.space use).own.halstead.length : Int) ∧
      ((p.space use).own.halstead.length : Int) ≤ p.body.load := by
  have hle : p.body.tokens.length ≤ p.body.events.length := List.length_filterMap_le _ _
  rw [halstead_own, Halstead.length_ofTokens, Frame.Body.load]
  omega

theorem sum_own_le (use : LineUse) (p : Parcel) :
    0 ≤ (p.space use).own.cyclomatic.sum ∧ (p.space use).own.cyclomatic.sum ≤ p.body.load := by
  have hle : p.body.events.countP (·.has .decision) ≤ p.body.events.length :=
    List.countP_le_length
  rw [(p.isMeasured_space use).sum_own (Space.self_mem_all _), decisions_own, Frame.Body.load]
  split <;> omega

/-- The index of a space is derived from its other metrics. -/
theorem maintainability_space (use : LineUse) (p : Parcel) :
    ∀ b ∈ [(p.space use).own, (p.space use).metrics], b.maintainability = b.index := by
  intro b hb
  cases p
  rcases List.mem_cons.mp hb with rfl | hb
  · rfl
  · rw [List.mem_singleton.mp hb]
    rfl

theorem isConsistent_space (use : LineUse) (p : Parcel) :
    ∀ b ∈ [(p.space use).own, (p.space use).metrics], b.loc.IsConsistent := by
  intro b hb
  rcases List.mem_cons.mp hb with rfl | hb
  · rw [loc_own]
    exact Loc.isConsistent_ofLines _ _ _ _ _
  · rw [List.mem_singleton.mp hb, loc_metrics]
    exact Loc.isConsistent_ofLines _ _ _ _ _

/-- The indexes of a space are in the domain, and have values if its unit is small enough. -/
theorem index_space (use : LineUse) {unit p : Parcel} (hp : p ∈ unit.all) :
    ∀ b ∈ [(p.space use).own, (p.space use).metrics],
      0 ≤ b.loc.cloc ∧ b.loc.cloc ≤ b.loc.sloc ∧ b.maintainability ≠ .error .outsideDomain ∧
      (sumOf (fun q => q.body.load) unit.all < Decimal.twoPow 1023 →
        ∃ m, b.maintainability = .ok m) := by
  intro b hb
  have hloc := isConsistent_space use p b hb
  have hcloc : b.loc.cloc ≤ b.loc.sloc := by
    have := hloc.blank_nonneg
    have := hloc.blank_add_cloc
    omega
  obtain ⟨hdomain, hvalue⟩ := Bundle.index_of_bounds hloc.cloc_nonneg hcloc
  rw [maintainability_space use p b hb]
  refine ⟨hloc.cloc_nonneg, hcloc, hdomain, fun hload => ?_⟩
  have hlength := part_le_load Bundle.addsUp_length (length_own_le use) hp b hb
  have hsum := part_le_load Space.addsUp_sum (sum_own_le use) hp b hb
  exact hvalue (by omega) (by omega)

end Parcel

end ScopeMetrics
