import ScopeMetrics.SortedSet

/-!
# Lines

Ranges of line numbers, as lists and as sets.
-/

namespace ScopeMetrics

/-- The numbers from `low` to `high`, in order; none if `high` is below `low`. -/
def linesFrom (low high : Int) : List Int :=
  (List.range (high + 1 - low).toNat).map fun k => low + Int.ofNat k

theorem mem_linesFrom {low high n : Int} : n ∈ linesFrom low high ↔ low ≤ n ∧ n ≤ high := by
  simp only [linesFrom, List.mem_map, List.mem_range]
  constructor
  · rintro ⟨k, hk, rfl⟩
    simp only [Int.ofNat_eq_natCast]
    omega
  · rintro ⟨h₁, h₂⟩
    refine ⟨(n - low).toNat, by omega, ?_⟩
    simp only [Int.ofNat_eq_natCast]
    omega

theorem increasing_linesFrom (low high : Int) : (linesFrom low high).Pairwise (· < ·) := by
  refine List.pairwise_map.mpr (List.pairwise_lt_range.imp fun h => ?_)
  simp only [Int.ofNat_eq_natCast]
  omega

/-- A finite set of line numbers. -/
abbrev LineSet := SortedSet Int

/-- The lines of a range. -/
def LineSet.range (low high : Int) : LineSet :=
  ⟨linesFrom low high, increasing_linesFrom low high⟩

end ScopeMetrics
