import Mathlib.Data.List.Basic
import ScopeMetrics.Text.Lowercase

/-!
# Small letters stay small

Capitals are made small one by one, from a table and by two rules apart.  Whether doing it twice is
the same as doing it once is a question about the whole table; here only plain letters matter, the
first 128 characters, and for them one entry of the table is an exception.

* `Text.lowerChar_cases`: where the small letter of a character can be.
* `Text.lowerFrom_cons`: what one character of a text gives.
* **`Text.eq_of_lowerFrom`**: a text that was made small has no second spelling in plain letters.
-/

namespace ScopeMetrics.Text

/-- The only character after the first 128 whose small letter is one of them, a `k`. -/
def kelvin : Nat := 0x212a

theorem image_of_capitalRuns : ∀ r ∈ capitalRuns, 128 ≤ r.2.1 →
    (128 ≤ r.2.2.2 ∨ r.1 = kelvin ∧ r.2.1 = kelvin ∧ r.2.2.2 = 'k'.toNat) ∧
    (r.2.2.2 + (r.2.1 - r.1) < kelvin ∨ kelvin < r.2.2.2) ∧
    (r.2.2.2 + (r.2.1 - r.1) < 0xd800 ∨
      0xdfff < r.2.2.2 ∧ r.2.2.2 + (r.2.1 - r.1) < 0x110000) := by
  decide +kernel

/-- The small letter of a character after the first 128 is after them as well, and no capital that
leads back, with one exception. -/
theorem lowerChar_cases {c : Char} (hc : 128 ≤ c.toNat) :
    lowerChar c = c ∨ (128 ≤ (lowerChar c).toNat ∧ (lowerChar c).toNat ≠ kelvin) ∨
      lowerChar c = 'k' ∧ c.toNat = kelvin := by
  rw [lowerChar, if_neg (Nat.not_lt.mpr hc)]
  split
  · rename_i first last step image hrun
    obtain ⟨hmem, htest⟩ := And.intro (List.mem_of_find?_eq_some hrun) (List.find?_some hrun)
    simp only [Bool.and_eq_true, decide_eq_true_eq] at htest
    obtain ⟨⟨hfirst, hlast⟩, -⟩ := htest
    obtain ⟨hplain, hback, hvalid⟩ := image_of_capitalRuns _ hmem (Nat.le_trans hc hlast)
    dsimp only at hplain hback hvalid
    have hnat : (Char.ofNat (image + (c.toNat - first))).toNat = image + (c.toNat - first) := by
      have hchar : (image + (c.toNat - first)).isValidChar := by
        rw [Nat.isValidChar]
        omega
      rw [Char.ofNat, dif_pos hchar]
      rfl
    rcases hplain with himage | ⟨rfl, rfl, rfl⟩
    · right; left
      rw [hnat]
      omega
    · have hk : c.toNat = kelvin := Nat.le_antisymm hlast hfirst
      right; right
      exact ⟨by rw [hk]; rfl, hk⟩
  · exact .inl rfl

theorem toLower_plain : ∀ n < 128, (Char.ofNat n).toLower.toNat < 128 ∧
    (Char.ofNat n).toLower.toLower = (Char.ofNat n).toLower := by
  decide +kernel

/-- A small letter stays as it is, if it has a plain letter at all. -/
theorem lowerChar_lowerChar {c : Char} (h : (lowerChar (lowerChar c)).toNat < 128) :
    lowerChar (lowerChar c) = lowerChar c := by
  by_cases hc : c.toNat < 128
  · have hlower : lowerChar c = c.toLower := by rw [lowerChar, if_pos hc]
    obtain ⟨hplain, hagain⟩ := toLower_plain c.toNat hc
    rw [Char.ofNat_toNat] at hplain hagain
    rw [hlower, lowerChar, if_pos hplain, hagain]
  · rcases lowerChar_cases (Nat.not_lt.mp hc) with hself | ⟨hfar, hback⟩ | ⟨hk, -⟩
    · rw [hself, hself]
    · rcases lowerChar_cases hfar with hself | ⟨hfar', -⟩ | ⟨-, hk⟩
      · exact hself
      · exact absurd h (Nat.not_lt.mpr hfar')
      · exact absurd hk hback
    · rw [hk]
      rfl

/-- A character has an image, or one of those of the two rules apart. -/
theorem lowerFrom_cons (before : List Char) (c : Char) (cs : List Char) :
    ∃ small, lowerFrom before (c :: cs) = small ++ lowerFrom (c :: before) cs ∧
      (small = [lowerChar c] ∨
        small ∈ [['i', Char.ofNat 0x307], [Char.ofNat 0x3c2], [Char.ofNat 0x3c3]]) := by
  refine ⟨_, rfl, ?_⟩
  by_cases hdot : c.toNat = 0x130
  · simp [hdot]
  · by_cases hsigma : c.toNat = 0x3a3
    · right
      by_cases hend : (casedNext before && !casedNext cs) = true <;> simp [hsigma, hend]
    · simp [hdot, hsigma]

theorem mem_lowerFrom {d : Char} {before cs : List Char} (h : d ∈ lowerFrom before cs) :
    d ∈ ['i', Char.ofNat 0x307, Char.ofNat 0x3c2, Char.ofNat 0x3c3] ∨ ∃ c, d = lowerChar c := by
  induction cs generalizing before with
  | nil => cases h
  | cons c cs ih =>
      obtain ⟨small, hsmall, himage | hrule⟩ := lowerFrom_cons before c cs
      · rw [hsmall, himage] at h
        rcases List.mem_cons.mp h with hd | hd
        · exact .inr ⟨c, hd⟩
        · exact ih hd
      · rw [hsmall] at h
        rcases List.mem_append.mp h with hd | hd
        · left
          simp only [List.mem_cons, List.not_mem_nil, or_false] at hrule ⊢
          rcases hrule with rfl | rfl | rfl <;>
            simp only [List.mem_cons, List.not_mem_nil, or_false] at hd <;> tauto
        · exact ih hd

/-- What was made small stays as it is, if it has a plain letter at all. -/
theorem lowerChar_of_mem_lower {s : String} {d : Char} (hd : d ∈ (lower s).toList)
    (hplain : (lowerChar d).toNat < 128) : lowerChar d = d := by
  rw [lower, String.toList_ofList] at hd
  rcases mem_lowerFrom hd with hrule | ⟨c, rfl⟩
  · simp only [List.mem_cons, List.not_mem_nil, or_false] at hrule
    rcases hrule with rfl | rfl | rfl | rfl <;> decide +kernel
  · exact lowerChar_lowerChar hplain

/-- **Characters that were made small spell a plain word only if they are that word.** -/
theorem eq_of_lowerFrom {s : String} {cs word before : List Char}
    (hcs : ∀ c ∈ cs, c ∈ (lower s).toList) (hword : ∀ c ∈ word, c.toNat < 128)
    (h : lowerFrom before cs = word) : cs = word := by
  induction cs generalizing before word with
  | nil => exact h
  | cons c cs ih =>
      subst h
      obtain ⟨small, hsmall, himage | hrule⟩ := lowerFrom_cons before c cs
      · rw [hsmall, himage, List.singleton_append] at hword ⊢
        have hc : lowerChar c = c :=
          lowerChar_of_mem_lower (hcs c List.mem_cons_self) (hword _ List.mem_cons_self)
        have hrest := ih (fun d hd => hcs d (List.mem_cons_of_mem c hd))
          (fun d hd => hword d (List.mem_cons_of_mem _ hd)) rfl
        rw [hc, ← hrest]
      · -- the two rules apart lead out of the plain letters
        rw [hsmall] at hword
        simp only [List.mem_cons, List.not_mem_nil, or_false] at hrule
        rcases hrule with rfl | rfl | rfl
        · exact absurd (hword (Char.ofNat 0x307) (by simp)) (by decide)
        · exact absurd (hword (Char.ofNat 0x3c2) (by simp)) (by decide)
        · exact absurd (hword (Char.ofNat 0x3c3) (by simp)) (by decide)

end ScopeMetrics.Text
