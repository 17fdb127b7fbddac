import Mathlib
import ScopeMetrics.Metric.Maintainability

/-!
# Doubles that stay in the domain

The index takes the root of a share and the sine of that root.  Neither fails for the share of a
part in a whole: the share is rounded to a double that is a zero or positive, and so are its product
with a constant and the root of the product, none of them near the largest double.

A double is followed through its bits.  Which real number is nearest does not matter here, only the
sign and a bound on the exponent (`Double.UpTo`), so each operation has a lemma that says how far it
raises the bound: rounding shifts a mantissa of `l` bits by at most `2 * l + 1`.

* `Decimal.roundFraction_eq`: a fraction below a power of two is rounded to a double.
* `Double.within_round`: rounding a positive number keeps it positive and finite.
* `Arithmetic.share_of_le`, `Arithmetic.exists_ofInt`: a share and an integer have doubles.
* **`Maintainability.exists_compute`**: the index has a value where no more lines have comments than
  there are.
-/

namespace ScopeMetrics.Decimal

theorem twoPow_eq (k : Nat) : twoPow k = 2 ^ k := rfl

theorem log2_lt_of_lt_twoPow {n k : Nat} (hk : 0 < k) (h : n < twoPow k) : n.log2 < k := by
  rcases Nat.eq_zero_or_pos n with rfl | hn
  · exact hk
  · exact (Nat.log2_lt (Nat.ne_of_gt hn)).mpr h

theorem nearest_le {a b c : Nat} (h : a ≤ c * b) : nearest a b ≤ c := by
  have hq : a / b ≤ c := Nat.div_le_of_le_mul (by rwa [Nat.mul_comm])
  simp only [nearest]
  rcases Nat.lt_or_eq_of_le hq with hlt | heq
  · split
    · omega
    · split <;> omega
  · have hmod : a % b = 0 := by
      have := Nat.div_add_mod a b
      rw [heq, Nat.mul_comm] at this
      omega
    rcases Nat.eq_zero_or_pos b with rfl | hb
    · simp at heq h
      subst heq
      simp [h]
    · rw [hmod, if_pos (by omega), heq]

/-- Where the last bit kept is, by the sizes of numerator and denominator. -/
theorem lastBit_cases (num den : Nat) :
    lastBit num den = max ((num.log2 : Int) - den.log2 - 52) (-1074) ∨
      lastBit num den = max ((num.log2 : Int) - den.log2 - 53) (-1074) ∧
        (num : ℚ) < den * 2 ^ ((num.log2 : Int) - den.log2) := by
  unfold lastBit
  simp only [Int.ofNat_eq_natCast]
  generalize hd : (num.log2 : Int) - den.log2 = d
  cases d with
  | ofNat k =>
      simp only [Int.ofNat_eq_natCast]
      split
      · rename_i hlt
        refine .inr ⟨rfl, ?_⟩
        rw [zpow_natCast]
        exact_mod_cast hlt
      · exact .inl rfl
  | negSucc k =>
      simp only
      split
      · rename_i hlt
        refine .inr ⟨rfl, ?_⟩
        rw [zpow_negSucc, ← div_eq_mul_inv, lt_div_iff₀ (by positivity)]
        exact_mod_cast hlt
      · exact .inl rfl

/-- A fraction has at most 53 bits down to the last one that is kept. -/
theorem lt_lastBit {num den : Nat} (hden : 0 < den) :
    (num : ℚ) < den * 2 ^ (lastBit num den + 53) := by
  have hone : (1 : ℚ) ≤ 2 := by norm_num
  have hpos : (0 : ℚ) < den := by exact_mod_cast hden
  rcases lastBit_cases num den with h | ⟨h, hlt⟩
  · have hlow : (2 : ℚ) ^ (den.log2 : Int) ≤ den := by
      rw [zpow_natCast]
      exact_mod_cast Nat.log2_self_le (Nat.ne_of_gt hden)
    calc (num : ℚ) < 2 ^ ((num.log2 : Int) + 1) := by
          exact_mod_cast (Nat.lt_log2_self : num < 2 ^ (num.log2 + 1))
      _ = 2 ^ (den.log2 : Int) * 2 ^ ((num.log2 : Int) - den.log2 + 1) := by
          rw [← zpow_add₀ (by norm_num)]
          congr 1
          omega
      _ ≤ den * 2 ^ (lastBit num den + 53) :=
          mul_le_mul hlow (zpow_le_zpow_right₀ hone (by omega)) (by positivity) (le_of_lt hpos)
  · exact lt_of_lt_of_le hlt
      (mul_le_mul_of_nonneg_left (zpow_le_zpow_right₀ hone (by omega)) (le_of_lt hpos))

/-- The mantissa that is kept of a fraction, when its last bit has the exponent `e`. -/
def mantissaAt (e : Int) (num den : Nat) : Nat :=
  match e with
  | .ofNat k => nearest num (den * twoPow k)
  | .negSucc k => nearest (num * twoPow (k + 1)) den

theorem mantissaAt_le {num den : Nat} (hden : 0 < den) :
    mantissaAt (lastBit num den) num den ≤ 2 ^ 53 := by
  have hlt := @lt_lastBit num den hden
  rw [zpow_add₀ (by norm_num)] at hlt
  generalize lastBit num den = e at hlt
  cases e with
  | ofNat k =>
      refine nearest_le (Nat.le_of_lt ?_)
      rw [Int.ofNat_eq_natCast, zpow_natCast] at hlt
      have : (num : ℚ) < 2 ^ 53 * (den * 2 ^ k) := by
        calc (num : ℚ) < _ := hlt
          _ = 2 ^ 53 * (den * 2 ^ k) := by rw [mul_comm (2 ^ 53), mul_assoc]; rfl
      exact_mod_cast this
  | negSucc k =>
      refine nearest_le (Nat.le_of_lt ?_)
      rw [zpow_negSucc] at hlt
      have : (num : ℚ) * 2 ^ (k + 1) < 2 ^ 53 * den := by
        calc (num : ℚ) * 2 ^ (k + 1) < den * ((2 ^ (k + 1))⁻¹ * 2 ^ (53 : Int)) * 2 ^ (k + 1) :=
              mul_lt_mul_of_pos_right hlt (by positivity)
          _ = 2 ^ 53 * den := by field_simp
      exact_mod_cast this

/-- A fraction below `2 ^ k` rounds to a double, whose bits its exponent bounds. -/
theorem roundFraction_eq {num den : Nat} (hden : 0 < den) {k : Int} (hlow : -1021 ≤ k)
    (hhigh : k ≤ 1023) (h : (num.log2 : Int) - den.log2 < k) (negative : Bool) :
    ∃ bits, bits ≤ (k + 1023).toNat * 2 ^ 52 ∧ roundFraction negative num den =
      some (Float.ofBits (UInt64.ofNat ((if negative then twoPow 63 else 0) + bits))) := by
  have hmantissa := @mantissaAt_le num den hden
  have hlast : -1074 ≤ lastBit num den ∧ lastBit num den ≤ k - 53 := by
    rcases lastBit_cases num den with h' | ⟨h', -⟩ <;> omega
  by_cases hzero : num = 0
  · exact ⟨0, Nat.zero_le _, by rw [roundFraction, if_pos hzero]; rfl⟩
  · have hbits : (lastBit num den + 1074).toNat * 2 ^ 52 + mantissaAt (lastBit num den) num den ≤
        (k + 1023).toNat * 2 ^ 52 := by omega
    refine ⟨_, hbits, ?_⟩
    have hfits : (lastBit num den + 1074).toNat * twoPow 52 +
        mantissaAt (lastBit num den) num den < 2047 * twoPow 52 := by
      rw [twoPow_eq]
      omega
    simp only [roundFraction, if_neg hzero]
    exact if_pos hfits

end ScopeMetrics.Decimal

namespace ScopeMetrics.Double

open Float.Model (Format UnpackedFloat totalExponent)
open Float.Model.UnpackedFloat

/-- A zero, or a positive finite number with an exponent of at most `k`. -/
def Within (k : Int) : UnpackedFloat → Prop
  | .zero _ => True
  | .finite s m e _ => s = .positive ∧ m < 2 ^ 53 ∧ e ≤ k
  | .infinity _ | .notANumber => False

/-! ### Bits -/

/-- What bits stand for whose sign is positive and whose exponent is not the largest. -/
theorem within_unpack {b : BitVec 64} {k : Int} {n : Nat}
    (hsign : @unpackSign Format.binary64 b = 0#1)
    (hexponent : (@unpackExponent Format.binary64 b).toNat = n) (hfinite : n < 2047)
    (hbound : (n : Int) ≤ k + 1075) (hk : -1074 ≤ k) : Within k (unpack Format.binary64 b) := by
  have hbias : ((Format.binary64.exponentBias : Nat) : Int) + 52 = 1075 := by decide
  have htop : @unpackExponent Format.binary64 b ≠ -1#11 := by
    intro h
    rw [h] at hexponent
    exact absurd (hexponent ▸ hfinite) (by decide)
  rw [unpack]
  simp only [if_neg htop, hsign, hexponent]
  split
  · rename_i hzero
    have hn : n = 0 := by
      rw [← hexponent, hzero]
      rfl
    split
    · trivial
    · exact ⟨rfl, Nat.lt_trans (BitVec.isLt _) (by decide), by omega⟩
  · exact ⟨rfl, (1#1 ++ @unpackMantissa Format.binary64 b).isLt, by omega⟩

/-- Packing a positive number does not raise its exponent, unless it is too large for a double. -/
theorem within_pack {k : Int} {m : Nat} {e : Int} {h : 0 < m} (he : e ≤ k) (hlow : -1074 ≤ k)
    (hhigh : k ≤ 971) :
    Within k (unpack Format.binary64 (pack Format.binary64 (.finite .positive m e h))) := by
  have hfits : ¬ 2 ^ Format.binary64.exponentBits ≤ (e + Format.binary64.exponentBias +
      Format.binary64.mantissaBitsWithoutImplicit).toNat + 1 := by
    change ¬ 2048 ≤ (e + 1023 + 52).toNat + 1
    omega
  simp only [pack, if_neg hfits]
  split
  · refine within_unpack (n := (e + 1075).toNat) (unpackSign_packComponents _ _ _) ?_ (by omega)
      (by omega) hlow
    rw [unpackExponent_packComponents]
    change (e + 1023 + 52).toNat % 2048 = (e + 1075).toNat
    omega
  · refine within_unpack (n := 0) (unpackSign_packComponents _ _ _) ?_ (by omega) (by omega) hlow
    rw [unpackExponent_packComponents]
    rfl

/-! ### Rounding -/

theorem mantissa_shiftRight_le (k : Nat) : ∀ em : ExtendedMantissa,
    (em >>> k).mantissa ≤ em.mantissa := by
  induction k with
  | zero => exact fun em => Nat.le_refl _
  | succ k ih =>
      intro em
      show (em >>> k).mantissa / 2 ≤ em.mantissa
      exact Nat.le_trans (Nat.div_le_self _ _) (ih em)

theorem mantissa_ofMantissaAndAccuracy (m : Nat) (a : Accuracy) :
    (ExtendedMantissa.ofMantissaAndAccuracy m a).mantissa = m := by
  rcases a with _ | (_ | _ | _) <;> rfl

theorem roundToNearestEven_le (m : Nat) (a : Accuracy) : a.roundToNearestEven m ≤ m + 1 := by
  rcases a with _ | (_ | _ | _)
  all_goals
    simp only [Accuracy.roundToNearestEven]
    omega

/-- Shifting a mantissa below `2 ^ l` to its target exponent. -/
theorem shiftToTargetExponent_le {m l : Nat} {e : Int} {a : Accuracy} (hm : m < 2 ^ l) :
    (shiftToTargetExponent Format.binary64 m e a).1.mantissa ≤ m ∧
      (shiftToTargetExponent Format.binary64 m e a).2 ≤ max (e + l) (-1074) := by
  have htarget : ∀ t : Int, Format.binary64.targetExponent t = max (t - 53) (-1074) := fun _ => rfl
  have hlog : m.log2 ≤ l := by
    rcases Nat.eq_zero_or_pos m with rfl | hpos
    · exact Nat.zero_le _
    · exact Nat.le_of_lt ((Nat.log2_lt (Nat.ne_of_gt hpos)).mpr hm)
  constructor
  · exact Nat.le_trans (mantissa_shiftRight_le _ _)
      (Nat.le_of_eq (mantissa_ofMantissaAndAccuracy m a))
  · simp only [shiftToTargetExponent, shiftToExponent, htarget, totalExponent]
    omega

theorem within_pack_zero (k : Int) (s : Sign) :
    Within k (unpack Format.binary64 (pack Format.binary64 (.zero s))) := by
  cases s <;> trivial

/-- Rounding a mantissa below `2 ^ l` shifts it twice, so it raises the exponent by at most twice as
many bits and one more for a carry. -/
theorem within_round {m l : Nat} {e k : Int} {a : Accuracy} (hm : m < 2 ^ l)
    (he : e + 2 * l + 1 ≤ k) (hl : (l : Int) - 1073 ≤ k) (hhigh : k ≤ 971) :
    Within k (unpack Format.binary64
      (pack Format.binary64 (roundWithAccuracy Format.binary64 .positive m e a))) := by
  obtain ⟨hfirst, hexponent⟩ := shiftToTargetExponent_le (e := e) (a := a) hm
  have hcarry := roundToNearestEven_le (shiftToTargetExponent Format.binary64 m e a).1.mantissa
    (shiftToTargetExponent Format.binary64 m e a).1.accuracy
  have hrounded :
      (shiftToTargetExponent Format.binary64 m e a).1.roundedMantissa < 2 ^ (l + 1) := by
    rw [Nat.pow_succ]
    exact Nat.lt_of_le_of_lt hcarry (by omega)
  obtain ⟨-, hsecond⟩ := shiftToTargetExponent_le
    (e := (shiftToTargetExponent Format.binary64 m e a).2) (a := .exact) hrounded
  simp only [roundWithAccuracy]
  split
  · exact within_pack_zero k _
  · exact within_pack (by omega) (by omega) hhigh

/-! ### Products and roots -/

theorem within_mul {u v : UnpackedFloat} {j k : Int} (hu : Within j u) (hv : Within k v)
    (hlow : -1180 ≤ j + k) (hhigh : j + k ≤ 750) :
    Within (j + k + 213) (unpack Format.binary64
      (pack Format.binary64 (Float.Model.UnpackedFloat.mul Format.binary64 u v))) := by
  cases u with
  | zero s =>
      cases v with
      | zero t => exact within_pack_zero _ _
      | finite t m e h => exact within_pack_zero _ _
      | infinity t => exact hv.elim
      | notANumber => exact hv.elim
  | finite s m e h =>
      obtain ⟨rfl, hm, he⟩ := hu
      cases v with
      | zero t => exact within_pack_zero _ _
      | finite t n f h' =>
          obtain ⟨rfl, hn, hf⟩ := hv
          have hmn : m * n < 2 ^ 106 := by
            rw [show 106 = 53 + 53 from rfl, Nat.pow_add]
            exact Nat.mul_lt_mul'' hm hn
          exact within_round hmn (by omega) (by omega) (by omega)
      | infinity t => exact hv.elim
      | notANumber => exact hv.elim
  | infinity s => exact hu.elim
  | notANumber => exact hu.elim

/-- The root of a mantissa, extended by the bits that its own mantissa needs. -/
theorem sqrtCore_bounds {m : Nat} {e k : Int} (hm : m < 2 ^ 53) (he : e ≤ k) :
    (sqrtCore Format.binary64 m e).1 < 2 ^ 160 ∧ (sqrtCore Format.binary64 m e).2.1 ≤ k / 2 := by
  have htarget : ∀ t : Int, Format.binary64.targetExponent t = max (t - 53) (-1074) := fun _ => rfl
  simp only [sqrtCore, htarget, totalExponent]
  constructor
  · refine Nat.lt_of_le_of_lt (Nat.sqrt_le_self _) ?_
    rw [Nat.shiftLeft_eq, show 160 = 53 + 107 from rfl, Nat.pow_add]
    refine Nat.mul_lt_mul_of_lt_of_le hm (Nat.pow_le_pow_right (by decide) ?_) (Nat.two_pow_pos _)
    have : ∀ a : Int, a.ediv 2 = a / 2 := fun _ => rfl
    simp only [this]
    omega
  · have : ∀ a : Int, a.ediv 2 = a / 2 := fun _ => rfl
    simp only [this]
    omega

theorem within_sqrt {u : UnpackedFloat} {k : Int} (hu : Within k u) (hk : k ≤ 971) :
    Within 971 (unpack Format.binary64
      (pack Format.binary64 (Float.Model.UnpackedFloat.sqrt Format.binary64 u))) := by
  cases u with
  | zero s => exact within_pack_zero _ _
  | finite s m e h =>
      obtain ⟨rfl, hm, he⟩ := hu
      obtain ⟨hroot, hexponent⟩ := sqrtCore_bounds hm he
      show Within 971 (unpack _ (pack _ (roundWithAccuracy _ _ (sqrtCore Format.binary64 m e).1
        (sqrtCore Format.binary64 m e).2.1 _)))
      exact within_round hroot (by omega) (by omega) (Int.le_refl _)
  | infinity s => exact hu.elim
  | notANumber => exact hu.elim

/-! ### Doubles -/

/-- A double that is a zero, or positive and finite with an exponent of at most `k`. -/
def UpTo (k : Int) (x : Float) : Prop := Within k x.toModel.unpack

theorem not_lt_zero {k : Int} {x : Float} (h : UpTo k x) : ¬ x < 0 := by
  have hlt : ∀ u, Within k u → u.lt (.zero .positive) = false := by
    intro u hu
    cases u with
    | zero s => rfl
    | finite s m e hm =>
        obtain ⟨rfl, -, -⟩ := hu
        rfl
    | infinity s => exact hu.elim
    | notANumber => exact hu.elim
  have hzero : (0 : Float).toModel.unpack = .zero .positive := rfl
  intro hx
  have hx : x.toModel.unpack.lt (0 : Float).toModel.unpack = true := of_decide_eq_true hx
  rw [hzero, hlt _ h] at hx
  cases hx

theorem isInf_eq_false {k : Int} {x : Float} (h : UpTo k x) : x.isInf = false := by
  show x.toModel.unpack.isInf = false
  revert h
  unfold UpTo
  cases x.toModel.unpack with
  | zero s => exact fun _ => rfl
  | finite s m e hm => exact fun _ => rfl
  | infinity s => exact False.elim
  | notANumber => exact False.elim

theorem within_repack {u : UnpackedFloat} {k : Int} (hu : Within k u) (hlow : -1074 ≤ k)
    (hhigh : k ≤ 971) : Within k (unpack Format.binary64 (pack Format.binary64 u)) := by
  cases u with
  | zero s => exact within_pack_zero k s
  | finite s m e h =>
      obtain ⟨rfl, -, he⟩ := hu
      exact within_pack he hlow hhigh
  | infinity s => exact hu.elim
  | notANumber => exact hu.elim

/-- Bits with the sign of a positive number and an exponent that is not the largest. -/
theorem upTo_ofBits {bits : Nat} {k : Int} (hbits : bits ≤ (k + 1075).toNat * 2 ^ 52)
    (hlow : -1074 ≤ k) (hhigh : k ≤ 970) : UpTo k (Float.ofBits (UInt64.ofNat bits)) := by
  refine within_repack (within_unpack (n := bits / 2 ^ 52) ?_ ?_ ?_ ?_ hlow) hlow (by omega)
  · refine BitVec.eq_of_toNat_eq ?_
    change (bits % 2 ^ 64) >>> 63 % 2 = 0
    rw [Nat.shiftRight_eq_div_pow]
    omega
  · change (bits % 2 ^ 64) >>> 52 % 2 ^ 11 = bits / 2 ^ 52
    rw [Nat.shiftRight_eq_div_pow]
    omega
  · omega
  · omega

theorem upTo_mul {j k : Int} {x y : Float} (hx : UpTo j x) (hy : UpTo k y)
    (hlow : -1180 ≤ j + k) (hhigh : j + k ≤ 750) : UpTo (j + k + 213) (x * y) :=
  within_mul hx hy hlow hhigh

theorem upTo_sqrt {k : Int} {x : Float} (hx : UpTo k x) (hk : k ≤ 971) : UpTo 971 x.sqrt :=
  within_sqrt hx hk

end ScopeMetrics.Double

namespace ScopeMetrics.Arithmetic

open Double

/-- The share of a part in a whole. -/
theorem share_of_le {a b : Int} (ha : 0 ≤ a) (hab : a ≤ b) :
    ∃ x, share a b = .ok x ∧ UpTo (-51) x := by
  rw [share]
  split
  · exact ⟨0, rfl, trivial⟩
  · rename_i hb
    have hlog : (a.natAbs.log2 : Int) - b.natAbs.log2 < 1 := by
      have : a.natAbs.log2 ≤ b.natAbs.log2 := by
        rw [Nat.log2_eq_log_two, Nat.log2_eq_log_two]
        exact Nat.log_mono_right (by omega)
      omega
    have hsign : ((decide (a < 0)) != decide (b < 0)) = false := by
      rw [decide_eq_false (by omega), decide_eq_false (by omega)]
      rfl
    obtain ⟨bits, hbits, hround⟩ :=
      Decimal.roundFraction_eq (by omega) (by decide) (by decide) hlog false
    refine ⟨Float.ofBits (UInt64.ofNat bits), ?_, upTo_ofBits hbits (by decide) (by decide)⟩
    rw [quotient, hsign, hround, if_neg Bool.false_ne_true, Nat.zero_add]

/-- An integer below `2 ^ 1023` has a double near enough. -/
theorem exists_ofInt {n : Int} (hn : n.natAbs < Decimal.twoPow 1023) : ∃ x, ofInt n = .ok x := by
  have hlog : (n.natAbs.log2 : Int) - (1 : Nat).log2 < 1023 := by
    have := Decimal.log2_lt_of_lt_twoPow (by decide) hn
    have : (1 : Nat).log2 = 0 := rfl
    omega
  obtain ⟨bits, -, hround⟩ :=
    Decimal.roundFraction_eq Nat.one_pos (by decide) (by decide) hlog (n < 0)
  exact ⟨_, by rw [ofInt, hround]⟩

end ScopeMetrics.Arithmetic

namespace ScopeMetrics.Maintainability

open Double

theorem upTo_literal : UpTo (-51) (2.4 : Float) := ⟨rfl, by decide +kernel, by decide +kernel⟩

/-- The index has a value where no more lines have comments than there are. -/
theorem exists_compute (volume cyclomatic : Float) {sloc cloc : Int} (h₀ : 0 ≤ cloc)
    (h : cloc ≤ sloc) : ∃ m, compute volume cyclomatic sloc cloc = .ok m := by
  obtain ⟨x, hx, hsmall⟩ := Arithmetic.share_of_le h₀ h
  have hproduct := upTo_mul upTo_literal hsmall (by decide) (by decide)
  have hroot : Arithmetic.root (2.4 * x) = .ok (2.4 * x).sqrt := if_neg (not_lt_zero hproduct)
  have hsine : Arithmetic.sine (2.4 * x).sqrt = .ok (2.4 * x).sqrt.sin := by
    rw [Arithmetic.sine, isInf_eq_false (upTo_sqrt hproduct (by decide))]
    rfl
  simp only [compute, hx, bind, Except.bind, hroot, hsine]
  exact ⟨_, rfl⟩

end ScopeMetrics.Maintainability
