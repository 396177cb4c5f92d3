import Mathlib.Algebra.Order.Floor.Semifield
import Mathlib.Data.Int.Log
import Mathlib.Data.Rat.Floor
import Mathlib.Tactic
import Stowage.Decimal.Arithmetic

/-!
# The value of a decimal

A decimal denotes the rational `± coeff * 10 ^ exp`. The digits of the coefficient give the decade
of the value (`log_magnitude`), and the comparison of decimals, which looks at leading digits
before it computes a power of ten, is the comparison of values (`compareValue_eq`).
-/

namespace Stowage

/-! ## Counting digits -/

theorem digitCount_eq_log (n : ℕ) : digitCount n = Nat.log 10 n + 1 := by
  fun_induction digitCount n with
  | case1 n h => rw [Nat.log_of_lt h]
  | case2 n h₁ h₂ => rw [Nat.log_eq_of_pow_le_of_lt_pow (m := 1) (by omega) (by omega)]
  | case3 n h₁ h₂ h₃ => rw [Nat.log_eq_of_pow_le_of_lt_pow (m := 2) (by omega) (by omega)]
  | case4 n h₁ h₂ h₃ h₄ => rw [Nat.log_eq_of_pow_le_of_lt_pow (m := 3) (by omega) (by omega)]
  | case5 n h₁ h₂ h₃ h₄ h₅ ih =>
    have hlog : 4 ≤ Nat.log 10 n := Nat.le_log_of_pow_le (by norm_num) (by omega)
    rw [ih, show 10000 = 10 ^ 4 by norm_num, Nat.log_div_base_pow]
    omega
  | case6 n h₁ h₂ h₃ h₄ h₅ ih =>
    have hlog : 16 ≤ Nat.log 10 n := Nat.le_log_of_pow_le (by norm_num) (by omega)
    rw [ih, show 10000000000000000 = 10 ^ 16 by norm_num, Nat.log_div_base_pow]
    omega

theorem digitCount_pos (n : ℕ) : 0 < digitCount n := by
  rw [digitCount_eq_log]
  omega

theorem lt_pow_digitCount (n : ℕ) : n < 10 ^ digitCount n := by
  rw [digitCount_eq_log]
  exact Nat.lt_pow_succ_log_self (by norm_num) n

theorem pow_digitCount_le {n : ℕ} (hn : n ≠ 0) : 10 ^ (digitCount n - 1) ≤ n := by
  rw [digitCount_eq_log, Nat.add_sub_cancel]
  exact Nat.pow_log_le_self 10 hn

namespace Decimal

/-! ## Values -/

/-- The value of a decimal without its sign. -/
def magnitude (a : Decimal) : ℚ := a.coeff * 10 ^ a.exp

/-- A rational with a sign put before it. -/
def signed (negative : Bool) (x : ℚ) : ℚ := if negative then -x else x

/-- The value of a decimal. -/
def toRat (a : Decimal) : ℚ := signed a.negative a.magnitude

theorem ten_zpow_pos (e : ℤ) : (0 : ℚ) < 10 ^ e := zpow_pos (by norm_num) e

theorem ten_zpow_add (d e : ℤ) : (10 : ℚ) ^ (d + e) = 10 ^ d * 10 ^ e :=
  zpow_add₀ (by norm_num) d e

theorem ten_zpow_le {d e : ℤ} (h : d ≤ e) : (10 : ℚ) ^ d ≤ 10 ^ e :=
  zpow_le_zpow_right₀ (by norm_num) h

theorem ten_zpow_le_iff {x : ℚ} (hx : 0 < x) {e : ℤ} : 10 ^ e ≤ x ↔ e ≤ Int.log 10 x := by
  simpa using Int.zpow_le_iff_le_log (b := 10) (x := e) (by norm_num) hx

theorem lt_ten_zpow_iff {x : ℚ} (hx : 0 < x) {e : ℤ} : x < 10 ^ e ↔ Int.log 10 x < e := by
  simpa using Int.lt_zpow_iff_log_lt (b := 10) (x := e) (by norm_num) hx

theorem ten_zpow_log_le {x : ℚ} (hx : 0 < x) : 10 ^ Int.log 10 x ≤ x :=
  (ten_zpow_le_iff hx).2 le_rfl

/-- A power of ten whose exponent is a difference that is not negative. -/
theorem ten_pow_toNat {d e : ℤ} (h : e ≤ d) : (10 : ℚ) ^ (d - e).toNat = 10 ^ d / 10 ^ e := by
  rw [← zpow_natCast, Int.toNat_of_nonneg (by omega), zpow_sub₀ (by norm_num)]

@[simp] theorem signed_zero (negative : Bool) : signed negative 0 = 0 := by
  cases negative <;> simp [signed]

@[simp] theorem abs_signed (negative : Bool) (x : ℚ) : |signed negative x| = |x| := by
  cases negative <;> simp [signed]

theorem signed_mul (m n : Bool) (x y : ℚ) :
    signed m x * signed n y = signed (m != n) (x * y) := by
  cases m <;> cases n <;> simp [signed]

theorem signed_div (m n : Bool) (x y : ℚ) :
    signed m x / signed n y = signed (m != n) (x / y) := by
  cases m <;> cases n <;> simp [signed, neg_div, div_neg]

theorem signed_add (n : Bool) (x y : ℚ) : signed n x + signed n y = signed n (x + y) := by
  cases n
  · rfl
  · exact (neg_add x y).symm

theorem signed_add_not (n : Bool) (x y : ℚ) : signed n x + signed (!n) y = signed n (x - y) := by
  cases n
  · exact (sub_eq_add_neg x y).symm
  · change -x + y = -(x - y)
    ring

theorem signed_not (n : Bool) (x : ℚ) : signed (!n) x = signed n (-x) := by
  cases n <;> simp [signed]

theorem magnitude_nonneg (a : Decimal) : 0 ≤ a.magnitude :=
  mul_nonneg (Nat.cast_nonneg _) (ten_zpow_pos _).le

theorem magnitude_pos {a : Decimal} (h : a.coeff ≠ 0) : 0 < a.magnitude :=
  mul_pos (Nat.cast_pos.2 (Nat.pos_of_ne_zero h)) (ten_zpow_pos _)

theorem magnitude_eq_zero {a : Decimal} : a.magnitude = 0 ↔ a.coeff = 0 := by
  simp [magnitude, (ten_zpow_pos a.exp).ne']

@[simp] theorem abs_toRat (a : Decimal) : |a.toRat| = a.magnitude := by
  rw [toRat, abs_signed, abs_of_nonneg a.magnitude_nonneg]

@[simp] theorem toRat_zero : Decimal.zero.toRat = 0 := by simp [toRat, magnitude, zero]

theorem toRat_ofNat (n : ℕ) : (ofNat n).toRat = n := by
  simp [ofNat, toRat, signed, magnitude]

theorem toRat_eq_zero {a : Decimal} : a.toRat = 0 ↔ a.coeff = 0 := by
  rw [← abs_eq_zero, abs_toRat, magnitude_eq_zero]

theorem toRat_of_coeff_eq_zero {a : Decimal} (h : a.coeff = 0) : a.toRat = 0 := toRat_eq_zero.2 h

@[simp] theorem toRat_negate (a : Decimal) : a.negate.toRat = -a.toRat := by
  obtain ⟨n, c, e⟩ := a
  cases n <;> simp [toRat, magnitude, negate, signed]

theorem toRat_pos {a : Decimal} (hc : a.coeff ≠ 0) (hn : a.negative = false) : 0 < a.toRat := by
  simpa [toRat, signed, hn] using magnitude_pos hc

theorem toRat_neg {a : Decimal} (hc : a.coeff ≠ 0) (hn : a.negative = true) : a.toRat < 0 := by
  simpa [toRat, signed, hn] using magnitude_pos hc

theorem isPositive_iff (a : Decimal) : a.isPositive = true ↔ 0 < a.toRat := by
  constructor
  · intro h
    obtain ⟨hn, hc⟩ : a.negative = false ∧ a.coeff ≠ 0 := by simpa [isPositive] using h
    exact toRat_pos hc hn
  · intro h
    have hc : a.coeff ≠ 0 := fun hc => h.ne' (toRat_of_coeff_eq_zero hc)
    have hn : a.negative = false := by
      by_contra hn
      exact lt_asymm h (toRat_neg hc (by simpa using hn))
    simp [isPositive, hn, hc]

/-! ## Comparison -/

/-- The decade of a magnitude is the exponent of its leading digit. -/
theorem log_magnitude {a : Decimal} (h : a.coeff ≠ 0) : Int.log 10 a.magnitude = a.adjusted := by
  have hlow := pow_digitCount_le h
  have hhigh := lt_pow_digitCount a.coeff
  have hd := digitCount_pos a.coeff
  apply le_antisymm
  · rw [← Int.lt_add_one_iff, ← lt_ten_zpow_iff (magnitude_pos h), magnitude, adjusted,
      show a.exp + digitCount a.coeff - 1 + 1 = (digitCount a.coeff : ℤ) + a.exp by ring,
      ten_zpow_add, zpow_natCast]
    exact mul_lt_mul_of_pos_right (by exact_mod_cast hhigh) (ten_zpow_pos _)
  · rw [← ten_zpow_le_iff (magnitude_pos h), magnitude, adjusted,
      show a.exp + digitCount a.coeff - 1 = ((digitCount a.coeff - 1 : ℕ) : ℤ) + a.exp by omega,
      ten_zpow_add, zpow_natCast]
    exact mul_le_mul_of_nonneg_right (by exact_mod_cast hlow) (ten_zpow_pos _).le

theorem coeffAt_eq (a : Decimal) {e : ℤ} (h : e ≤ a.exp) :
    (a.coeffAt e : ℚ) = a.magnitude / 10 ^ e := by
  rw [coeffAt, magnitude]
  push_cast
  rw [ten_pow_toNat h, mul_div_assoc]

theorem compare_congr {α β : Type*} [LinearOrder α] [LinearOrder β] {a b : α} {x y : β}
    (hlt : a < b ↔ x < y) (hgt : b < a ↔ y < x) : compare a b = compare x y := by
  rcases lt_trichotomy a b with h | h | h
  · rw [compare_lt_iff_lt.2 h, compare_lt_iff_lt.2 (hlt.1 h)]
  · have hxy : x = y := le_antisymm (not_lt.1 fun h' => (hgt.2 h').ne' h)
      (not_lt.1 fun h' => (hlt.2 h').ne h)
    rw [compare_eq_iff_eq.2 h, compare_eq_iff_eq.2 hxy]
  · rw [compare_gt_iff_gt.2 h, compare_gt_iff_gt.2 (hgt.1 h)]

/-- Comparison is kept by a common positive scale. -/
theorem compare_of_scaled {m n : ℕ} {x y s : ℚ} (hs : 0 < s) (hm : (m : ℚ) = x / s)
    (hn : (n : ℚ) = y / s) : compare m n = compare x y := by
  apply compare_congr
  · rw [← div_lt_div_iff_of_pos_right hs, ← hm, ← hn, Nat.cast_lt]
  · rw [← div_lt_div_iff_of_pos_right hs, ← hm, ← hn, Nat.cast_lt]

/-- A magnitude in a lower decade is smaller. -/
theorem magnitude_lt_of_adjusted_lt {a b : Decimal} (ha : a.coeff ≠ 0) (hb : b.coeff ≠ 0)
    (h : a.adjusted < b.adjusted) : a.magnitude < b.magnitude := by
  rw [← log_magnitude ha, ← log_magnitude hb] at h
  by_contra hle
  exact absurd (Int.log_mono_right (b := 10) (magnitude_pos hb) (not_lt.1 hle)) (not_le.2 h)

theorem compareMagnitude_eq {a b : Decimal} (ha : a.coeff ≠ 0) (hb : b.coeff ≠ 0) :
    compareMagnitude a b = compare a.magnitude b.magnitude := by
  unfold compareMagnitude
  split_ifs with he hlt hgt
  · apply compare_of_scaled (ten_zpow_pos a.exp)
    · rw [magnitude, mul_div_cancel_right₀ _ (ten_zpow_pos a.exp).ne']
    · rw [magnitude, he, mul_div_cancel_right₀ _ (ten_zpow_pos b.exp).ne']
  · rw [compare_lt_iff_lt.2 (magnitude_lt_of_adjusted_lt ha hb hlt)]
  · rw [compare_gt_iff_gt.2 (magnitude_lt_of_adjusted_lt hb ha hgt)]
  · exact compare_of_scaled (ten_zpow_pos (min a.exp b.exp)) (coeffAt_eq a (min_le_left _ _))
      (coeffAt_eq b (min_le_right _ _))

/-- **Decimals compare by value.** -/
theorem compareValue_eq (a b : Decimal) : a.compareValue b = compare a.toRat b.toRat := by
  by_cases ha : a.coeff = 0
  · have hza := toRat_of_coeff_eq_zero ha
    by_cases hb : b.coeff = 0
    · rw [compare_eq_iff_eq.2 (hza.trans (toRat_of_coeff_eq_zero hb).symm)]
      simp [compareValue, ha, hb]
    · cases hn : b.negative
      · rw [hza, compare_lt_iff_lt.2 (toRat_pos hb hn)]
        simp [compareValue, ha, hb, hn]
      · rw [hza, compare_gt_iff_gt.2 (toRat_neg hb hn)]
        simp [compareValue, ha, hb, hn]
  · by_cases hb : b.coeff = 0
    · have hzb := toRat_of_coeff_eq_zero hb
      cases hm : a.negative
      · rw [hzb, compare_gt_iff_gt.2 (toRat_pos ha hm)]
        simp [compareValue, ha, hb, hm]
      · rw [hzb, compare_lt_iff_lt.2 (toRat_neg ha hm)]
        simp [compareValue, ha, hb, hm]
    · cases hm : a.negative <;> cases hn : b.negative
      · simpa [compareValue, ha, hb, hm, hn, toRat, signed] using compareMagnitude_eq ha hb
      · rw [compare_gt_iff_gt.2 ((toRat_neg hb hn).trans (toRat_pos ha hm))]
        simp [compareValue, ha, hb, hm, hn]
      · rw [compare_lt_iff_lt.2 ((toRat_neg ha hm).trans (toRat_pos hb hn))]
        simp [compareValue, ha, hb, hm, hn]
      · have hswap : compare (-a.magnitude) (-b.magnitude) = compare b.magnitude a.magnitude :=
          compare_congr neg_lt_neg_iff neg_lt_neg_iff
        simpa [compareValue, ha, hb, hm, hn, toRat, signed, hswap] using compareMagnitude_eq hb ha

theorem lt_iff (a b : Decimal) : a.lt b = true ↔ a.toRat < b.toRat := by
  rw [lt, beq_iff_eq, compareValue_eq, compare_lt_iff_lt]

theorem le_iff (a b : Decimal) : a.le b = true ↔ a.toRat ≤ b.toRat := by
  rw [le, bne_iff_ne, compareValue_eq, ne_eq, compare_gt_iff_gt, not_lt]

theorem lt_eq_false_iff (a b : Decimal) : a.lt b = false ↔ b.toRat ≤ a.toRat := by
  rw [← Bool.not_eq_true, lt_iff, not_lt]

theorem le_eq_false_iff (a b : Decimal) : a.le b = false ↔ b.toRat < a.toRat := by
  rw [← Bool.not_eq_true, le_iff, not_le]

end Decimal

end Stowage
