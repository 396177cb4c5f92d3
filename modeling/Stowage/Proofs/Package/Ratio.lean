import Stowage.Proofs.Decimal.Rounds
import Stowage.Proofs.Failure.Fallible
import Stowage.Package.Basic

/-!
# Rounded quotients and thresholds

How full a package is, is a quotient rounded twice: to 28 digits and then to four places. Both
roundings are monotone, so that a part that is not larger gives a ratio that is not larger
(`ratio_mono`), and a threshold that bounds a ratio bounds every smaller one. But a part may be
larger than a bound on its ratio says, by less than half a unit in the fourth place
(`lt_of_ratio_le`).
-/

namespace Stowage

open Decimal

/-! ## Thresholds -/

namespace Numeral

/-- Whether a threshold admits a value: a finite one admits what it is not exceeded by, and an
infinite one everything or nothing. -/
def Admits : Numeral → ℚ → Prop
  | .finite t, x => x ≤ t.toRat
  | .infinite negative, _ => negative = false
  | .nan _ _ _, _ => False

theorem Admits.mono {t : Numeral} {x y : ℚ} (h : t.Admits y) (hxy : x ≤ y) : t.Admits x := by
  cases t with
  | finite t => exact hxy.trans h
  | infinite => exact h
  | nan => exact h

theorem exceeds_eq_false_iff (d : Decimal) (t : Numeral) :
    exceeds (.finite d) t = .ok false ↔ t.Admits d.toRat := by
  cases t with
  | finite t =>
    simp [exceeds, isNan, order, Admits, compareValue_eq, compare_gt_iff_gt]
  | infinite negative => cases negative <;> simp [exceeds, isNan, order, Admits]
  | nan => simp [exceeds, isNan, Admits]

/-- A finite threshold can always be compared with. -/
theorem exists_exceeds_finite (d t : Decimal) :
    ∃ b, exceeds (.finite d) (.finite t) = .ok b := ⟨_, rfl⟩

end Numeral

/-- The threshold of a policy lies above zero and is at most one. -/
def Policy.InRange (policy : Policy) : Prop :=
  ∃ t, policy.threshold = .finite t ∧ 0 < t.toRat ∧ t.toRat ≤ 1

theorem Policy.usual_inRange : usual.InRange := by
  refine ⟨⟨false, 95, -2⟩, rfl, ?_, ?_⟩ <;> norm_num [toRat, signed, magnitude]

/-! ## Ratios -/

namespace Decimal

variable {m n d r : Decimal}

/-- A ratio is the exact quotient rounded twice, and 28 digits are enough for it. -/
theorem ratio_spec (hn : 0 ≤ n.toRat) (hd : 0 < d.toRat) (h : n.ratio d = .ok r) :
    r.toRat = atPlace (-4) (nearest (n.toRat / d.toRat)) ∧ n.toRat / d.toRat < limit ∧
      Rounding.halfUp.nearest (nearest (n.toRat / d.toRat) / 10 ^ (-4 : ℤ)) < 10 ^ 28 := by
  obtain ⟨q, hq, h⟩ := bind_eq_ok.1 h
  have hc : d.coeff ≠ 0 := fun hc => hd.ne' (toRat_of_coeff_eq_zero hc)
  have hx : 0 ≤ n.toRat / d.toRat := div_nonneg hn hd.le
  have hquot := div_rounds n hc
  have hquant := quantize_quantizes q (e := -4) (by decide) (by decide)
  rw [hq, Rounds, rounded_of_nonneg hx, abs_of_nonneg hx] at hquot
  rw [h, Quantizes, hquot.1, quantized_of_nonneg (nearest_nonneg _),
    abs_of_nonneg (nearest_nonneg _)] at hquant
  exact ⟨hquant.1, hquot.2, hquant.2⟩

/-- A ratio has a value as long as 28 digits are enough for it. -/
theorem exists_ratio (hn : 0 ≤ n.toRat) (hd : 0 < d.toRat) (hlimit : n.toRat / d.toRat < limit)
    (hdigits : Rounding.halfUp.nearest (nearest (n.toRat / d.toRat) / 10 ^ (-4 : ℤ)) < 10 ^ 28) :
    ∃ r, n.ratio d = .ok r := by
  have hc : d.coeff ≠ 0 := fun hc => hd.ne' (toRat_of_coeff_eq_zero hc)
  have hx : 0 ≤ n.toRat / d.toRat := div_nonneg hn hd.le
  obtain ⟨q, hq, hv⟩ := (div_rounds n hc).exists_ok (by rwa [abs_of_nonneg hx])
  rw [rounded_of_nonneg hx] at hv
  obtain ⟨r, hr, -⟩ := (quantize_quantizes q (e := -4) (by decide) (by decide)).exists_ok
    (by rwa [hv, abs_of_nonneg (nearest_nonneg _)])
  exact ⟨r, bind_eq_ok.2 ⟨q, hq, hr⟩⟩

/-- **A smaller part of the same whole has a ratio that is not larger.** -/
theorem ratio_mono (hm : 0 ≤ m.toRat) (hmn : m.toRat ≤ n.toRat) (hd : 0 < d.toRat)
    (h : n.ratio d = .ok r) : ∃ r', m.ratio d = .ok r' ∧ r'.toRat ≤ r.toRat := by
  have hn := hm.trans hmn
  have hdiv : m.toRat / d.toRat ≤ n.toRat / d.toRat := div_le_div_of_nonneg_right hmn hd.le
  have hm0 : 0 ≤ m.toRat / d.toRat := div_nonneg hm hd.le
  have hnear := nearest_mono hm0 hdiv
  obtain ⟨hr, hlimit, hdigits⟩ := ratio_spec hn hd h
  have hround := Rounding.nearest_mono (m := .halfUp)
    (div_nonneg (nearest_nonneg _) (ten_zpow_pos (-4)).le)
    (div_le_div_of_nonneg_right hnear (ten_zpow_pos (-4)).le)
  obtain ⟨r', hr'⟩ := exists_ratio hm hd (hdiv.trans_lt hlimit) (hround.trans_lt hdigits)
  refine ⟨r', hr', ?_⟩
  rw [(ratio_spec hm hd hr').1, hr]
  exact atPlace_mono (nearest_nonneg _) hnear

/-- Half a unit above a number of units of the fourth place, 28 digits are enough. -/
theorem nearest_tie {k : ℕ} (hk : k ≤ 10 ^ 26) :
    nearest ((k + 1 / 2) * 10 ^ (-4 : ℤ)) = (k + 1 / 2) * 10 ^ (-4 : ℤ) := by
  refine nearest_eq_self (10 * k + 5) (e := -5) ?_ (by omega) (by decide)
  push_cast
  norm_num
  ring

/-- What rounds to at most so many units of the fourth place is less than half a unit above them. -/
theorem atPlace_le_iff {k : ℕ} {x : ℚ} (hx : 0 ≤ x) :
    atPlace (-4) x ≤ k * 10 ^ (-4 : ℤ) ↔ x < (k + 1 / 2) * 10 ^ (-4 : ℤ) := by
  rw [atPlace, mul_le_mul_iff_of_pos_right (ten_zpow_pos (-4)), Nat.cast_le,
    Rounding.nearest_le_iff (div_nonneg hx (ten_zpow_pos (-4)).le), div_lt_iff₀ (ten_zpow_pos (-4))]
  simp

/-- A ratio that is at most a number of units of the fourth place belongs to a part that is less
than half a unit above it. -/
theorem lt_of_ratio_le {k : ℕ} (hk : k ≤ 10 ^ 4) (hn : 0 ≤ n.toRat) (hd : 0 < d.toRat)
    (h : n.ratio d = .ok r) (hr : r.toRat ≤ k * 10 ^ (-4 : ℤ)) :
    n.toRat < (k + 1 / 2) * 10 ^ (-4 : ℤ) * d.toRat := by
  rw [← div_lt_iff₀ hd]
  by_contra hle
  have hmono := nearest_mono (by positivity) (not_lt.1 hle)
  rw [nearest_tie (by omega)] at hmono
  rw [(ratio_spec hn hd h).1, atPlace_le_iff (nearest_nonneg _)] at hr
  exact hmono.not_gt hr

/-- A ratio is a number of units of the fourth place. -/
theorem ratio_le_of_lt {k : ℕ} (hn : 0 ≤ n.toRat) (hd : 0 < d.toRat) (h : n.ratio d = .ok r)
    (hr : r.toRat < (k + 1) * 10 ^ (-4 : ℤ)) : r.toRat ≤ k * 10 ^ (-4 : ℤ) := by
  rw [(ratio_spec hn hd h).1, atPlace] at hr ⊢
  have hlt : Rounding.halfUp.nearest (nearest (n.toRat / d.toRat) / 10 ^ (-4 : ℤ)) < k + 1 := by
    exact_mod_cast lt_of_mul_lt_mul_right hr (ten_zpow_pos (-4)).le
  exact mul_le_mul_of_nonneg_right (by exact_mod_cast Nat.lt_succ_iff.1 hlt) (ten_zpow_pos (-4)).le

/-- A part whose ratio is at most one is larger than the whole by less than half a unit of the
fourth place. -/
theorem lt_of_ratio_le_one (hn : 0 ≤ n.toRat) (hd : 0 < d.toRat) (h : n.ratio d = .ok r)
    (hr : r.toRat ≤ 1) : n.toRat < 20001 / 20000 * d.toRat := by
  have hlt := lt_of_ratio_le le_rfl hn hd h (k := 10 ^ 4) (hr.trans_eq (by norm_num))
  norm_num at hlt
  exact hlt

/-- A part whose ratio is below one is smaller than the whole. -/
theorem le_of_ratio_lt_one (hn : 0 ≤ n.toRat) (hd : 0 < d.toRat) (h : n.ratio d = .ok r)
    (hr : r.toRat < 1) : n.toRat ≤ d.toRat := by
  have hle := ratio_le_of_lt hn hd h (k := 9999) (hr.trans_eq (by norm_num))
  have hlt := lt_of_ratio_le (by norm_num) hn hd h hle
  norm_num at hlt
  linarith

/-- A ratio that is not huge has a value. -/
theorem exists_ratio_of_le {c : ℚ} (hn : 0 ≤ n.toRat) (hd : 0 < d.toRat)
    (h : n.toRat ≤ c * d.toRat) (hc : c ≤ 10 ^ 22) : ∃ r, n.ratio d = .ok r := by
  have hx : 0 ≤ n.toRat / d.toRat := div_nonneg hn hd.le
  have hle : n.toRat / d.toRat ≤ 10 ^ 22 := ((div_le_iff₀ hd).2 h).trans hc
  have hnear := nearest_le_two_mul hx
  refine exists_ratio hn hd (lt_limit_of_lt (e := 23) (by decide) (by norm_num; linarith)) ?_
  have hround := Rounding.nearest_le_two_mul (m := .halfUp)
    (div_nonneg (nearest_nonneg (n.toRat / d.toRat)) (ten_zpow_pos (-4)).le)
  have hsmall : nearest (n.toRat / d.toRat) / 10 ^ (-4 : ℤ) ≤ 2 * 10 ^ 26 := by
    norm_num
    linarith
  have hlt : (Rounding.halfUp.nearest (nearest (n.toRat / d.toRat) / 10 ^ (-4 : ℤ)) : ℚ) <
      ((10 ^ 28 : ℕ) : ℚ) := by
    push_cast
    linarith
  exact Nat.cast_lt.1 hlt

end Decimal

end Stowage
