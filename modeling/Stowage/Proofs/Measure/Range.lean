import Stowage.Proofs.Binary64.Nearest
import Stowage.Proofs.Measure.Volume

/-!
# Measures in range

The amounts that eight digits before the point and four after it can hold (`Amount.InRange`). Stored
in binary floating point and fetched with four places, an amount in range comes back in range
(`Amount.exists_fourPlaces`).

What is made of sides that are not huge has a result: a conversion, a volume and a volume to sort
by, as long as no conversion underflows (`Dimensions.Robust`), which no side in range does. The
sides and the weight of an item in a request have no least value.
-/

namespace Stowage

open Decimal

/-! ## Amounts -/

namespace Amount

/-- At least one unit of the fourth place, and at most eight digits before the point. -/
def InRange (a : Amount) : Prop := 1 / 10000 ≤ a.value.toRat ∧ a.value.toRat ≤ 10 ^ (8 : ℤ)

theorem negative_eq_false (a : Amount) : a.value.negative = false := by
  have h := a.positive
  simp only [Decimal.isPositive, Bool.and_eq_true, Bool.not_eq_true'] at h
  exact h.1

theorem magnitude_eq (a : Amount) : a.value.magnitude = a.value.toRat := by
  rw [toRat, signed, a.negative_eq_false]
  rfl

theorem exists_ofDecimal (what : Measured) {d : Decimal} (h : 0 < d.toRat) :
    ∃ a : Amount, ofDecimal what d = .ok a ∧ a.value = d := by
  have hpos := (isPositive_iff d).2 h
  exact ⟨⟨d, hpos⟩, by simp [ofDecimal, ofDecimal?, hpos], rfl⟩

/-- A product of an amount can be measured again, when it neither underflows nor overflows. -/
theorem exists_mul_of_inBounds (a : Amount) (what : Measured) {f : Decimal} (hf : 0 < f.toRat)
    (h : InBounds (a.value.toRat * f.toRat)) : ∃ v a', a.value.mul f = .ok v ∧
      ofDecimal what v = .ok a' ∧ a'.value.toRat = nearest (a.value.toRat * f.toRat) := by
  have hpos := mul_pos a.toRat_pos hf
  obtain ⟨v, hv, hval⟩ := (mul_rounds a.value f).exists_ok (by rw [abs_of_pos hpos]; exact h.2)
  rw [rounded_of_nonneg hpos.le] at hval
  obtain ⟨a', ha', rfl⟩ := exists_ofDecimal what (hval ▸ nearest_pos hpos h.1)
  exact ⟨_, a', hv, ha', hval⟩

/-- What an amount is multiplied with can be measured again, unless the product underflows. -/
theorem exists_mul_of_not_underflows (a : Amount) (what : Measured) {f : Decimal} {n : ℕ}
    (hf : 0 < f.toRat) (hle : a.value.toRat * f.toRat ≤ n) (hn : n ≤ 10 ^ 28)
    (h : ¬ Underflows (a.value.toRat * f.toRat)) :
    ∃ v a', a.value.mul f = .ok v ∧ ofDecimal what v = .ok a' ∧ a'.value.toRat ≤ n := by
  have hlarge : (n : ℚ) < 10 ^ (30 : ℤ) :=
    lt_of_le_of_lt (Nat.cast_le.2 hn) (by norm_num)
  obtain ⟨v, a', hv, ha', hval⟩ :=
    a.exists_mul_of_inBounds what hf ⟨h, lt_limit_of_lt (by decide) (hle.trans_lt hlarge)⟩
  exact ⟨v, a', hv, ha', hval ▸ nearest_le_natCast (mul_pos a.toRat_pos hf).le hle hn⟩

/-- **An amount in range comes back in range** after it was stored. -/
theorem exists_fourPlaces {a : Amount} (h : a.InRange) (what : Measured) :
    ∃ a' : Amount, ofNumeral what a.toBinary.fourPlaces = .ok a' ∧ a'.InRange := by
  rw [InRange, ← a.magnitude_eq] at h
  obtain ⟨c, hc, hpos, hle⟩ := Binary64.exists_fourPlaces h.1 h.2
  have hpos' : (1 : ℚ) ≤ c := by exact_mod_cast hpos
  have hle' : (c : ℚ) ≤ 10 ^ 12 := by exact_mod_cast hle
  have hvalue : toRat ⟨false, c, -4⟩ = c / 10000 := by
    norm_num [toRat, signed, magnitude, div_eq_mul_inv]
  obtain ⟨a', ha', hval⟩ := exists_ofDecimal what (d := ⟨false, c, -4⟩) (by
    rw [hvalue]
    positivity)
  rw [a.negative_eq_false] at hc
  refine ⟨a', by rw [toBinary, hc]; exact ha', ?_⟩
  rw [InRange, hval, hvalue]
  norm_num
  constructor <;> linarith

end Amount

/-! ## Boxes -/

theorem LengthUnit.le_factor (a b : LengthUnit) : 1 / 10 ≤ (a.factor b).toRat := by
  cases a <;> cases b <;> norm_num [factor, toRat, signed, magnitude]

namespace Dimensions

variable {d : Dimensions}

/-- All sides are in range. -/
def InRange (d : Dimensions) : Prop := d.length.InRange ∧ d.width.InRange ∧ d.height.InRange

theorem InRange.sides (h : d.InRange) :
    ∀ x ∈ d.sides, 1 / 10000 ≤ x.toRat ∧ x.toRat ≤ 10 ^ (8 : ℤ) := forall_mem_sides.2 h

/-- No side underflows in a conversion. -/
def Robust (d : Dimensions) : Prop :=
  ∀ unit, unit ≠ d.unit → ∀ x ∈ d.sides, ¬ Underflows (x.toRat * (d.unit.factor unit).toRat)

/-- No side in range underflows. -/
theorem InRange.robust (h : d.InRange) : d.Robust := by
  intro unit _ x hx
  obtain ⟨hlow, hhigh⟩ := h.sides x hx
  have hle := mul_le_mul hlow (d.unit.le_factor unit) (by norm_num) (by linarith)
  exact not_underflows (le_trans (by norm_num) hle)

/-- A box that is not huge can be converted as long as no side is lost. -/
theorem exists_convertTo (hle : ∀ x ∈ d.sides, x.toRat ≤ 10 ^ (8 : ℤ)) (hrobust : d.Robust)
    (unit : LengthUnit) :
    ∃ d', d.convertTo unit = .ok d' ∧ ∀ x ∈ d'.sides, x.toRat ≤ (3 * 10 ^ 8 : ℕ) := by
  unfold convertTo
  split_ifs with hu
  · exact ⟨d, rfl, fun x hx => (hle x hx).trans (by norm_num)⟩
  · have hf := d.unit.factor_pos unit
    have hside {a : Amount} (ha : a.value ∈ d.sides) (what : Measured) :=
      a.exists_mul_of_not_underflows what (n := 3 * 10 ^ 8) hf
        ((mul_le_mul (hle _ ha) (d.unit.factor_le unit) hf.le (by norm_num)).trans (by norm_num))
        (by norm_num) (hrobust unit hu a.value ha)
    obtain ⟨l, l', hl, hl', hlle⟩ := hside (by simp [sides] : d.length.value ∈ d.sides) .length
    obtain ⟨w, w', hw, hw', hwle⟩ := hside (by simp [sides] : d.width.value ∈ d.sides) .width
    obtain ⟨t, t', ht, ht', htle⟩ := hside (by simp [sides] : d.height.value ∈ d.sides) .height
    refine ⟨⟨l', w', t', unit⟩, ?_, forall_mem_sides.2 ⟨hlle, hwle, htle⟩⟩
    simp [hl, hw, ht, ofDecimals, hl', hw', ht', Fallible.ofDecimal, Except.mapError]

/-- A box that is not huge has a volume, however small it is. -/
theorem exists_volume (h : ∀ x ∈ d.sides, x.toRat ≤ (3 * 10 ^ 8 : ℕ)) :
    ∃ v, d.volume = .ok v := by
  obtain ⟨hl, hw, hh⟩ := forall_mem_sides.1 h
  have hl0 := d.length.toRat_pos.le
  have hw0 := d.width.toRat_pos.le
  have hh0 := d.height.toRat_pos.le
  have hface := mul_le_mul hl hw hw0 (by norm_num)
  obtain ⟨area, hmul, hval⟩ := exists_mul hl0 hw0 (hface.trans_lt (by norm_num))
  have harea0 : 0 ≤ area.toRat := hval ▸ nearest_nonneg _
  have harea : area.toRat ≤ (9 * 10 ^ 16 : ℕ) := by
    rw [hval]
    exact nearest_le_natCast (mul_nonneg hl0 hw0) (hface.trans (by norm_num)) (by norm_num)
  have hbox := mul_le_mul harea hh hh0 (by norm_num)
  obtain ⟨product, hmul', hval'⟩ := exists_mul harea0 hh0 (hbox.trans_lt (by norm_num))
  have hproduct : product.toRat ≤ (27 * 10 ^ 24 : ℕ) := by
    rw [hval']
    exact nearest_le_natCast (mul_nonneg harea0 hh0) (hbox.trans (by norm_num)) (by norm_num)
  obtain ⟨v, hv⟩ := exists_quantize (hval' ▸ nearest_nonneg _) (hproduct.trans (by norm_num))
  exact ⟨v, bind_eq_ok.2 ⟨area, hmul, bind_eq_ok.2 ⟨product, hmul', hv⟩⟩⟩

theorem exists_sortVolume (hle : ∀ x ∈ d.sides, x.toRat ≤ 10 ^ (8 : ℤ)) (hrobust : d.Robust) :
    ∃ v, d.sortVolume = .ok v := by
  obtain ⟨d', hd', hsides⟩ := exists_convertTo hle hrobust .centimeters
  obtain ⟨v, hv⟩ := exists_volume hsides
  exact ⟨v, bind_eq_ok.2 ⟨d', hd', Fallible.ofDecimal_eq_ok.2 hv⟩⟩

theorem InRange.exists_volume (h : d.InRange) : ∃ v, d.volume = .ok v :=
  Dimensions.exists_volume fun x hx => (h.sides x hx).2.trans (by norm_num)

theorem InRange.exists_sortVolume (h : d.InRange) : ∃ v, d.sortVolume = .ok v :=
  Dimensions.exists_sortVolume (fun x hx => (h.sides x hx).2) h.robust

/-- The sides that a request may have are not huge. -/
theorem Bounded.le (h : d.Bounded) : ∀ x ∈ d.sides, x.toRat ≤ 10 ^ (8 : ℤ) := fun x hx =>
  (h x hx).trans (by norm_num)

end Dimensions

/-! ## Weights -/

theorem WeightUnit.le_factor (a b : WeightUnit) : 1 / 10 ≤ (a.factor b).toRat := by
  cases a <;> cases b <;> norm_num [factor, toRat, signed, magnitude]

theorem WeightUnit.factor_le (a b : WeightUnit) : (a.factor b).toRat ≤ 3 := by
  cases a <;> cases b <;> norm_num [factor, toRat, signed, magnitude]

namespace Weight

variable {w : Weight}

/-- The weight does not underflow in a conversion. -/
def Robust (w : Weight) : Prop :=
  ∀ unit, unit ≠ w.unit → ¬ Underflows (w.value.value.toRat * (w.unit.factor unit).toRat)

/-- A weight in range does not underflow. -/
theorem robust_of_inRange (h : w.value.InRange) : w.Robust := by
  intro unit _
  have hlow := mul_le_mul h.1 (w.unit.le_factor unit) (by norm_num) w.value.toRat_pos.le
  exact not_underflows (le_trans (by norm_num) hlow)

/-- A weight that is neither huge nor lost can be converted. -/
theorem exists_convertTo (hw : w.value.value.toRat ≤ 10 ^ (8 : ℤ)) (hrobust : w.Robust)
    (unit : WeightUnit) : ∃ w', w.convertTo unit = .ok w' := by
  unfold convertTo
  split_ifs with hu
  · exact ⟨w, rfl⟩
  · have hf := w.unit.factor_pos unit
    have hle := mul_le_mul hw (w.unit.factor_le unit) hf.le (by norm_num)
    obtain ⟨v, a, hv, ha, -⟩ := w.value.exists_mul_of_not_underflows .weight (n := 3 * 10 ^ 8) hf
      (hle.trans (by norm_num)) (by norm_num) (hrobust unit hu)
    refine ⟨⟨a, unit⟩, bind_eq_ok.2 ⟨v, Fallible.ofDecimal_eq_ok.2 hv, ?_⟩⟩
    simp [ofDecimal, ha]

end Weight

end Stowage
