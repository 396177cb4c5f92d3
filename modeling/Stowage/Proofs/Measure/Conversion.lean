import Stowage.Proofs.Decimal.Rounds
import Stowage.Proofs.Failure.Fallible
import Stowage.Item.Attribute

/-!
# Measures and their conversion

What a conversion of a weight or of a box multiplies by, the value of a volume, and how far either
can be from the exact figure. Conversions and volumes of known measures break off only by a signal.
-/

namespace Stowage

open Decimal

variable {whole : Prop}

/-! ## Amounts -/

namespace Amount

theorem toRat_pos (a : Amount) : 0 < a.value.toRat := (isPositive_iff a.value).1 a.positive

theorem value_of_ofDecimal {what : Measured} {d : Decimal} {a : Amount}
    (h : ofDecimal what d = .ok a) : a.value = d := by
  unfold ofDecimal ofDecimal? at h
  split_ifs at h
  · cases h
    rfl
  · cases h

theorem signals_ofDecimal (what : Measured) (d : Decimal) : Signals whole (ofDecimal what d) := by
  unfold ofDecimal
  split
  · exact .ok _
  · exact .error trivial

end Amount

theorem Attribute.get_eq_ok {α : Type} {x : Attribute α} {a : α} :
    x.get = .ok a ↔ x = .known a := by
  cases x <;> simp [get]

/-- A measure is there, and is one. -/
def Attribute.IsKnown {α : Type} (x : Attribute α) : Prop := ∃ a, x = .known a

theorem Attribute.signals_get {α : Type} {x : Attribute α} (h : whole → x.IsKnown) :
    Signals whole x.get := by
  cases x with
  | known a => exact .ok a
  | missing | unusable => exact .defect trivial fun hwhole => nomatch h hwhole

/-! ## Weights -/

namespace WeightUnit

theorem factor_pos (a b : WeightUnit) : 0 < (a.factor b).toRat := by
  cases a <;> cases b <;> norm_num [factor, toRat, signed, magnitude]

/-- Converting a weight and converting it back does not gain anything. -/
theorem factor_mul_factor_le (a b : WeightUnit) : (a.factor b).toRat * (b.factor a).toRat ≤ 1 := by
  cases a <;> cases b <;> norm_num [factor, toRat, signed, magnitude]

end WeightUnit

namespace Weight

/-- A converted weight is the product with the factor between the units, rounded. -/
theorem toRat_of_convertTo {w w' : Weight} {unit : WeightUnit} (h : w.convertTo unit = .ok w') :
    w'.unit = unit ∧ (unit = w.unit ∧ w' = w ∨
      w'.value.value.toRat = rounded (w.value.value.toRat * (w.unit.factor unit).toRat)) := by
  unfold convertTo at h
  split_ifs at h with hu
  · cases h
    exact ⟨hu.symm, Or.inl ⟨hu, rfl⟩⟩
  · obtain ⟨v, hv, h⟩ := bind_eq_ok.1 h
    obtain ⟨a, ha, h⟩ := bind_eq_ok.1 h
    cases h
    refine ⟨rfl, Or.inr ?_⟩
    rw [Amount.value_of_ofDecimal ha]
    exact (mul_rounds _ _).toRat_eq (Fallible.ofDecimal_eq_ok.1 hv)

theorem signals_convertTo (w : Weight) (unit : WeightUnit) : Signals whole (w.convertTo unit) :=
  .ite (.ok _) (.bind (.ofDecimal _) fun _ => .bind (Amount.signals_ofDecimal _ _) fun _ => .pure _)

theorem signals_isGreaterThan (w other : Weight) : Signals whole (w.isGreaterThan other) :=
  .bind (other.signals_convertTo w.unit) fun _ => .pure _

/-- Rounding makes a converted weight at most twice as large. -/
theorem toRat_convertTo_le {w w' : Weight} {unit : WeightUnit} (h : w.convertTo unit = .ok w')
    (hu : unit ≠ w.unit) :
    w'.value.value.toRat ≤ 2 * (w.value.value.toRat * (w.unit.factor unit).toRat) := by
  obtain ⟨-, ⟨heq, -⟩ | hr⟩ := toRat_of_convertTo h
  · exact absurd heq hu
  · have hx := mul_nonneg w.value.toRat_pos.le (w.unit.factor_pos unit).le
    rw [hr, rounded_of_nonneg hx]
    exact nearest_le_two_mul hx

/-- A weight that is not above another one is, in the unit of the other, not much larger. -/
theorem toRat_le_of_not_greater {w m w' : Weight} (h : w.isGreaterThan m = .ok false)
    (hw : w.convertTo m.unit = .ok w') : w'.value.value.toRat ≤ 4 * m.value.value.toRat := by
  obtain ⟨m', hm', h⟩ := bind_eq_ok.1 h
  have hle : w.value.value.toRat ≤ m'.value.value.toRat :=
    (lt_eq_false_iff _ _).1 (pure_eq_ok.1 h)
  have hm := m.value.toRat_pos
  by_cases hu : m.unit = w.unit
  · rw [convertTo, if_pos hu] at hw
    rw [convertTo, if_pos hu.symm] at hm'
    cases hw
    cases hm'
    linarith
  · have hw2 := toRat_convertTo_le hw hu
    have hm2 := toRat_convertTo_le hm' (Ne.symm hu)
    have hg := w.unit.factor_pos m.unit
    have hscaled := mul_le_mul_of_nonneg_right (hle.trans hm2) hg.le
    have hround := mul_le_mul_of_nonneg_left (m.unit.factor_mul_factor_le w.unit) hm.le
    linarith

end Weight

/-! ## Boxes -/

namespace Dimensions

/-- The exact product of the sides. -/
def exactVolume (d : Dimensions) : ℚ :=
  d.length.value.toRat * d.width.value.toRat * d.height.value.toRat

theorem signals_ofDecimals (l w h : Decimal) (unit : LengthUnit) :
    Signals whole (ofDecimals l w h unit) :=
  .bind (Amount.signals_ofDecimal _ _) fun _ => .bind (Amount.signals_ofDecimal _ _) fun _ =>
    .bind (Amount.signals_ofDecimal _ _) fun _ => .pure _

theorem signals_convertTo (d : Dimensions) (unit : LengthUnit) : Signals whole (d.convertTo unit) :=
  .ite (.ok _) (.bind (.ofDecimal _) fun _ => .bind (.ofDecimal _) fun _ =>
    .bind (.ofDecimal _) fun _ => signals_ofDecimals _ _ _ _)

theorem signals_canContain (outer inner : Dimensions) : Signals whole (outer.canContain inner) :=
  .bind (inner.signals_convertTo outer.unit) fun _ => .pure _

theorem signals_sortVolume (d : Dimensions) : Signals whole d.sortVolume :=
  .bind (d.signals_convertTo .centimeters) fun _ => .ofDecimal _

/-- The volume is the exact one but for three roundings. -/
theorem toRat_of_volume {d : Dimensions} {v : Decimal} (h : d.volume = .ok v) :
    v.toRat = atPlace (-2) (nearest (nearest (d.length.value.toRat * d.width.value.toRat)
      * d.height.value.toRat)) := by
  obtain ⟨area, harea, h⟩ := bind_eq_ok.1 h
  obtain ⟨product, hproduct, h⟩ := bind_eq_ok.1 h
  have ha := (mul_rounds _ _).toRat_eq harea
  have hp := (mul_rounds _ _).toRat_eq hproduct
  have hq := quantize_quantizes product (e := -2) (by decide) (by decide)
  rw [h] at hq
  have hlw := mul_pos d.length.toRat_pos d.width.toRat_pos
  rw [rounded_of_nonneg hlw.le] at ha
  rw [ha, rounded_of_nonneg (mul_nonneg (nearest_nonneg _) d.height.toRat_pos.le)] at hp
  rw [hq.1, hp, quantized_of_nonneg (nearest_nonneg _)]

theorem volume_nonneg {d : Dimensions} {v : Decimal} (h : d.volume = .ok v) : 0 ≤ v.toRat := by
  rw [toRat_of_volume h]
  exact atPlace_nonneg _ _

/-- A volume has at most 26 digits before the point. -/
theorem volume_lt {d : Dimensions} {v : Decimal} (h : d.volume = .ok v) :
    v.toRat < 10 ^ (26 : ℤ) := by
  obtain ⟨area, harea, h⟩ := bind_eq_ok.1 h
  obtain ⟨product, hproduct, h⟩ := bind_eq_ok.1 h
  have hlw := mul_pos d.length.toRat_pos d.width.toRat_pos
  have ha : 0 ≤ area.toRat := by
    rw [(mul_rounds _ _).toRat_eq harea]
    exact rounded_nonneg hlw.le
  have hp : 0 ≤ product.toRat := by
    rw [(mul_rounds _ _).toRat_eq hproduct]
    exact rounded_nonneg (mul_nonneg ha d.height.toRat_pos.le)
  have hq := quantize_quantizes product (e := -2) (by decide) (by decide)
  rw [h] at hq
  exact hq.lt hp

/-- A volume that does not round to zero is at least a hundredth. -/
theorem hundredth_le_of_volume {d : Dimensions} {v : Decimal} (h : d.volume = .ok v)
    (hv : 0 < v.toRat) : 1 / 100 ≤ v.toRat := by
  rw [toRat_of_volume h] at hv ⊢
  have hunit := ten_zpow_le_atPlace hv.ne'
  norm_num at hunit
  exact hunit

/-- Rounding makes a volume at most four times as large, and half a hundredth larger. -/
theorem volume_le {d : Dimensions} {v : Decimal} (h : d.volume = .ok v) :
    v.toRat ≤ 4 * d.exactVolume + 1 / 200 := by
  have hlw := mul_pos d.length.toRat_pos d.width.toRat_pos
  have hh := d.height.toRat_pos
  have harea := nearest_le_two_mul hlw.le
  have hn := mul_nonneg (nearest_nonneg (d.length.value.toRat * d.width.value.toRat)) hh.le
  have hprod := nearest_le_two_mul hn
  have hscaled := mul_le_mul_of_nonneg_right harea hh.le
  have hplace := atPlace_le_add_half (e := -2)
    (nearest_nonneg (nearest (d.length.value.toRat * d.width.value.toRat) * d.height.value.toRat))
  rw [toRat_of_volume h, exactVolume]
  norm_num at hplace
  linarith

/-- A volume that does not round to zero is not much smaller than the exact one. -/
theorem exactVolume_le {d : Dimensions} {v : Decimal} (h : d.volume = .ok v) (hv : 0 < v.toRat) :
    d.exactVolume ≤ 8 * v.toRat := by
  rw [toRat_of_volume h] at hv ⊢
  have hlw := mul_pos d.length.toRat_pos d.width.toRat_pos
  have hh := d.height.toRat_pos
  have hn := mul_nonneg (nearest_nonneg (d.length.value.toRat * d.width.value.toRat)) hh.le
  have hprod0 : nearest (nearest (d.length.value.toRat * d.width.value.toRat)
      * d.height.value.toRat) ≠ 0 := fun h0 => hv.ne' (by rw [h0, atPlace_zero])
  have harea0 : nearest (d.length.value.toRat * d.width.value.toRat) ≠ 0 :=
    fun h0 => hprod0 (by rw [h0, zero_mul, nearest_zero])
  have harea := le_two_mul_nearest hlw.le harea0
  have hprod := le_two_mul_nearest hn hprod0
  have hscaled := mul_le_mul_of_nonneg_right harea hh.le
  have hplace := le_two_mul_atPlace (e := -2) (nearest_nonneg _) hv.ne'
  rw [exactVolume]
  linarith

end Dimensions

end Stowage
