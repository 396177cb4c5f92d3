import Stowage.Proofs.Decimal.Error
import Stowage.Proofs.Measure.Fit

/-!
# Rounded and exact volumes

A volume is rounded to hundredths, so the exact volume of a box may be half a hundredth more than
the one that is counted (`exactVolumeIn_le`), or half a hundredth less
(`volume_le_exactVolumeIn`). The other roundings, of converted sides and of products, matter for a
factor of `drift` each. Boxes with a side so small that a rounding could lose it altogether have
next to no volume and do not count (`le_sides_of_exactVolumeIn`).
-/

namespace Stowage

open Decimal

namespace LengthUnit

theorem factor_pos (a b : LengthUnit) : 0 < (a.factor b).toRat := by
  cases a <;> cases b <;> norm_num [factor, toRat, signed, magnitude]

theorem factor_le (a b : LengthUnit) : (a.factor b).toRat ≤ 254 / 100 := by
  cases a <;> cases b <;> norm_num [factor, toRat, signed, magnitude]

@[simp] theorem factor_self (a : LengthUnit) : (a.factor a).toRat = 1 := by
  cases a <;> norm_num [factor, toRat, signed, magnitude]

end LengthUnit

theorem Amount.ofDecimal_value (what : Measured) (a : Amount) : ofDecimal what a.value = .ok a := by
  simp [ofDecimal, ofDecimal?, a.positive]

namespace Dimensions

/-! ## Sides -/

/-- The three sides. -/
def sides (d : Dimensions) : List Decimal := [d.length.value, d.width.value, d.height.value]

theorem forall_mem_sides {d : Dimensions} {P : Decimal → Prop} :
    (∀ x ∈ d.sides, P x) ↔ P d.length.value ∧ P d.width.value ∧ P d.height.value := by
  simp [sides]

/-- A side after a conversion: the exact product with the factor, or that rounded. -/
def Converted (f : ℚ) (a a' : Amount) : Prop :=
  a'.value.toRat = a.value.toRat * f ∨ a'.value.toRat = nearest (a.value.toRat * f)

namespace Converted

variable {f : ℚ} {a a' : Amount}

theorem of_mul {b : Decimal} (hb : 0 ≤ b.toRat) (h : a.value.mul b = .ok a'.value) :
    Converted b.toRat a a' := by
  right
  rw [(mul_rounds _ _).toRat_eq h, rounded_of_nonneg (mul_nonneg a.toRat_pos.le hb)]

theorem le_drift_mul (h : Converted f a a') (hx : 10 ^ (-99 : ℤ) ≤ a.value.toRat * f) :
    a.value.toRat * f ≤ drift * a'.value.toRat := by
  rcases h with h | h
  · rw [h]
    exact le_mul_of_one_le_left ((ten_zpow_pos _).le.trans hx) one_le_drift
  · rw [h]
    exact le_drift_mul_nearest hx

/-- A conversion adds a factor of at most `drift` to a side, or leaves it tiny. -/
theorem le_drift_mul_max (h : Converted f a a') (hf : 0 ≤ f) :
    a'.value.toRat ≤ drift * max (a.value.toRat * f) (10 ^ (-20 : ℤ)) := by
  have hx := mul_nonneg a.toRat_pos.le hf
  have hmax := le_max_left (a.value.toRat * f) (10 ^ (-20 : ℤ))
  rcases h with h | h
  · rw [h]
    exact hmax.trans (le_mul_of_one_le_left (hx.trans hmax) one_le_drift)
  · rw [h]
    exact (nearest_mono hx hmax).trans (nearest_le_drift_mul
      ((ten_zpow_le (by norm_num)).trans (le_max_right _ _)))

theorem le_two_mul (h : Converted f a a') (hf : 0 ≤ f) :
    a'.value.toRat ≤ 2 * (a.value.toRat * f) := by
  have hx := mul_nonneg a.toRat_pos.le hf
  rcases h with h | h
  · linarith
  · rw [h]
    exact nearest_le_two_mul hx

end Converted

variable {d d' outer : Dimensions} {unit : LengthUnit} {v : Decimal}

/-- A conversion multiplies side by side. -/
theorem convertTo_eq_ok (hu : unit ≠ d.unit) : d.convertTo unit = .ok d' ↔ d'.unit = unit ∧
    List.Forall₂ (fun x y => x.mul (d.unit.factor unit) = .ok y) d.sides d'.sides := by
  rw [convertTo, if_neg hu]
  constructor
  · intro h
    obtain ⟨l, hl, h⟩ := bind_eq_ok.1 h
    obtain ⟨w, hw, h⟩ := bind_eq_ok.1 h
    obtain ⟨t, ht, h⟩ := bind_eq_ok.1 h
    obtain ⟨l', hl', h⟩ := bind_eq_ok.1 h
    obtain ⟨w', hw', h⟩ := bind_eq_ok.1 h
    obtain ⟨t', ht', h⟩ := bind_eq_ok.1 h
    obtain rfl := pure_eq_ok.1 h
    obtain rfl := Amount.value_of_ofDecimal hl'
    obtain rfl := Amount.value_of_ofDecimal hw'
    obtain rfl := Amount.value_of_ofDecimal ht'
    rw [Fallible.ofDecimal_eq_ok] at hl hw ht
    exact ⟨rfl, .cons hl (.cons hw (.cons ht .nil))⟩
  · rintro ⟨rfl, h⟩
    simp only [sides, List.forall₂_cons] at h
    obtain ⟨hl, hw, ht, -⟩ := h
    simp [hl, hw, ht, ofDecimals, Amount.ofDecimal_value, Fallible.ofDecimal, Except.mapError]

theorem converted_of_convertTo (h : d.convertTo unit = .ok d') :
    Converted (d.unit.factor unit).toRat d.length d'.length ∧
      Converted (d.unit.factor unit).toRat d.width d'.width ∧
      Converted (d.unit.factor unit).toRat d.height d'.height := by
  by_cases hu : unit = d.unit
  · rw [convertTo, if_pos hu] at h
    cases h
    subst hu
    simp [Converted]
  · obtain ⟨-, hmul⟩ := (convertTo_eq_ok hu).1 h
    simp only [sides, List.forall₂_cons] at hmul
    obtain ⟨hl, hw, ht, -⟩ := hmul
    have hf := (d.unit.factor_pos unit).le
    exact ⟨.of_mul hf hl, .of_mul hf hw, .of_mul hf ht⟩

/-! ## Exact volumes -/

/-- The exact product of the sides converted to a unit. -/
def exactVolumeIn (d : Dimensions) (unit : LengthUnit) : ℚ :=
  d.length.value.toRat * (d.unit.factor unit).toRat *
    (d.width.value.toRat * (d.unit.factor unit).toRat) *
    (d.height.value.toRat * (d.unit.factor unit).toRat)

theorem exactVolume_pos (d : Dimensions) : 0 < d.exactVolume :=
  mul_pos (mul_pos d.length.toRat_pos d.width.toRat_pos) d.height.toRat_pos

/-- Rounding to hundredths takes at most half a hundredth from a volume. -/
theorem exactVolume_le_drift (h : d.volume = .ok v)
    (hsides : ∀ x ∈ d.sides, 10 ^ (-20 : ℤ) ≤ x.toRat) :
    d.exactVolume ≤ drift ^ 2 * (v.toRat + 1 / 200) := by
  obtain ⟨hl, hw, hh⟩ := forall_mem_sides.1 hsides
  have hplace := le_atPlace_add_half (e := -2)
    (nearest_nonneg (nearest (d.length.value.toRat * d.width.value.toRat) * d.height.value.toRat))
  rw [← toRat_of_volume h] at hplace
  norm_num at hplace
  exact (mul_mul_le_drift hl hw hh).trans
    (mul_le_mul_of_nonneg_left (by linarith) (pow_pos drift_pos 2).le)

/-- Rounding to hundredths adds at most half a hundredth to a volume. -/
theorem volume_le_drift (h : d.volume = .ok v)
    (hsides : ∀ x ∈ d.sides, 10 ^ (-20 : ℤ) ≤ x.toRat) :
    v.toRat ≤ drift ^ 2 * d.exactVolume + 1 / 200 := by
  obtain ⟨hl, hw, hh⟩ := forall_mem_sides.1 hsides
  have hplace := atPlace_le_add_half (e := -2)
    (nearest_nonneg (nearest (d.length.value.toRat * d.width.value.toRat) * d.height.value.toRat))
  rw [← toRat_of_volume h] at hplace
  norm_num at hplace
  have hround := le_drift_mul_mul hl hw hh
  rw [exactVolume]
  linarith

theorem isHundredths_volume (h : d.volume = .ok v) : IsHundredths v.toRat := by
  rw [toRat_of_volume h]
  exact isHundredths_atPlace _

/-! ## Volumes of bounded boxes -/

/-- No side is above 1000, in the unit of the box. -/
def Bounded (d : Dimensions) : Prop := ∀ x ∈ d.sides, x.toRat ≤ 1000

/-- A factor of a product that is not tiny, the others being bounded, is not tiny. -/
theorem ten_zpow_le_of_lt_mul {a b c : ℚ} (ha : 0 ≤ a) (hc : 0 ≤ c) (hb' : b ≤ 2540)
    (hc' : c ≤ 2540) (h : 1 / 200 < a * b * c) : 10 ^ (-10 : ℤ) ≤ a := by
  have hbc : b * c ≤ 2540 * 2540 := mul_le_mul hb' hc' hc (by norm_num)
  have habc := mul_le_mul_of_nonneg_left hbc ha
  norm_num
  linarith

variable (hd : d.Bounded) (hc : d.convertTo unit = .ok d')

include hd in
theorem toRat_mul_factor_le (unit : LengthUnit) {a : Amount} (ha : a.value ∈ d.sides) :
    a.value.toRat * (d.unit.factor unit).toRat ≤ 2540 := by
  have hf := mul_le_mul (hd _ ha) (d.unit.factor_le unit) (d.unit.factor_pos unit).le (by norm_num)
  norm_num at hf
  exact hf

include hd in
/-- A box with some volume has three sides that are not tiny. -/
theorem le_mul_factor_of_exactVolumeIn (h : 1 / 200 < d.exactVolumeIn unit) :
    10 ^ (-10 : ℤ) ≤ d.length.value.toRat * (d.unit.factor unit).toRat ∧
      10 ^ (-10 : ℤ) ≤ d.width.value.toRat * (d.unit.factor unit).toRat ∧
      10 ^ (-10 : ℤ) ≤ d.height.value.toRat * (d.unit.factor unit).toRat := by
  have hf := d.unit.factor_pos unit
  have hl := (mul_pos d.length.toRat_pos hf).le
  have hw := (mul_pos d.width.toRat_pos hf).le
  have hh := (mul_pos d.height.toRat_pos hf).le
  have hl' := toRat_mul_factor_le hd unit (a := d.length) (by simp [sides])
  have hw' := toRat_mul_factor_le hd unit (a := d.width) (by simp [sides])
  have hh' := toRat_mul_factor_le hd unit (a := d.height) (by simp [sides])
  rw [exactVolumeIn] at h
  refine ⟨ten_zpow_le_of_lt_mul hl hh hw' hh' h, ?_, ?_⟩
  · exact ten_zpow_le_of_lt_mul hw hl hh' hl' (by linarith)
  · exact ten_zpow_le_of_lt_mul hh hw hl' hw' (by linarith)

include hd hc in
/-- Nor are its sides tiny after the conversion. -/
theorem le_sides_of_exactVolumeIn (h : 1 / 200 < d.exactVolumeIn unit) :
    ∀ x ∈ d'.sides, 10 ^ (-20 : ℤ) ≤ x.toRat := by
  have hside {a a' : Amount} (hconv : Converted (d.unit.factor unit).toRat a a')
      (hx : 10 ^ (-10 : ℤ) ≤ a.value.toRat * (d.unit.factor unit).toRat) :
      10 ^ (-20 : ℤ) ≤ a'.value.toRat := by
    have hround := hconv.le_drift_mul ((ten_zpow_le (by norm_num)).trans hx)
    have hdrift := mul_le_mul_of_nonneg_right drift_le_two a'.toRat_pos.le
    have htwice := hx.trans (hround.trans hdrift)
    norm_num at htwice ⊢
    linarith
  obtain ⟨hl, hw, hh⟩ := converted_of_convertTo hc
  obtain ⟨hl', hw', hh'⟩ := le_mul_factor_of_exactVolumeIn hd h
  exact forall_mem_sides.2 ⟨hside hl hl', hside hw hw', hside hh hh'⟩

include hd hc in
/-- **A counted volume is not much less than the exact one**: half a hundredth, but for a factor of
`drift` for each of five roundings. -/
theorem exactVolumeIn_le (hv : d'.volume = .ok v) :
    d.exactVolumeIn unit ≤ drift ^ 5 * (v.toRat + 1 / 200) := by
  have hv0 := volume_nonneg hv
  rcases le_or_gt (d.exactVolumeIn unit) (1 / 200) with hE | hE
  · calc d.exactVolumeIn unit ≤ v.toRat + 1 / 200 := by linarith
      _ ≤ drift ^ 5 * (v.toRat + 1 / 200) :=
        le_mul_of_one_le_left (by linarith) (one_le_pow₀ one_le_drift)
  · obtain ⟨hl, hw, hh⟩ := converted_of_convertTo hc
    obtain ⟨hl', hw', hh'⟩ := le_mul_factor_of_exactVolumeIn hd hE
    have htiny : (10 : ℚ) ^ (-99 : ℤ) ≤ 10 ^ (-10 : ℤ) := ten_zpow_le (by norm_num)
    have hpos (a : Amount) : 0 ≤ drift * a.value.toRat := mul_nonneg drift_pos.le a.toRat_pos.le
    have hf := d.unit.factor_pos unit
    calc d.exactVolumeIn unit
        ≤ drift * d'.length.value.toRat * (drift * d'.width.value.toRat) *
            (drift * d'.height.value.toRat) := by
          refine mul_le_mul (mul_le_mul (hl.le_drift_mul (htiny.trans hl'))
            (hw.le_drift_mul (htiny.trans hw')) ?_ (hpos _)) (hh.le_drift_mul (htiny.trans hh')) ?_
            (mul_nonneg (hpos _) (hpos _))
          · exact (mul_pos d.width.toRat_pos hf).le
          · exact (mul_pos d.height.toRat_pos hf).le
      _ = drift ^ 3 * d'.exactVolume := by
          rw [exactVolume]
          ring
      _ ≤ drift ^ 3 * (drift ^ 2 * (v.toRat + 1 / 200)) := mul_le_mul_of_nonneg_left
          (exactVolume_le_drift hv (le_sides_of_exactVolumeIn hd hc hE)) (pow_pos drift_pos 3).le
      _ = drift ^ 5 * (v.toRat + 1 / 200) := by ring

/-- Making each side of a bounded box at least tiny adds next to nothing to its volume. -/
theorem mul_max_le {a b c : ℚ} (ha : 0 ≤ a) (hb : 0 ≤ b) (hc : 0 ≤ c) (ha' : a ≤ 2540)
    (hb' : b ≤ 2540) (hc' : c ≤ 2540) :
    max a (10 ^ (-20 : ℤ)) * max b (10 ^ (-20 : ℤ)) * max c (10 ^ (-20 : ℤ)) ≤
      a * b * c + 10 ^ (-12 : ℤ) := by
  have hpos := (ten_zpow_pos (-20)).le
  have hmax {x : ℚ} (hx : 0 ≤ x) : max x (10 ^ (-20 : ℤ)) ≤ x + 10 ^ (-20 : ℤ) :=
    max_le (le_add_of_nonneg_right hpos) (le_add_of_nonneg_left hx)
  have hab : a * b ≤ 2540 * 2540 := mul_le_mul ha' hb' hb (by norm_num)
  calc max a (10 ^ (-20 : ℤ)) * max b (10 ^ (-20 : ℤ)) * max c (10 ^ (-20 : ℤ))
      ≤ (a + 10 ^ (-20 : ℤ)) * (b + 10 ^ (-20 : ℤ)) * (c + 10 ^ (-20 : ℤ)) := by
        refine mul_le_mul (mul_le_mul (hmax ha) (hmax hb) (le_max_of_le_left hb) ?_) (hmax hc)
          (le_max_of_le_left hc) (mul_nonneg ?_ ?_) <;> positivity
    _ = a * b * c + 10 ^ (-20 : ℤ) * (a * b + (a + b + 10 ^ (-20 : ℤ)) * (c + 10 ^ (-20 : ℤ))) := by
        ring
    _ ≤ a * b * c + 10 ^ (-20 : ℤ) * (2540 * 2540 + 5081 * 2541) := by
        have hsum : (a + b + 10 ^ (-20 : ℤ)) * (c + 10 ^ (-20 : ℤ)) ≤ 5081 * 2541 :=
          mul_le_mul (by norm_num; linarith) (by norm_num; linarith) (by positivity) (by norm_num)
        gcongr
    _ ≤ a * b * c + 10 ^ (-12 : ℤ) := by
        norm_num

include hd hc in
/-- **A counted volume is not much more than the exact one**: half a hundredth, but for a factor of
`drift` for each of five roundings and next to nothing for sides that are tiny. -/
theorem volume_le_exactVolumeIn (hv : d'.volume = .ok v) :
    v.toRat ≤ drift ^ 5 * (d.exactVolumeIn unit + 10 ^ (-12 : ℤ)) + 1 / 200 := by
  obtain ⟨hl, hw, hh⟩ := converted_of_convertTo hc
  have hf := (d.unit.factor_pos unit).le
  have hlarge (x : ℚ) : 10 ^ (-20 : ℤ) ≤ drift * max x (10 ^ (-20 : ℤ)) :=
    (le_max_right _ _).trans
      (le_mul_of_one_le_left ((ten_zpow_pos _).le.trans (le_max_right _ _)) one_le_drift)
  have hpos (x : ℚ) : 0 ≤ drift * max x (10 ^ (-20 : ℤ)) := (ten_zpow_pos _).le.trans (hlarge x)
  -- the roundings of the product are those of a box with sides that are not tiny
  have harea := nearest_mono (mul_nonneg d'.length.toRat_pos.le d'.width.toRat_pos.le)
    (mul_le_mul (hl.le_drift_mul_max hf) (hw.le_drift_mul_max hf) d'.width.toRat_pos.le (hpos _))
  have hproduct := (nearest_mono (mul_nonneg (nearest_nonneg _) d'.height.toRat_pos.le)
    (mul_le_mul harea (hh.le_drift_mul_max hf) d'.height.toRat_pos.le (nearest_nonneg _))).trans
    (le_drift_mul_mul (hlarge _) (hlarge _) (hlarge _))
  have hmax := mul_max_le (mul_nonneg d.length.toRat_pos.le hf)
    (mul_nonneg d.width.toRat_pos.le hf) (mul_nonneg d.height.toRat_pos.le hf)
    (toRat_mul_factor_le hd unit (by simp [sides])) (toRat_mul_factor_le hd unit (by simp [sides]))
    (toRat_mul_factor_le hd unit (by simp [sides]))
  rw [← exactVolumeIn] at hmax
  have hplace := atPlace_le_add_half (e := -2)
    (nearest_nonneg (nearest (d'.length.value.toRat * d'.width.value.toRat) *
      d'.height.value.toRat))
  rw [← toRat_of_volume hv] at hplace
  calc v.toRat
      ≤ nearest (nearest (d'.length.value.toRat * d'.width.value.toRat) *
          d'.height.value.toRat) + 1 / 200 := hplace.trans_eq (by norm_num)
    _ ≤ drift ^ 5 * (max _ _ * max _ _ * max _ _) + 1 / 200 :=
        add_le_add_left (hproduct.trans_eq (by ring)) _
    _ ≤ drift ^ 5 * (d.exactVolumeIn unit + 10 ^ (-12 : ℤ)) + 1 / 200 :=
        add_le_add_left (mul_le_mul_of_nonneg_left hmax (pow_pos drift_pos 5).le) _

include hd hc in
/-- The volume of a bounded box is bounded. -/
theorem volume_le_of_bounded (hv : d'.volume = .ok v) : v.toRat ≤ 10 ^ (12 : ℤ) := by
  obtain ⟨hl, hw, hh⟩ := converted_of_convertTo hc
  have hf := (d.unit.factor_pos unit).le
  have hside {a a' : Amount} (ha : a.value ∈ d.sides)
      (hconv : Converted (d.unit.factor unit).toRat a a') : a'.value.toRat ≤ 5080 := by
    have := toRat_mul_factor_le hd unit ha
    linarith [hconv.le_two_mul hf]
  have hbox : d'.exactVolume ≤ 5080 * 5080 * 5080 :=
    mul_le_mul (mul_le_mul (hside (by simp [sides]) hl) (hside (by simp [sides]) hw)
      d'.width.toRat_pos.le (by norm_num)) (hside (by simp [sides]) hh) d'.height.toRat_pos.le
      (by norm_num)
  have hround := volume_le hv
  norm_num
  linarith

/-! ## Boxes around bounded boxes -/

include hd in
/-- The volume of a box into which a box with some volume fits is counted at most half a hundredth
too high, but for two roundings. -/
theorem volume_le_of_contains (h : outer.canContain d = .ok true)
    (hE : 1 / 200 < d.exactVolumeIn outer.unit) (hv : outer.volume = .ok v) :
    v.toRat ≤ drift ^ 2 * outer.exactVolume + 1 / 200 := by
  obtain ⟨inner, hinner, hfits⟩ := bind_eq_ok.1 h
  have hlow := le_sides_of_exactVolumeIn hd hinner hE
  refine volume_le_drift hv fun x hx => ?_
  obtain ⟨i, hi, hle⟩ := exists_le_of_fitsWithin
    (by rw [inner.sortedSides_perm.length_eq, outer.sortedSides_perm.length_eq]; rfl)
    (pure_eq_ok.1 hfits) x (outer.sortedSides_perm.mem_iff.2 hx)
  exact (hlow i (inner.sortedSides_perm.mem_iff.1 hi)).trans hle

end Dimensions

end Stowage
