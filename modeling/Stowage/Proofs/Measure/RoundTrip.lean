import Stowage.Proofs.Decimal.Sum
import Stowage.Proofs.Measure.Direction

/-!
# There and back

A measure that is converted to the other unit and back is off by the share by which the two factors
fall short of one, and by two roundings (`Reciprocal.within_there_and_back`). All in all it is off
by less than one part in a hundred thousand, for any number of digits and at any size at which
neither conversion underflows or overflows (`ConvertsBack`). That leaves out measures within a few
digits of the ends of the exponent range only (`Dimensions.convertsBack_of_away`).
-/

namespace Stowage

open Decimal

/-! ## Two roundings -/

namespace Decimal

variable {τ f g x : ℚ} {k : ℕ}

/-- Both factors together, without the roundings. -/
theorem Reciprocal.within_mul (h : Reciprocal τ f g) (hτ : 0 ≤ τ) (hx : 0 ≤ x) :
    Within (1 + τ) (x * f * g) x := by
  have hshort : f * g ≤ 1 + τ := h.short.trans (by norm_num; linarith)
  have htight := one_le_drift.trans h.tight
  constructor
  · calc x * f * g = f * g * x := by ring
      _ ≤ (1 + τ) * x := mul_le_mul_of_nonneg_right hshort hx
  · calc x ≤ (1 + τ) * (f * g) * x := le_mul_of_one_le_left hx htight
      _ = (1 + τ) * (x * f * g) := by ring

/-- A number that is converted and converted back, with a rounding each time. -/
theorem Reciprocal.within_there_and_back (h : Reciprocal τ f g) (hτ : 0 ≤ τ) (hx : 0 ≤ x)
    (hthere : ¬ Underflows (x * f)) (hback : ¬ Underflows (nearest (x * f) * g)) :
    Within (drift * (drift * (1 + τ))) (nearest (nearest (x * f) * g)) x := by
  have hround := (within_nearest (mul_nonneg hx h.pos.le) hthere).mul_right h.pos'.le
  have hround' := within_nearest (mul_nonneg (nearest_nonneg _) h.pos'.le) hback
  have hτ1 : 0 ≤ 1 + τ := by linarith
  exact hround'.trans (hround.trans (h.within_mul hτ hx) drift_pos.le hτ1) drift_pos.le
    (mul_nonneg drift_pos.le hτ1)

/-- Factors that fall short of one by next to nothing give a number back, up to a hundred-thousandth
of it. -/
theorem Reciprocal.abs_sub_le (h : Reciprocal τ f g) (hτ : 0 ≤ τ) (hτ' : τ ≤ 21 / 10 ^ 7)
    (hx : 0 ≤ x) (hthere : ¬ Underflows (x * f)) (hback : ¬ Underflows (nearest (x * f) * g)) :
    |nearest (nearest (x * f) * g) - x| ≤ x / 10 ^ 5 := by
  have hshare : drift * (drift * (1 + τ)) ≤ 1 + 1 / 10 ^ 5 := by
    calc drift * (drift * (1 + τ)) ≤ drift * (drift * (1 + 21 / 10 ^ 7)) := by
          have hdrift := drift_pos
          gcongr
      _ ≤ 1 + 1 / 10 ^ 5 := by norm_num [drift]
  have hwithin := (h.within_there_and_back hτ hx hthere hback).mono hshare (nearest_nonneg _) hx
  have habs := hwithin.abs_sub_le (by norm_num) (nearest_nonneg _)
  rwa [mul_one_div] at habs

/-- The second number differs from the first by at most one hundred-thousandth of the first. -/
def Recovers (x y : Decimal) : Prop := |y.toRat - x.toRat| ≤ x.toRat / 10 ^ 5

theorem recovers_self {x : Decimal} (hx : 0 ≤ x.toRat) : Recovers x x := by
  rw [Recovers, sub_self, abs_zero]
  positivity

/-! ## Numbers away from the ends of the range -/

/-- At least so many digits above the least number of which 28 digits can be kept, and below the
largest numbers. -/
def Away (k : ℕ) (x : ℚ) : Prop :=
  10 ^ (tiniest + 27 + k) ≤ x ∧ x ≤ 10 ^ (topExponent + 26 - k)

theorem Away.inBounds (h : Away k x) : InBounds x := by
  refine ⟨fun hx => hx.1.not_ge ((ten_zpow_le (by omega)).trans h.1), ?_⟩
  refine lt_limit_of_lt le_rfl (h.2.trans_lt ?_)
  exact zpow_lt_zpow_right₀ (by norm_num) (by omega)

/-- Powers of ten are not rounded, so that rounding does not lead past them. -/
theorem Away.nearest (h : Away k x) (hk : k ≤ 26) : Away k (nearest x) := by
  have hself {e : ℤ} (he : tiniest ≤ e) : Decimal.nearest (10 ^ e) = 10 ^ e :=
    nearest_eq_self 1 (by rw [Nat.cast_one, one_mul]) (by norm_num) he
  constructor
  · rw [← hself (e := tiniest + 27 + k) (by omega)]
    exact nearest_mono (ten_zpow_pos _).le h.1
  · rw [← hself (e := topExponent + 26 - k) (by simp only [tiniest, topExponent]; omega)]
    exact nearest_mono ((ten_zpow_pos _).le.trans h.1) h.2

/-- A factor between a tenth and three takes at most one digit. -/
theorem Away.mul (h : Away (k + 1) x) (hf : 1 / 10 ≤ f) (hf' : f ≤ 3) : Away k (x * f) := by
  have hx := (ten_zpow_pos _).le.trans h.1
  constructor
  · calc (10 : ℚ) ^ (tiniest + 27 + k) = 10 ^ (tiniest + 27 + (k + 1 : ℕ)) * (1 / 10) := by
          rw [Nat.cast_succ, ← add_assoc, zpow_add_one₀ (by norm_num), mul_assoc]
          norm_num
      _ ≤ x * f := mul_le_mul h.1 hf (by norm_num) hx
  · calc x * f ≤ 10 ^ (topExponent + 26 - (k + 1 : ℕ)) * 10 :=
          mul_le_mul h.2 (hf'.trans (by norm_num)) (by linarith) (ten_zpow_pos _).le
      _ = 10 ^ (topExponent + 26 - k) := by
          rw [← zpow_add_one₀ (by norm_num), Nat.cast_succ, sub_add_eq_sub_sub, sub_add_cancel]

end Decimal

/-! ## Boxes -/

namespace Dimensions

variable {d : Dimensions} {unit : LengthUnit}

/-- No side underflows or overflows when the box is converted to a unit and converted back. -/
def ConvertsBack (d : Dimensions) (unit : LengthUnit) : Prop :=
  d.Converts unit ∧ ∀ d', d.convertTo unit = .ok d' → d'.Converts d.unit

/-- Sides that are two digits away from the ends of the range can be converted and converted
back. -/
theorem convertsBack_of_away (h : ∀ x ∈ d.sides, Away 2 x.toRat) : d.ConvertsBack unit := by
  have hthere {x : Decimal} (hx : x ∈ d.sides) : Away 1 (x.toRat * (d.unit.factor unit).toRat) :=
    (h x hx).mul (d.unit.le_factor unit) ((d.unit.factor_le unit).trans (by norm_num))
  have hconverts : d.Converts unit := fun _ x hx => (hthere hx).inBounds
  refine ⟨hconverts, fun d' hd' hu y hy => ?_⟩
  by_cases hsame : unit = d.unit
  · rw [convertTo, if_pos hsame] at hd'
    cases hd'
    exact absurd rfl hu
  · obtain ⟨d₁, hd₁, -, hsides⟩ := exists_convertTo_sides hsame hconverts
    obtain rfl := Except.ok.inj (hd₁.symm.trans hd')
    obtain ⟨x, hx, hxy⟩ := List.mem_map.1 (hsides ▸ List.mem_map_of_mem hy)
    rw [← hxy]
    exact (((hthere hx).nearest (by norm_num)).mul (d₁.unit.le_factor _)
      ((d₁.unit.factor_le _).trans (by norm_num))).inBounds

/-- A box comes back in its unit, with its sides. -/
theorem exists_convertTo_back (h : d.ConvertsBack unit) : ∃ d' d'', d.convertTo unit = .ok d' ∧
    d'.unit = unit ∧ d'.convertTo d.unit = .ok d'' ∧ d''.unit = d.unit ∧
    List.Forall₂ Recovers d.sides d''.sides := by
  obtain ⟨hthere, hback⟩ := h
  by_cases hu : unit = d.unit
  · refine ⟨d, d, if_pos hu, hu.symm, if_pos rfl, rfl, List.forall₂_same.2 fun x hx => ?_⟩
    exact recovers_self (toRat_pos_of_mem_sides hx).le
  · obtain ⟨d', hd', rfl, hsides⟩ := exists_convertTo_sides hu hthere
    have hback := hback d' hd'
    obtain ⟨d'', hd'', hunit, hsides'⟩ := exists_convertTo_sides (Ne.symm hu) hback
    refine ⟨d', d'', hd', rfl, hd'', hunit, ?_⟩
    set f := (d.unit.factor d'.unit).toRat
    set g := (d'.unit.factor d.unit).toRat
    have hside : ∀ x ∈ d.sides, |nearest (nearest (x.toRat * f) * g) - x.toRat| ≤
        x.toRat / 10 ^ 5 := by
      intro x hx
      obtain ⟨y, hy, hxy⟩ := List.mem_map.1 (hsides ▸ List.mem_map_of_mem hx)
      exact (LengthUnit.reciprocal (Ne.symm hu)).abs_sub_le (by norm_num) le_rfl
        (toRat_pos_of_mem_sides hx).le (hthere hu x hx).1 (hxy ▸ (hback (Ne.symm hu) y hy).1)
    have hvalues : d''.sides.map toRat =
        d.sides.map fun x => nearest (nearest (x.toRat * f) * g) := by
      calc d''.sides.map toRat = (d'.sides.map toRat).map fun y => nearest (y * g) := by
            rw [hsides', List.map_map]
            rfl
        _ = d.sides.map fun x => nearest (nearest (x.toRat * f) * g) := by
            rw [hsides, List.map_map]
            rfl
    have hforall : List.Forall₂ (fun x v => |v - x.toRat| ≤ x.toRat / 10 ^ 5) d.sides
        (d''.sides.map toRat) := by
      rw [hvalues, List.forall₂_map_right_iff]
      exact List.forall₂_same.2 hside
    rw [List.forall₂_map_right_iff] at hforall
    exact hforall

end Dimensions

/-! ## Weights -/

namespace Weight

variable {w : Weight} {unit : WeightUnit}

/-- A weight neither underflows nor overflows when it is converted to a unit and converted back. -/
def ConvertsBack (w : Weight) (unit : WeightUnit) : Prop :=
  w.Converts unit ∧ ∀ w', w.convertTo unit = .ok w' → w'.Converts w.unit

/-- A weight that is two digits away from the ends of the range can be converted and converted
back. -/
theorem convertsBack_of_away (h : Away 2 w.value.value.toRat) : w.ConvertsBack unit := by
  have hthere : Away 1 (w.value.value.toRat * (w.unit.factor unit).toRat) :=
    h.mul (w.unit.le_factor unit) (w.unit.factor_le unit)
  have hconverts : w.Converts unit := fun _ => hthere.inBounds
  refine ⟨hconverts, fun w' hw' hu => ?_⟩
  by_cases hsame : unit = w.unit
  · rw [convertTo, if_pos hsame] at hw'
    cases hw'
    exact absurd rfl hu
  · obtain ⟨w₁, hw₁, hvalue⟩ := exists_convertTo_of_converts hsame hconverts
    obtain rfl := Except.ok.inj (hw₁.symm.trans hw')
    rw [hvalue]
    exact ((hthere.nearest (by norm_num)).mul (w₁.unit.le_factor _) (w₁.unit.factor_le _)).inBounds

/-- A weight comes back in its unit, with its value. -/
theorem exists_convertTo_back (h : w.ConvertsBack unit) : ∃ w' w'', w.convertTo unit = .ok w' ∧
    w'.unit = unit ∧ w'.convertTo w.unit = .ok w'' ∧ w''.unit = w.unit ∧
    Recovers w.value.value w''.value.value := by
  obtain ⟨hthere, hback⟩ := h
  have hpos := w.value.toRat_pos.le
  by_cases hu : unit = w.unit
  · exact ⟨w, w, if_pos hu, hu.symm, if_pos rfl, rfl, recovers_self hpos⟩
  · obtain ⟨w', hw', hvalue⟩ := exists_convertTo_of_converts hu hthere
    obtain ⟨rfl, -⟩ := toRat_of_convertTo hw'
    have hback := hback w' hw'
    obtain ⟨w'', hw'', hvalue'⟩ := exists_convertTo_of_converts (Ne.symm hu) hback
    have hunder := (hback (Ne.symm hu)).1
    refine ⟨w', w'', hw', rfl, hw'', (toRat_of_convertTo hw'').1, ?_⟩
    rw [hvalue] at hunder hvalue'
    rw [Recovers, hvalue']
    exact (WeightUnit.reciprocal (Ne.symm hu)).abs_sub_le (by norm_num) (by norm_num) hpos
      (hthere hu).1 hunder

end Weight

/-- **Measures survive a conversion there and back.** A box and a weight that neither conversion
takes out of bounds come back in their unit, with every value off by at most one hundred-thousandth
of it. -/
theorem recovers_of_convertsBack :
    (∀ (d : Dimensions) (unit : LengthUnit), d.ConvertsBack unit →
      ∃ d' d'', d.convertTo unit = .ok d' ∧ d'.unit = unit ∧ d'.convertTo d.unit = .ok d'' ∧
        d''.unit = d.unit ∧ List.Forall₂ Recovers d.sides d''.sides) ∧
    ∀ (w : Weight) (unit : WeightUnit), w.ConvertsBack unit →
      ∃ w' w'', w.convertTo unit = .ok w' ∧ w'.unit = unit ∧ w'.convertTo w.unit = .ok w'' ∧
        w''.unit = w.unit ∧ Recovers w.value.value w''.value.value :=
  ⟨fun _ _ => Dimensions.exists_convertTo_back, fun _ _ => Weight.exists_convertTo_back⟩

/-- Three and a third, with more digits than a result can have. -/
def longThird : Amount := ⟨⟨false, 333333333333333333333333333333, -29⟩, Eq.refl true⟩

/-- A box in inches with that side among others. -/
def thirdBox : Dimensions :=
  ⟨⟨⟨false, 125, -1⟩, Eq.refl true⟩, longThird, ⟨⟨false, 7, -3⟩, Eq.refl true⟩, .inches⟩

/-- A weight of that many kilograms. -/
def thirdWeight : Weight := ⟨longThird, .kilograms⟩

/-- Numbers of an ordinary size are away from the ends of the range. -/
theorem Decimal.away_two {x : ℚ} (hlow : 10 ^ (-99 : ℤ) ≤ x) (hhigh : x ≤ 10 ^ (99 : ℤ)) :
    Away 2 x :=
  ⟨(ten_zpow_le (by decide)).trans hlow, hhigh.trans (ten_zpow_le (by decide))⟩

theorem recovers_third : thirdBox.ConvertsBack .centimeters ∧ thirdWeight.ConvertsBack .pounds ∧
    (∃ d' d'', thirdBox.convertTo .centimeters = .ok d' ∧ d'.unit = .centimeters ∧
      d'.convertTo .inches = .ok d'' ∧ d''.unit = .inches ∧
      List.Forall₂ Recovers thirdBox.sides d''.sides) ∧
    ∃ w' w'', thirdWeight.convertTo .pounds = .ok w' ∧ w'.unit = .pounds ∧
      w'.convertTo .kilograms = .ok w'' ∧ w''.unit = .kilograms ∧
      Recovers longThird.value w''.value.value := by
  have hbox : thirdBox.ConvertsBack .centimeters := Dimensions.convertsBack_of_away
    (Dimensions.forall_mem_sides.2 (by
      refine ⟨away_two ?_ ?_, away_two ?_ ?_, away_two ?_ ?_⟩ <;>
        norm_num [thirdBox, longThird, toRat, signed, magnitude]))
  have hweight : thirdWeight.ConvertsBack .pounds := Weight.convertsBack_of_away (by
    apply away_two <;> norm_num [thirdWeight, longThird, toRat, signed, magnitude])
  exact ⟨hbox, hweight, recovers_of_convertsBack.1 thirdBox .centimeters hbox,
    recovers_of_convertsBack.2 thirdWeight .pounds hweight⟩

end Stowage
