import Stowage.Proofs.Package.Remaining
import Stowage.Proofs.Packing.Order

/-!
# Packages that always answer

The measures of an item are bounded, and those of a carton are in range (`Item.Sized`,
`Carton.Sized`). Then it can always be told whether a package on the carton accepts the item
(`Built.exists_accepts_of_sized`): no conversion, sum or ratio on the way is without a result, as
the totals of a package are bounded by its carton. Nor is the volume that is left, or the part of
the volume in use.
-/

namespace Stowage

open Decimal

/-- An item with a bounded box and weight, neither of which underflows in a conversion. -/
structure Item.Sized (i : Item) : Prop where
  dimensions : ∃ d, i.dimensions = .known d ∧ d.Bounded ∧ d.Robust
  weight : ∃ w, i.weight = .known w ∧ w.value.value.toRat ≤ 1000 ∧ w.Robust

variable {c : Carton} {i : Item}

theorem Item.Sized.single (hi : i.Sized) : i.single.Sized := ⟨hi.dimensions, hi.weight⟩

theorem Item.Sized.exists_sortVolume (hi : i.Sized) : ∃ v, i.sortVolume = .ok v := by
  obtain ⟨d, hd, hbounded, hrobust⟩ := hi.dimensions
  obtain ⟨v, hv⟩ := Dimensions.exists_sortVolume hbounded.le hrobust
  exact ⟨v, by simp [sortVolume, hd, Attribute.get, hv]⟩

theorem Carton.Sized.exists_canFit (hc : c.Sized) (hi : i.Sized) :
    ∃ fits, c.canFit i.dimensions i.weight = .ok fits := by
  obtain ⟨d, hd, hbounded, hrobust⟩ := hi.dimensions
  obtain ⟨w, hw, -⟩ := hi.weight
  obtain ⟨o, ho, -⟩ := hc.dimensions
  obtain ⟨m, hm, hrange⟩ := hc.maxWeight
  obtain ⟨m', hm'⟩ := Weight.exists_convertTo hrange.2 (Weight.robust_of_inRange hrange) w.unit
  obtain ⟨d', hd', -⟩ := Dimensions.exists_convertTo hbounded.le hrobust o.unit
  have hheavier : w.isGreaterThan m = .ok (m'.value.value.lt w.value.value) := by
    simp [Weight.isGreaterThan, hm']
  have hcontain : o.canContain d = .ok (Dimensions.fitsWithin d'.sortedSides o.sortedSides) := by
    simp [Dimensions.canContain, hd']
  cases hlt : m'.value.value.lt w.value.value with
  | true => exact ⟨false, by simp [canFit, hw, hm, Attribute.get, hheavier, hlt]⟩
  | false =>
    refine ⟨Dimensions.fitsWithin d'.sortedSides o.sortedSides, ?_⟩
    simp [canFit, hw, hm, ho, hd, Attribute.get, hheavier, hlt, hcontain]

namespace Package

variable {p : Package} {policy : Policy}

theorem exists_itemWeight (hc : p.carton.Sized) (hi : i.Sized) : ∃ w, p.itemWeight i = .ok w := by
  obtain ⟨w, hw, hle, hrobust⟩ := hi.weight
  obtain ⟨m, hm, -⟩ := hc.maxWeight
  obtain ⟨w', hw'⟩ := Weight.exists_convertTo (hle.trans (by norm_num)) hrobust m.unit
  exact ⟨_, itemWeight_eq_ok.2 ⟨w, m, w', hw, hm, hw', rfl⟩⟩

theorem exists_itemVolume (hc : p.carton.Sized) (hi : i.Sized) : ∃ v, p.itemVolume i = .ok v := by
  obtain ⟨d, hd, hbounded, hrobust⟩ := hi.dimensions
  obtain ⟨o, ho, -⟩ := hc.dimensions
  obtain ⟨d', hd', hsides⟩ := Dimensions.exists_convertTo hbounded.le hrobust o.unit
  obtain ⟨v, hv⟩ := Dimensions.exists_volume hsides
  exact ⟨v, itemVolume_eq_ok.2 ⟨d, o, d', hd, ho, hd', hv⟩⟩

theorem exists_cartonVolume (hc : p.carton.Sized) : ∃ v, p.cartonVolume = .ok v := by
  obtain ⟨o, ho, hrange⟩ := hc.dimensions
  obtain ⟨v, hv⟩ := hrange.exists_volume
  exact ⟨v, cartonVolume_eq_ok.2 ⟨o, ho, hv⟩⟩

/-- A carton whose weight is in range is never overloaded. -/
theorem not_overloads (hc : p.carton.Sized) : ¬ p.Overloads i := by
  rintro ⟨-, m, hm, hlimit⟩
  obtain ⟨m', hm', hrange⟩ := hc.maxWeight
  cases hm.symm.trans hm'
  have hle := hrange.2
  have hlt : 5 * m.value.value.toRat < limit := by
    refine lt_limit_of_lt (e := 9) (by decide) ?_
    norm_num at hle ⊢
    linarith
  exact hlimit.not_gt hlt

/-- **It can always be told whether a package accepts an item.** -/
theorem Built.exists_accepts_of_sized (h : Built Policy.InRange p) (hpolicy : policy.InRange)
    (hc : p.carton.Sized) (hi : i.Sized) : ∃ accepted, p.accepts i policy = .ok accepted := by
  obtain ⟨fits, hfits⟩ := hc.exists_canFit hi
  cases fits with
  | false => exact ⟨false, accepts_of_not_fits hfits⟩
  | true =>
    obtain ⟨w, hw⟩ := exists_itemWeight hc hi
    obtain ⟨v, hv⟩ := exists_cartonVolume hc
    obtain ⟨x, hx⟩ := exists_itemVolume hc hi
    obtain ⟨s, hs⟩ | hoverloads := h.exists_weightWith hfits hw
    · exact h.exists_accepts hpolicy hfits hs hv hx
    · exact absurd hoverloads (not_overloads hc)

/-- The volume that is left can always be told, in every unit. -/
theorem Built.exists_remainingVolumeIn_of_sized (h : Built Policy.InRange p) (hc : p.carton.Sized)
    (unit : LengthUnit) : ∃ r, p.remainingVolumeIn unit = .ok r := by
  obtain ⟨v, hv⟩ := exists_cartonVolume hc
  obtain ⟨r, hr, -⟩ := h.exists_remainingVolume hv
  obtain ⟨s, hs, -⟩ := h.exists_remainingVolumeIn hv hr unit
  exact ⟨s, hs⟩

/-- The part of a carton's volume in use, where the carton has a volume. -/
theorem utilization_eq_ok_of_ratio {v r : Decimal} (hv : p.cartonVolume = .ok v)
    (hpos : 0 < v.toRat) (hr : p.usedVolume.ratio v = .ok r) : p.utilization = .ok r := by
  have hzero : v.isZero = false := by
    rw [Bool.eq_false_iff]
    intro hzero
    exact hpos.ne' (toRat_of_coeff_eq_zero (by simpa [isZero] using hzero))
  simp [utilization, hv, hzero, hr]

/-- The part in use of a package with something in it lies between zero and one. -/
theorem Built.exists_utilization (h : Built Policy.InRange p) (hne : p.items ≠ []) :
    ∃ r, p.utilization = .ok r ∧ 0 ≤ r.toRat ∧ r.toRat ≤ 1 := by
  obtain ⟨policy, ⟨t, ht, -, hone⟩, v, r, hv, hpos, hr, hadmits⟩ := h.utilized hne
  rw [ht] at hadmits
  refine ⟨r, utilization_eq_ok_of_ratio hv hpos hr, ?_, le_trans hadmits hone⟩
  rw [(ratio_spec h.sound.volume hpos hr).1]
  exact atPlace_nonneg _ _

end Package

end Stowage
