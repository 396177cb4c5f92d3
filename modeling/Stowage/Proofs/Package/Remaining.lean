import Stowage.Proofs.Measure.Volume
import Stowage.Proofs.Package.Refusal

/-!
# What is left in a package

The weight that can still be added is never negative, but the volume that is left may be. A package
accepts an item as long as the ratio of the volumes, rounded half up to four places, is within the
threshold, so at a threshold of one the volume in use may be above that of the carton by less than
half a unit in the fourth place (`totals_within_carton`). A tin that is full to the brim still takes
a leaf (`tin_overfull`).
-/

namespace Stowage

open Decimal

/-! ## Thresholds below one -/

/-- The threshold of a policy lies above zero and below one. -/
def Policy.LeavesRoom (policy : Policy) : Prop :=
  ∃ t, policy.threshold = .finite t ∧ 0 < t.toRat ∧ t.toRat < 1

theorem Policy.LeavesRoom.inRange {policy : Policy} (h : policy.LeavesRoom) : policy.InRange := by
  obtain ⟨t, ht, hpos, hone⟩ := h
  exact ⟨t, ht, hpos, hone.le⟩

theorem Policy.usual_leavesRoom : usual.LeavesRoom := by
  refine ⟨⟨false, 95, -2⟩, rfl, ?_, ?_⟩ <;> norm_num [toRat, signed, magnitude]

/-! ## Volumes in other units -/

/-- A volume that is not huge can be converted. If it is not negative, the result is neither
negative nor huge. -/
theorem LengthUnit.exists_convertVolume {x : Decimal} (hx : |x.toRat| ≤ 10 ^ (27 : ℤ))
    (a b : LengthUnit) : ∃ y, convertVolume x a b = .ok y ∧
      (0 ≤ x.toRat → 0 ≤ y.toRat ∧ y.toRat ≤ 10 ^ (29 : ℤ)) := by
  have hf := (a.factor_pos b).le
  have hcube : (a.factor b).toRat ^ 3 ≤ 17 :=
    (pow_le_pow_left₀ hf (a.factor_le b) 3).trans (by norm_num)
  have hcube0 : 0 ≤ (a.factor b).toRat ^ 3 := pow_nonneg hf 3
  obtain ⟨c, hc, hval⟩ := (cube_rounds (a.factor b)).exists_ok
    (by rw [abs_of_nonneg hcube0]; exact lt_limit_of_lt (e := 2) (by decide) (by linarith))
  rw [rounded_of_nonneg hcube0] at hval
  have hc0 : 0 ≤ c.toRat := hval ▸ nearest_nonneg _
  have hc34 : c.toRat ≤ 34 := by
    rw [hval]
    linarith [nearest_le_two_mul hcube0]
  have hprod : |x.toRat * c.toRat| < 10 ^ (30 : ℤ) := by
    rw [abs_mul, abs_of_nonneg hc0]
    exact (mul_le_mul hx hc34 hc0 (by norm_num)).trans_lt (by norm_num)
  obtain ⟨y, hy, hval'⟩ := (mul_rounds x c).exists_ok (lt_limit_of_lt (by decide) hprod)
  refine ⟨y, bind_eq_ok.2 ⟨c, hc, hy⟩, fun hx0 => ?_⟩
  have hprod0 := mul_nonneg hx0 hc0
  have htwice := nearest_le_two_mul hprod0
  rw [abs_of_nonneg hx0] at hx
  have hle := mul_le_mul hx hc34 hc0 (by norm_num)
  rw [hval', rounded_of_nonneg hprod0]
  refine ⟨nearest_nonneg _, ?_⟩
  norm_num at hle ⊢
  linarith

namespace Package

variable {p : Package} {v r : Decimal} {m : Weight}

/-! ## Weight -/

theorem remainingWeight_eq_ok : p.remainingWeight = .ok r ↔
    ∃ m, p.carton.maxWeight = .known m ∧ m.value.value.sub p.currentWeight = .ok r := by
  simp [remainingWeight, bind_eq_ok, Attribute.get_eq_ok]

/-- The weight that can still be added has a value, unless the carton carries more than the largest
decimals. -/
theorem Built.exists_remainingWeight {Q : Policy → Prop} (h : Built Q p)
    (hm : p.carton.maxWeight = .known m) (hlimit : m.value.value.toRat < limit) :
    ∃ r, p.remainingWeight = .ok r := by
  have hle := h.currentWeight_le hm
  have habs : |m.value.value.toRat - p.currentWeight.toRat| < limit := by
    rw [abs_of_nonneg (sub_nonneg.2 hle)]
    linarith [h.sound.weight]
  obtain ⟨r, hr, -⟩ := (sub_rounds m.value.value p.currentWeight).exists_ok habs
  exact ⟨r, remainingWeight_eq_ok.2 ⟨m, hm, hr⟩⟩

theorem Built.remainingWeight_nonneg {Q : Policy → Prop} (h : Built Q p)
    (hr : p.remainingWeight = .ok r) : 0 ≤ r.toRat := by
  obtain ⟨m, hm, hr⟩ := remainingWeight_eq_ok.1 hr
  rw [(sub_rounds _ _).toRat_eq hr]
  exact rounded_nonneg (sub_nonneg.2 (h.currentWeight_le hm))

/-! ## Volume -/

theorem isHundredths_cartonVolume (hv : p.cartonVolume = .ok v) : IsHundredths v.toRat := by
  obtain ⟨o, -, hv⟩ := cartonVolume_eq_ok.1 hv
  exact Dimensions.isHundredths_volume hv

theorem Built.isHundredths_usedVolume {Q : Policy → Prop} (h : Built Q p) :
    IsHundredths p.usedVolume.toRat := by
  induction h with
  | ofCarton c => exact ⟨0, by simp [Package.ofCarton]⟩
  | add h _ hadd ih =>
    obtain ⟨-, s, u, -, hu, rfl⟩ := add_eq_ok_iff.1 hadd
    obtain ⟨x, hx, hu⟩ := volumeWith_eq_ok.1 hu
    obtain ⟨-, -, d, -, -, -, hd⟩ := itemVolume_eq_ok.1 hx
    have hsum := ih.add (Dimensions.isHundredths_volume hd)
    rw [(add_rounds _ _).toRat_eq hu, rounded_of_nonneg hsum.nonneg]
    exact isHundredths_nearest hsum

theorem Built.usedVolume_eq_zero {Q : Policy → Prop} (h : Built Q p) (hne : p.items = []) :
    p.usedVolume.toRat = 0 := by
  rw [h.eq_ofCarton hne]
  exact toRat_zero

/-- A package with something in it is on a carton that has a volume. -/
theorem Built.cartonVolume_pos {Q : Policy → Prop} (h : Built Q p) (hne : p.items ≠ [])
    (hv : p.cartonVolume = .ok v) : 0 < v.toRat := by
  obtain ⟨-, -, w, -, hw, hpos, -⟩ := h.utilized hne
  cases hv.symm.trans hw
  exact hpos

/-- The volume in use is above that of the carton by at most half a unit of the fourth place. -/
theorem Built.usedVolume_le (h : Built Policy.InRange p) (hv : p.cartonVolume = .ok v) :
    p.usedVolume.toRat ≤ 20001 / 20000 * v.toRat := by
  by_cases hne : p.items = []
  · rw [h.usedVolume_eq_zero hne]
    exact mul_nonneg (by norm_num) (isHundredths_cartonVolume hv).nonneg
  · exact (h.usedVolume_lt hv (h.cartonVolume_pos hne hv)).le

/-- **The volume that is left** has a value, and it is the exact difference. -/
theorem Built.exists_remainingVolume (h : Built Policy.InRange p) (hv : p.cartonVolume = .ok v) :
    ∃ r, p.remainingVolume = .ok r ∧ r.toRat = v.toRat - p.usedVolume.toRat := by
  have hused := h.usedVolume_le hv
  have hused0 := h.sound.volume
  have hv0 := (isHundredths_cartonVolume hv).nonneg
  have hlt := cartonVolume_lt hv
  have habs : |v.toRat - p.usedVolume.toRat| ≤ 10 ^ (26 : ℤ) := abs_le.2 ⟨by linarith, by linarith⟩
  obtain ⟨r, hr, hval⟩ := (sub_rounds v p.usedVolume).exists_ok
    (lt_limit_of_lt (e := 27) (by decide) (habs.trans_lt (by norm_num)))
  rw [rounded_sub_of_isHundredths (isHundredths_cartonVolume hv) h.isHundredths_usedVolume habs]
    at hval
  exact ⟨r, by simp [remainingVolume, hv, hr], hval⟩

/-- The volume in use is at most that of the carton when thresholds leave room. -/
theorem Built.usedVolume_le_of_leavesRoom (h : Built Policy.LeavesRoom p)
    (hv : p.cartonVolume = .ok v) : p.usedVolume.toRat ≤ v.toRat := by
  by_cases hne : p.items = []
  · rw [h.usedVolume_eq_zero hne]
    exact (isHundredths_cartonVolume hv).nonneg
  · obtain ⟨policy, ⟨t, ht, -, hone⟩, w, r, hw, hpos, hr, hadmits⟩ := h.utilized hne
    cases hv.symm.trans hw
    rw [ht] at hadmits
    exact le_of_ratio_lt_one h.sound.volume hpos hr (lt_of_le_of_lt hadmits hone)

/-- On a carton of at most 200 cubic units the half unit is too small to show. -/
theorem Built.usedVolume_le_of_small (h : Built Policy.InRange p) (hv : p.cartonVolume = .ok v)
    (hsmall : v.toRat ≤ 200) : p.usedVolume.toRat ≤ v.toRat := by
  have hcents := isHundredths_cartonVolume hv
  by_cases hne : p.items = []
  · rw [h.usedVolume_eq_zero hne]
    exact hcents.nonneg
  have hlt := h.usedVolume_lt hv (h.cartonVolume_pos hne hv)
  by_contra hover
  -- what is too much would be less than a hundredth
  obtain ⟨n, hn⟩ := h.isHundredths_usedVolume.sub hcents (not_le.1 hover).le
  norm_num at hn
  rcases Nat.eq_zero_or_pos n with rfl | hpos
  · norm_num at hn
    linarith
  · have hone : (1 : ℚ) ≤ n := by exact_mod_cast hpos
    linarith

/-- The volume that is left has a value in every unit, which is not negative if it was not. -/
theorem Built.exists_remainingVolumeIn (h : Built Policy.InRange p) (hv : p.cartonVolume = .ok v)
    (hr : p.remainingVolume = .ok r) (unit : LengthUnit) :
    ∃ s, p.remainingVolumeIn unit = .ok s ∧ (0 ≤ r.toRat → 0 ≤ s.toRat) := by
  obtain ⟨r', hr', hval⟩ := h.exists_remainingVolume hv
  cases hr.symm.trans hr'
  obtain ⟨o, ho, -⟩ := cartonVolume_eq_ok.1 hv
  have hused := h.usedVolume_le hv
  have hused0 := h.sound.volume
  have hlt := cartonVolume_lt hv
  have habs : |r.toRat| ≤ 10 ^ (27 : ℤ) := by
    rw [hval]
    norm_num at hlt ⊢
    exact abs_le.2 ⟨by linarith, by linarith⟩
  obtain ⟨s, hs, hsign⟩ := LengthUnit.exists_convertVolume habs o.unit unit
  exact ⟨s, by simp [remainingVolumeIn, hr, volumeIn, Attribute.get, ho, hs], fun hr0 =>
    (hsign hr0).1⟩

/-- **How far the totals of a package stay within its carton**, under policies whose threshold is in
range. The weight that can still be added is not negative, and it has a value unless the carton
carries more than the largest decimals. The volume that is left is the exact difference of the
volume of the carton and the volume in use. It is negative by at most half a unit in the fourth
place of the ratio, and not at all when the package is empty, when the carton has at most 200 cubic
units, or when every threshold was below one; and then it is not negative in other units either. -/
theorem totals_within_carton (h : Built Policy.InRange p) :
    (∀ m, p.carton.maxWeight = .known m → m.value.value.toRat < limit →
      ∃ r, p.remainingWeight = .ok r) ∧
    (∀ r, p.remainingWeight = .ok r → 0 ≤ r.toRat) ∧
    ∀ v, p.cartonVolume = .ok v → ∃ r, p.remainingVolume = .ok r ∧
      r.toRat = v.toRat - p.usedVolume.toRat ∧ -(v.toRat / 20000) ≤ r.toRat ∧
      (p.items = [] ∨ v.toRat ≤ 200 ∨ Built Policy.LeavesRoom p → 0 ≤ r.toRat) ∧
      ∀ unit, ∃ s, p.remainingVolumeIn unit = .ok s ∧ (0 ≤ r.toRat → 0 ≤ s.toRat) := by
  refine ⟨fun m hm hlimit => h.exists_remainingWeight hm hlimit,
    fun r hr => h.remainingWeight_nonneg hr, fun v hv => ?_⟩
  obtain ⟨r, hr, hval⟩ := h.exists_remainingVolume hv
  have hused := h.usedVolume_le hv
  refine ⟨r, hr, hval, by linarith, fun hroom => ?_, h.exists_remainingVolumeIn hv hr⟩
  rw [hval, sub_nonneg]
  rcases hroom with hempty | hsmall | hroom
  · rw [h.usedVolume_eq_zero hempty]
    exact (isHundredths_cartonVolume hv).nonneg
  · exact h.usedVolume_le_of_small hv hsmall
  · exact hroom.usedVolume_le_of_leavesRoom hv

end Package

/-! ## A tin

A loaf fills a tin to the brim. A leaf that is put on top of it takes up less than half a unit in
the fourth place of the ratio. -/

/-- A tin of a thousand cubic centimetres. -/
def tin : Carton :=
  let side : Amount := ⟨⟨false, 10, 0⟩, Eq.refl true⟩
  Carton.restore "TIN" (.text "Tin") (.known ⟨side, side, side, .centimeters⟩)
    (.known ⟨side, .kilograms⟩) .active .epoch .epoch

/-- Something of a kilogram to go into a tin. -/
def morsel (sku : String) (sides : Dimensions) : Item :=
  { sku := .text sku
    quantity := .int 1
    dimensions := .known sides
    weight := .known ⟨⟨⟨false, 1, 0⟩, Eq.refl true⟩, .kilograms⟩
    category := unknownCategory
    fragile := false }

def loaf : Item :=
  let side : Amount := ⟨⟨false, 10, 0⟩, Eq.refl true⟩
  morsel "LOAF" ⟨side, side, side, .centimeters⟩

def leaf : Item :=
  let edge : Amount := ⟨⟨false, 2, -1⟩, Eq.refl true⟩
  morsel "LEAF" ⟨edge, edge, ⟨⟨false, 1, 0⟩, Eq.refl true⟩, .centimeters⟩

/-- The policy that lets a carton be filled to the brim. -/
def brimful : Policy := { Policy.usual with threshold := .finite ⟨false, 1, 0⟩ }

/-- A tin with something in it. -/
def tinOf (items : List Item) (cents : ℕ) : Package :=
  { carton := tin
    items := items
    currentWeight := ⟨false, items.length, 0⟩
    usedVolume := ⟨false, cents, -2⟩ }

-- so that roundings of given decimals can be computed
attribute [local semireducible] digitCount

theorem loaf_fits : tin.canFit loaf.dimensions loaf.weight = .ok true :=
  Carton.canFit_of_pairwise ⟨rfl, rfl⟩ (by decide) (by decide) (by decide) (by decide) (by decide)

theorem leaf_fits : tin.canFit leaf.dimensions leaf.weight = .ok true :=
  Carton.canFit_of_pairwise ⟨rfl, rfl⟩ (by decide) (by decide) (by decide) (by decide) (by decide)

theorem add_loaf : (Package.ofCarton tin).add loaf brimful = .ok (tinOf [loaf] 100000) :=
  Package.add_eq_ok_iff.2 ⟨bind_eq_ok_of_toOption loaf_fits (by decide), _, _,
    eq_ok_of_toOption (by decide), eq_ok_of_toOption (by decide), rfl⟩

theorem add_leaf_on_top :
    (tinOf [loaf] 100000).add leaf brimful = .ok (tinOf [loaf, leaf] 100004) :=
  Package.add_eq_ok_iff.2 ⟨bind_eq_ok_of_toOption leaf_fits (by decide), _, _,
    eq_ok_of_toOption (by decide), eq_ok_of_toOption (by decide), rfl⟩

theorem add_leaf : (Package.ofCarton tin).add leaf .usual = .ok (tinOf [leaf] 4) :=
  Package.add_eq_ok_iff.2 ⟨bind_eq_ok_of_toOption leaf_fits (by decide), _, _,
    eq_ok_of_toOption (by decide), eq_ok_of_toOption (by decide), rfl⟩

namespace Package

/-- What is left in a tin with a leaf in it. -/
theorem totals_within_carton_leaf : Built Policy.InRange (tinOf [leaf] 4) ∧
    ∃ r, (tinOf [leaf] 4).remainingVolume = .ok r ∧ 0 ≤ r.toRat := by
  have hbuilt : Built Policy.LeavesRoom (tinOf [leaf] 4) :=
    .add (.ofCarton tin) Policy.usual_leavesRoom add_leaf
  have hrange := hbuilt.mono fun _ => Policy.LeavesRoom.inRange
  have hv : (tinOf [leaf] 4).cartonVolume = .ok ⟨false, 100000, -2⟩ := eq_ok_of_toOption (by decide)
  obtain ⟨r, hr, -, -, hroom, -⟩ := (totals_within_carton hrange).2.2 _ hv
  exact ⟨hrange, r, hr, hroom (.inr (.inr hbuilt))⟩

/-- **The volume that is left may be negative.** -/
theorem tin_overfull : ¬ ∀ p, Built Policy.InRange p →
    (∀ r, p.remainingWeight = .ok r → 0 ≤ r.toRat) ∧
      ∀ r, p.remainingVolume = .ok r → 0 ≤ r.toRat := by
  intro h
  have hrange : brimful.InRange := by
    refine ⟨⟨false, 1, 0⟩, rfl, ?_, ?_⟩ <;> norm_num [toRat, signed, magnitude]
  have hbuilt : Built Policy.InRange (tinOf [loaf, leaf] 100004) :=
    .add (.add (.ofCarton tin) hrange add_loaf) hrange add_leaf_on_top
  have hleft : (tinOf [loaf, leaf] 100004).remainingVolume = .ok ⟨true, 4, -2⟩ :=
    eq_ok_of_toOption (by decide)
  have hneg := (h _ hbuilt).2 _ hleft
  norm_num [toRat, signed, magnitude] at hneg

end Package

end Stowage
