import Stowage.Proofs.Measure.Fit
import Stowage.Proofs.Package.Built

/-!
# Refusals that last

What a package refuses it still refuses when it holds more, under policies whose threshold is in
range (`declines_of_stageOf`). Nothing can go wrong with the volumes on the way, because the items
of a package and the one that is refused fit into its carton. Only the weight of a carton that
carries more than the largest decimals may overflow before it can be compared.
-/

namespace Stowage.Package

open Decimal

variable {p p₀ : Package} {i : Item} {policy : Policy} {v x w : Decimal} {m : Weight}

/-! ## Bounds -/

theorem Built.eq_ofCarton {Q : Policy → Prop} (h : Built Q p) (hne : p.items = []) :
    p = Package.ofCarton p.carton := by
  cases h with
  | ofCarton c => rfl
  | add _ _ hadd => simp [items_of_add hadd] at hne

theorem Built.currentWeight_le {Q : Policy → Prop} (h : Built Q p)
    (hm : p.carton.maxWeight = .known m) : p.currentWeight.toRat ≤ m.value.value.toRat := by
  by_cases hne : p.items = []
  · rw [h.eq_ofCarton hne]
    exact toRat_zero.trans_le m.value.toRat_pos.le
  · obtain ⟨m', hm', hle⟩ := h.carried hne
    cases hm.symm.trans hm'
    exact hle

/-- The volume in use is at most half a unit in the fourth place of a ratio above the volume of the
carton. -/
theorem Built.usedVolume_lt (h : Built Policy.InRange p) (hv : p.cartonVolume = .ok v)
    (hpos : 0 < v.toRat) : p.usedVolume.toRat < 20001 / 20000 * v.toRat := by
  by_cases hne : p.items = []
  · rw [h.eq_ofCarton hne]
    exact toRat_zero.trans_lt (by linarith)
  · obtain ⟨policy, ⟨t, ht, -, hone⟩, v', r, hv', -, hr, hadmits⟩ := h.utilized hne
    cases hv.symm.trans hv'
    rw [ht] at hadmits
    exact lt_of_ratio_le_one h.sound.volume hpos hr (le_trans hadmits hone)

theorem itemWeight_le (hfit : p.carton.canFit i.dimensions i.weight = .ok true)
    (hm : p.carton.maxWeight = .known m) (hw : p.itemWeight i = .ok w) :
    w.toRat ≤ 4 * m.value.value.toRat := by
  obtain ⟨a, m', -, -, ha, hm', -, -, hheavier, -⟩ := Carton.canFit_eq_true_iff.1 hfit
  obtain ⟨b, m'', b', hb, hm'', hconvert, rfl⟩ := itemWeight_eq_ok.1 hw
  cases hm.symm.trans hm'
  cases hm.symm.trans hm''
  cases ha.symm.trans hb
  exact Weight.toRat_le_of_not_greater hheavier hconvert

theorem itemVolume_le (hfit : p.carton.canFit i.dimensions i.weight = .ok true)
    (hv : p.cartonVolume = .ok v) (hpos : 0 < v.toRat) (hx : p.itemVolume i = .ok x) :
    x.toRat ≤ 33 * v.toRat := by
  obtain ⟨-, -, o, d, -, -, ho, hd, -, hinside⟩ := Carton.canFit_eq_true_iff.1 hfit
  obtain ⟨o', ho', hv⟩ := cartonVolume_eq_ok.1 hv
  obtain ⟨d', o'', c, hd', ho'', hconvert, hx⟩ := itemVolume_eq_ok.1 hx
  cases ho.symm.trans ho'
  cases ho.symm.trans ho''
  cases hd.symm.trans hd'
  exact Dimensions.volume_le_of_canContain hconvert hinside hx hv hpos

theorem cartonVolume_lt (hv : p.cartonVolume = .ok v) : v.toRat < 10 ^ (26 : ℤ) := by
  obtain ⟨o, -, hv⟩ := cartonVolume_eq_ok.1 hv
  exact Dimensions.volume_lt hv

/-- The volumes of a package and of an item that fits into its carton can always be added and
divided by that of the carton. -/
theorem Built.exists_ratio (h : Built Policy.InRange p)
    (hfit : p.carton.canFit i.dimensions i.weight = .ok true) (hv : p.cartonVolume = .ok v)
    (hpos : 0 < v.toRat) (hx : p.itemVolume i = .ok x) :
    ∃ u r, p.volumeWith i = .ok u ∧ u.ratio v = .ok r := by
  have hused := h.usedVolume_lt hv hpos
  have hitem := itemVolume_le hfit hv hpos hx
  have hx0 := itemVolume_nonneg hx
  have hsum : 0 ≤ p.usedVolume.toRat + x.toRat := add_nonneg h.sound.volume hx0
  have hsmall : p.usedVolume.toRat + x.toRat < 10 ^ (28 : ℤ) := by
    have := cartonVolume_lt hv
    norm_num at this ⊢
    linarith
  obtain ⟨u, hu, hvalue⟩ := (add_rounds p.usedVolume x).exists_ok
    ((abs_of_nonneg hsum).trans_lt (lt_limit_of_lt (by decide) hsmall))
  rw [rounded_of_nonneg hsum] at hvalue
  have hle := nearest_le_two_mul hsum
  obtain ⟨r, hr⟩ := exists_ratio_of_le (c := 72) (nonneg_of_add h.sound.volume hx0 hu).1 hpos
    (by rw [hvalue]; linarith) (by norm_num)
  exact ⟨u, r, volumeWith_eq_ok.2 ⟨x, hx, hu⟩, hr⟩

/-! ## Refusing for good -/

/-- The weight of the package with the item overflows, which takes a carton that carries more than a
fifth of the largest decimals. -/
def Overloads (p : Package) (i : Item) : Prop :=
  p.weightWith i = .error (.arithmetic .overflow) ∧
    ∃ m, p.carton.maxWeight = .known m ∧ limit ≤ 5 * m.value.value.toRat

/-- The package does not take the item: it refuses it, or its weight overflows in the attempt. -/
def Declines (p : Package) (i : Item) (policy : Policy) : Prop :=
  p.accepts i policy = .ok false ∨
    p.accepts i policy = .error (.arithmetic .overflow) ∧ p.Overloads i

theorem Declines.not_accepts (h : p.Declines i policy) : p.accepts i policy ≠ .ok true := by
  rcases h with h | ⟨h, -⟩ <;> simp [h]

/-- The weight of a package with an item that fits into its carton has a value, or it overflows. -/
theorem Built.exists_weightWith {Q : Policy → Prop} (h : Built Q p)
    (hfit : p.carton.canFit i.dimensions i.weight = .ok true) (hw : p.itemWeight i = .ok w) :
    (∃ s, p.weightWith i = .ok s) ∨ p.Overloads i := by
  have hadd := add_rounds p.currentWeight w
  cases hs : p.currentWeight.add w with
  | ok s => exact .inl ⟨s, weightWith_eq_ok.2 ⟨w, hw, hs⟩⟩
  | error signal =>
    rw [hs] at hadd
    obtain ⟨rfl, hlimit⟩ := hadd
    obtain ⟨-, m, -, -, -, hm, -⟩ := Carton.canFit_eq_true_iff.1 hfit
    have hitem := itemWeight_le hfit hm hw
    have hcurrent := h.currentWeight_le hm
    rw [abs_of_nonneg (add_nonneg h.sound.weight (itemWeight_pos hw).le)] at hlimit
    exact .inr ⟨by simp [weightWith, hw, hs, Fallible.ofDecimal, Except.mapError], m, hm,
      by linarith⟩

/-- A package whose measures all have a value comes to an answer. -/
theorem Built.exists_accepts (h : Built Policy.InRange p) (hrange : policy.InRange)
    (hfit : p.carton.canFit i.dimensions i.weight = .ok true) {s : Decimal}
    (hs : p.weightWith i = .ok s) (hv : p.cartonVolume = .ok v) (hx : p.itemVolume i = .ok x) :
    ∃ b, p.accepts i policy = .ok b := by
  obtain ⟨-, m, -, -, -, hm, -⟩ := Carton.canFit_eq_true_iff.1 hfit
  rcases lt_or_ge m.value.value.toRat s.toRat with hheavy | hlight
  · exact ⟨false, accepts_of_overweight hfit hs hm hheavy⟩
  rcases le_or_gt v.toRat 0 with hflat | hpos
  · exact ⟨false, accepts_of_flat hfit hs hm hv hflat⟩
  obtain ⟨u, r, hu, hr⟩ := h.exists_ratio hfit hv hpos hx
  obtain ⟨t, ht, -⟩ := hrange
  obtain ⟨b, hb⟩ := Numeral.exists_exceeds_finite r t
  have hm' := Attribute.get_eq_ok.2 hm
  have hr' := Fallible.ofDecimal_eq_ok.2 hr
  have hb' := Fallible.ofDecimal_eq_ok.2 hb
  rw [← lt_eq_false_iff] at hlight
  rw [← toRat_zero, ← le_eq_false_iff] at hpos
  refine ⟨if b then false else p.allowsBeside i policy, ?_⟩
  cases b <;> simp [accepts, hfit, hs, hm', hlight, hv, hpos, hu, hr', ht, hb']

/-- A package comes to an answer, or its weight overflows, whenever a stage of it refuses the
item. -/
theorem Built.answers_of_stageOf (hp : Built Policy.InRange p) (h : p₀.StageOf p)
    (hrange : policy.InRange) (ha : p₀.accepts i policy = .ok false) :
    (∃ b, p.accepts i policy = .ok b) ∨
      p.accepts i policy = .error (.arithmetic .overflow) ∧ p.Overloads i := by
  obtain hfits | ⟨hfits, s₀, m, hs₀, hm, hrest⟩ := cases_of_refused ha
  · exact .inl ⟨false, accepts_of_not_fits (h.carton ▸ hfits)⟩
  rw [h.carton] at hfits hm
  obtain ⟨w, hw, -⟩ := weightWith_eq_ok.1 hs₀
  rw [h.itemWeight_eq] at hw
  obtain ⟨s, hs⟩ | hoverloads := hp.exists_weightWith hfits hw
  · rcases lt_or_ge m.value.value.toRat s.toRat with hheavy | hlight
    · exact .inl ⟨false, accepts_of_overweight hfits hs hm hheavy⟩
    -- the stage is not heavier, so it was not refused for its weight
    obtain hheavy | ⟨v, hv, hvolume⟩ := hrest
    · exact absurd ((h.weightWith_le hs₀ hs).trans hlight) hheavy.not_ge
    rw [h.cartonVolume_eq] at hv
    obtain hflat | ⟨u₀, hu₀⟩ := hvolume
    · exact .inl ⟨false, accepts_of_flat hfits hs hm hv hflat⟩
    obtain ⟨x, hx, -⟩ := volumeWith_eq_ok.1 hu₀
    rw [h.itemVolume_eq] at hx
    exact .inl (hp.exists_accepts hrange hfits hs hv hx)
  · exact .inr ⟨by simp [accepts, hfits, hoverloads.1], hoverloads⟩

/-- **What a package refuses it declines when it holds more.** -/
theorem declines_of_stageOf (hp₀ : p₀.Sound) (hp : Built Policy.InRange p) (h : p₀.StageOf p)
    (hrange : policy.InRange) (ha : p₀.accepts i policy = .ok false) : p.Declines i policy := by
  obtain ⟨b, hb⟩ | hoverflows := hp.answers_of_stageOf h hrange ha
  · cases b with
    | false => exact .inl hb
    | true => simp [accepts_of_stageOf hp₀ h hb] at ha
  · exact .inr hoverflows

end Stowage.Package
