import Stowage.Proofs.Packing.Totality

/-!
# The mean utilization

The parts of their volumes that packages use are numbers of units of the fourth place, and rounding
such a number leaves it as it is. So the mean of them, which is a rounded quotient of their sum,
lies between the smallest and the largest (`Decimal.mean_between`), and a threshold that admits all
of them admits the mean, whatever digits it has itself. The sum has to be exact for this, and it is
for up to 10²⁴ packages, more than a list has room for. Beyond that 28 digits would not be enough
for it, and a small utilization could be lost when it is added.
-/

namespace Stowage

open Decimal Packing Package

/-! ## Rounded means -/

namespace Decimal

variable {x lo hi : ℚ} {e : ℤ}

/-- What has no digit beyond a place is not rounded there. -/
theorem MultipleOf.atPlace_eq (h : MultipleOf e x) : atPlace e x = x := by
  obtain ⟨k, rfl⟩ := h
  rw [atPlace, mul_div_cancel_right₀ _ (ten_zpow_pos e).ne', Rounding.nearest_natCast]

/-- Neither rounding of a ratio leads past a number of units of the fourth place. -/
theorem ratio_between {n d r : Decimal} (hlo : MultipleOf (-4) lo) (hhi : MultipleOf (-4) hi)
    (hle : lo ≤ hi) (hdigits : hi ≤ 10 ^ (24 : ℤ)) (hd : 0 < d.toRat) (hn : lo * d.toRat ≤ n.toRat)
    (hn' : n.toRat ≤ hi * d.toRat) (h : n.ratio d = .ok r) : lo ≤ r.toRat ∧ r.toRat ≤ hi := by
  have hn0 : 0 ≤ n.toRat := (mul_nonneg hlo.nonneg hd.le).trans hn
  have hself : nearest lo = lo := hlo.nearest_eq (by decide) (hle.trans hdigits)
  have hself' : nearest hi = hi := hhi.nearest_eq (by decide) hdigits
  have hlow := nearest_mono hlo.nonneg ((le_div_iff₀ hd).2 hn)
  have hhigh := nearest_mono (div_nonneg hn0 hd.le) ((div_le_iff₀ hd).2 hn')
  rw [hself] at hlow
  rw [hself'] at hhigh
  rw [(ratio_spec hn0 hd h).1]
  constructor
  · exact hlo.atPlace_eq.symm.trans_le (atPlace_mono hlo.nonneg hlow)
  · exact (atPlace_mono (nearest_nonneg _) hhigh).trans_eq hhi.atPlace_eq

/-- The rounded mean of numbers of units of the fourth place lies within their bounds. -/
theorem mean_between {xs : List Decimal} {total mean : Decimal} (hne : xs ≠ [])
    (hcount : xs.length ≤ 10 ^ 24) (hxs : ∀ x ∈ xs, MultipleOf (-4) x.toRat)
    (hlo : MultipleOf (-4) lo) (hhi : MultipleOf (-4) hi) (hone : hi ≤ 1)
    (hbounds : ∀ x ∈ xs, lo ≤ x.toRat ∧ x.toRat ≤ hi) (htotal : Decimal.sum xs = .ok total)
    (hmean : total.ratio (Decimal.ofNat xs.length) = .ok mean) :
    lo ≤ mean.toRat ∧ mean.toRat ≤ hi := by
  have hlow := List.card_nsmul_le_sum (xs.map toRat) lo
    (List.forall_mem_map.2 fun x hx => (hbounds x hx).1)
  have hhigh := List.sum_le_card_nsmul (xs.map toRat) hi
    (List.forall_mem_map.2 fun x hx => (hbounds x hx).2)
  rw [List.length_map, nsmul_eq_mul, mul_comm] at hlow hhigh
  have hcount' : (xs.length : ℚ) ≤ 10 ^ (24 : ℤ) := by exact_mod_cast hcount
  have hpos : (0 : ℚ) < xs.length := by exact_mod_cast List.length_pos_iff.2 hne
  have hsmall : (xs.map toRat).sum ≤ 10 ^ (24 : ℤ) :=
    hhigh.trans ((mul_le_of_le_one_left hpos.le hone).trans hcount')
  obtain ⟨hsum, -⟩ := toRat_sum_of_multipleOf (by decide) hxs hsmall htotal
  rw [← hsum] at hlow hhigh
  obtain ⟨x, hx⟩ := List.exists_mem_of_ne_nil xs hne
  have hle := (hbounds x hx).1.trans (hbounds x hx).2
  refine ratio_between hlo hhi hle (hone.trans (by norm_num)) ?_ ?_ ?_ hmean <;> rwa [toRat_ofNat]

end Decimal

/-! ## Solutions -/

variable {items : List Item} {cartons : List Carton} {policy : Policy} {supply : Supply}
  {s : Solution} {p : Package} {t mean : Decimal}

/-- What a package in use uses is a number of units of the fourth place within the threshold. -/
theorem Packing.InUse.exists_utilization (h : InUse policy cartons p)
    (ht : policy.threshold = .finite t) : ∃ r, p.utilization = .ok r ∧
      MultipleOf (-4) r.toRat ∧ r.toRat ≤ t.toRat := by
  obtain ⟨v, r, hv, hpos, hr, hadmits⟩ := (h.built.filled h.nonempty).utilized
  rw [ht] at hadmits
  refine ⟨r, utilization_eq_ok_of_ratio hv hpos hr, ?_, hadmits⟩
  rw [(ratio_spec h.built.sound.volume hpos hr).1]
  exact multipleOf_atPlace _ _

/-- The mean is a ratio of the sum and the number of packages. -/
theorem Solution.averageUtilization_eq_ok (hne : s.packages ≠ []) :
    s.averageUtilization = .ok mean ↔ ∃ us total, s.packages.mapM Package.utilization = .ok us ∧
      Decimal.sum us = .ok total ∧ total.ratio (Decimal.ofNat us.length) = .ok mean := by
  rw [averageUtilization, if_neg (by simpa using hne)]
  simp only [bind_eq_ok, sumOver_eq_ok, Fallible.ofDecimal_eq_ok]
  constructor
  · rintro ⟨total, ⟨us, hus, htotal⟩, hmean⟩
    exact ⟨us, total, hus, htotal, length_of_mapM hus ▸ hmean⟩
  · rintro ⟨us, total, hus, htotal, hmean⟩
    exact ⟨total, ⟨us, hus, htotal⟩, (length_of_mapM hus).symm ▸ hmean⟩

/-- **The mean utilization lies between the smallest and the largest utilization** of the packages
of a solution that is not empty, and it is at most the threshold that the solution was calculated
with, although all of them are rounded. The number of packages is one that 28 digits are enough for,
which is a hundred thousand times what a list has room for. -/
theorem averageUtilization_between (h : (pack items cartons policy supply).1 = .ok s)
    (ht : policy.threshold = .finite t) (hone : t.toRat ≤ 1) (hne : s.packages ≠ [])
    (hcount : s.packages.length ≤ 10 ^ 24) :
    ∃ us mean, s.packages.mapM Package.utilization = .ok us ∧ s.averageUtilization = .ok mean ∧
      (∃ lo ∈ us, ∃ hi ∈ us, (∀ u ∈ us, lo.toRat ≤ u.toRat ∧ u.toRat ≤ hi.toRat) ∧
        lo.toRat ≤ mean.toRat ∧ mean.toRat ≤ hi.toRat) ∧ mean.toRat ≤ t.toRat := by
  obtain ⟨ps, mean, -, -, hmean⟩ := pack_eq_ok_iff.1 h
  obtain ⟨units, cs, -, -, hrun⟩ := run_of_pack h
  obtain ⟨us, total, hus, htotal, hratio⟩ := (Solution.averageUtilization_eq_ok hne).1 hmean
  have hpackage : ∀ u ∈ us, MultipleOf (-4) u.toRat ∧ u.toRat ≤ t.toRat := by
    intro u hu
    obtain ⟨p, hp, hpu⟩ := (mem_of_mapM hus).1 u hu
    obtain ⟨r, hr, hplaces, hle⟩ := (hrun.inUse p hp).exists_utilization ht
    cases hpu.symm.trans hr
    exact ⟨hplaces, hle⟩
  have hlength := length_of_mapM hus
  have husne : us ≠ [] := by
    rw [← List.length_pos_iff, ← hlength]
    exact List.length_pos_iff.2 hne
  have hset := (List.toFinset_nonempty_iff us).2 husne
  obtain ⟨lo, hlo, hmin⟩ := us.toFinset.exists_min_image toRat hset
  obtain ⟨hi, hhi, hmax⟩ := us.toFinset.exists_max_image toRat hset
  simp only [List.mem_toFinset] at hlo hmin hhi hmax
  have hbounds := fun u hu => And.intro (hmin u hu) (hmax u hu)
  obtain ⟨hlow, hhigh⟩ := mean_between husne (hlength ▸ hcount) (fun u hu => (hpackage u hu).1)
    (hpackage lo hlo).1 (hpackage hi hhi).1 ((hpackage hi hhi).2.trans hone) hbounds htotal hratio
  exact ⟨us, mean, hus, hmean, ⟨lo, hlo, hi, hhi, hbounds, hlow, hhigh⟩,
    hhigh.trans (hpackage hi hhi).2⟩

-- so that roundings of given decimals can be computed
attribute [local semireducible] digitCount

/-- Two chests of which one is three quarters full and the other about half. -/
theorem averageUtilization_between_chests :
    (pack [brick, kerb] [chest] .usual .start).1 =
      .ok (Solution.create [chestOfBrick, chestOfKerb] none .start).1 ∧
    [chestOfBrick, chestOfKerb].mapM Package.utilization =
      .ok [⟨false, 7500, -4⟩, ⟨false, 5013, -4⟩] ∧
    ∃ mean, (Solution.create [chestOfBrick, chestOfKerb] none .start).1.averageUtilization =
      .ok mean ∧ 5013 / 10000 ≤ mean.toRat ∧ mean.toRat ≤ 7500 / 10000 := by
  have hparts : [chestOfBrick, chestOfKerb].mapM Package.utilization =
      .ok [⟨false, 7500, -4⟩, ⟨false, 5013, -4⟩] := eq_ok_of_toOption (by decide)
  obtain ⟨us, mean, hus, hmean, ⟨lo, hlo, hi, hhi, -, hlow, hhigh⟩, -⟩ :=
    averageUtilization_between pack_brick_and_kerb rfl (by norm_num [toRat, signed, magnitude])
      (List.cons_ne_nil _ _) (by decide)
  obtain rfl := Except.ok.inj (hus.symm.trans hparts)
  have hbounds : ∀ u ∈ [(⟨false, 7500, -4⟩ : Decimal), ⟨false, 5013, -4⟩],
      5013 / 10000 ≤ u.toRat ∧ u.toRat ≤ 7500 / 10000 := by
    simp only [List.forall_mem_cons]
    norm_num [toRat, signed, magnitude]
  exact ⟨pack_brick_and_kerb, hparts, mean, hmean, (hbounds lo hlo).1.trans hlow,
    hhigh.trans (hbounds hi hhi).2⟩

end Stowage
