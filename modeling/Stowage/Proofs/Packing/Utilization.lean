import Stowage.Proofs.Package.Answers
import Stowage.Proofs.Packing.Capacity

/-!
# Ratios are rounded correctly

A ratio is rounded twice, to 28 digits and then to four places, and next to a tie of the second
rounding the first one may lead to a result other than that of a single rounding. Not so for
quotients of hundredths that are not huge: such a quotient is a tie or farther away from every tie
than 28 digits can take it (`nearest_lt_tie`), and so its ratio is the exact quotient rounded once
(`exists_ratio_of_isHundredths`). All volumes that are compared while a request is packed that
passed validation are of that kind.
-/

namespace Stowage

open Decimal Packing Package

/-! ## Rounding twice -/

namespace Decimal

section Quotient

variable {a b k : ℕ}

/-- A quotient below a tie stays below it when it is rounded to 28 digits. -/
theorem nearest_lt_tie (hb : 0 < b) (hb' : b ≤ 10 ^ 28) (ha : a < 10 ^ 22)
    (h : (a / b : ℚ) < (k + 1 / 2) * 10 ^ (-4 : ℤ)) :
    nearest (a / b) < (k + 1 / 2) * 10 ^ (-4 : ℤ) := by
  have hb0 : (0 : ℚ) < b := by exact_mod_cast hb
  rcases Nat.eq_zero_or_pos a with rfl | hpos
  · simp only [Nat.cast_zero, zero_div, nearest_zero]
    positivity
  -- the distance to the tie is a whole number of units of which 20000 times the divisor make one
  have hunits : 20000 * (a : ℚ) + 1 ≤ (2 * k + 1) * b := by
    rw [div_lt_iff₀ hb0] at h
    norm_num at h
    have hlt : (20000 * a : ℚ) < (2 * k + 1) * b := by linarith
    exact_mod_cast hlt
  have hsmall : (10 : ℚ) ^ (-99 : ℤ) ≤ a / b := by
    have hone : (1 : ℚ) ≤ a := by exact_mod_cast hpos
    have hlarge : (b : ℚ) ≤ 10 ^ 28 := by exact_mod_cast hb'
    rw [le_div_iff₀ hb0]
    norm_num
    linarith
  have hdrift : (a : ℚ) * 10 ^ (-27 : ℤ) < 1 / 20000 := by
    have hbound : (a : ℚ) < 10 ^ 22 := by exact_mod_cast ha
    norm_num
    linarith
  calc nearest (a / b) ≤ drift * (a / b) := nearest_le_drift_mul hsmall
    _ = (a + a * 10 ^ (-27 : ℤ)) / b := by rw [drift]; ring
    _ < (a + 1 / 20000) / b := div_lt_div_of_pos_right (by linarith) hb0
    _ ≤ (k + 1 / 2) * 10 ^ (-4 : ℤ) := by
      rw [div_le_iff₀ hb0]
      norm_num
      linarith

/-- **A quotient rounded to 28 digits and then to four places is rounded correctly.** -/
theorem atPlace_nearest_div (hb : 0 < b) (hb' : b ≤ 10 ^ 28) (ha : a < 10 ^ 22) :
    atPlace (-4) (nearest (a / b)) = atPlace (-4) (a / b) := by
  have hx : (0 : ℚ) ≤ a / b := by positivity
  refine le_antisymm ?_ ?_
  · exact (atPlace_le_iff (nearest_nonneg _)).2 (nearest_lt_tie hb hb' ha
      ((atPlace_le_iff hx).1 le_rfl))
  · refine (atPlace_le_iff hx).2 (lt_of_not_ge fun htie => ?_)
    have hbelow := (atPlace_le_iff (nearest_nonneg (a / b : ℚ))).1 le_rfl
    generalize Rounding.halfUp.nearest (nearest (a / b) / 10 ^ (-4 : ℤ)) = m at htie hbelow
    -- a tie that is not above the quotient has few digits, and rounding does not lead below it
    have hdigits : m ≤ 10 ^ 26 := by
      have hquot : (a / b : ℚ) ≤ a := div_le_self (Nat.cast_nonneg a) (by exact_mod_cast hb)
      have hbound : (a : ℚ) < 10 ^ 22 := by exact_mod_cast ha
      have hle : (m : ℚ) ≤ 10 ^ 26 := by linarith
      exact_mod_cast hle
    have hmono := nearest_mono (by positivity) htie
    rw [nearest_tie hdigits] at hmono
    exact hmono.not_gt hbelow

end Quotient

variable {n d : Decimal}

/-- **A ratio of hundredths is the exact quotient rounded to four places**, a half rounded up. -/
theorem exists_ratio_of_isHundredths (hn : IsHundredths n.toRat) (hn' : n.toRat < 10 ^ 20)
    (hd : IsHundredths d.toRat) (hd0 : 0 < d.toRat) (hd' : d.toRat < 10 ^ (26 : ℤ)) :
    ∃ r, n.ratio d = .ok r ∧ r.toRat = atPlace (-4) (n.toRat / d.toRat) := by
  obtain ⟨a, ha⟩ := id hn
  obtain ⟨b, hb⟩ := id hd
  have hquot : n.toRat / d.toRat = a / b := by
    rw [ha, hb, mul_div_mul_right _ _ (ten_zpow_pos (-2)).ne']
  have hb0 : 0 < b := by
    rw [hb] at hd0
    exact_mod_cast pos_of_mul_pos_left hd0 (ten_zpow_pos (-2)).le
  have hb' : b ≤ 10 ^ 28 := by
    rw [hb] at hd'
    norm_num at hd'
    have hle : (b : ℚ) ≤ 10 ^ 28 := by linarith
    exact_mod_cast hle
  have ha' : a < 10 ^ 22 := by
    rw [ha] at hn'
    norm_num at hn'
    have hlt : (a : ℚ) < 10 ^ 22 := by linarith
    exact_mod_cast hlt
  have hpart : n.toRat ≤ 10 ^ 22 * d.toRat := by
    have hone : (1 : ℚ) ≤ b := by exact_mod_cast hb0
    rw [hb]
    norm_num
    linarith
  obtain ⟨r, hr⟩ := exists_ratio_of_le hn.nonneg hd0 hpart le_rfl
  refine ⟨r, hr, ?_⟩
  rw [(ratio_spec hn.nonneg hd0 hr).1, hquot, atPlace_nearest_div hb0 hb' ha']

end Decimal

/-! ## Tests of a threshold -/

/-- The answer of a validator when a ratio has a value. -/
theorem Validation.exceedsThreshold_eq_ok {n d r t : Decimal} (hd : 0 < d.toRat)
    (hr : n.ratio d = .ok r) :
    exceedsThreshold (some (.finite n)) (some (.finite d)) (some (.finite t)) =
      .ok (decide (t.toRat < r.toRat)) := by
  have hzero : Numeral.sameValue (.finite d) Decimal.zero = .ok false := by
    simp [Numeral.sameValue, Numeral.isNan, Numeral.order, compareValue_eq, hd.ne']
  obtain ⟨q, hq, hquant⟩ := bind_eq_ok.1 hr
  have hratio : Numeral.ratio (.finite n) (.finite d) = .ok (.finite r) := by
    simp [Numeral.ratio, Numeral.div, Numeral.nanResult?, Numeral.quantize, hq, hquant, Except.map]
  simp [exceedsThreshold, hzero, hratio, Numeral.exceeds_finite, Fallible.ofDecimal,
    Except.mapError]

/-- The answer of a package that an item fits into and whose weight it leaves within bounds. -/
theorem Package.accepts_of_ratio {p : Package} {i : Item} {policy : Policy} {v u r t : Decimal}
    (hfits : p.carton.canFit i.dimensions i.weight = .ok true) (hweight : p.WithinWeight i)
    (hv : p.cartonVolume = .ok v) (hpos : 0 < v.toRat) (hu : p.volumeWith i = .ok u)
    (hr : u.ratio v = .ok r) (ht : policy.threshold = .finite t) :
    p.accepts i policy = .ok (decide (r.toRat ≤ t.toRat) && p.allowsBeside i policy) := by
  by_cases hle : r.toRat ≤ t.toRat
  · rw [accepts_of_within hfits hweight ⟨v, u, r, hv, hpos, hu, hr, ht ▸ hle⟩, decide_eq_true hle,
      Bool.true_and]
  · obtain ⟨s, m, hs, hm, -⟩ := hweight
    have hm' := Attribute.get_eq_ok.2 hm
    rw [← toRat_zero, ← le_eq_false_iff] at hpos
    simp [accepts, hfits, hs, hm', hv, hpos, hu, hr, ht, Numeral.exceeds_finite, hle, not_le.1 hle,
      Fallible.ofDecimal, Except.mapError]

/-- The volume of a carton is one of the divisors whose ratios are rounded correctly. -/
theorem Package.exists_ratio_of_cartonVolume {p : Package} {n v : Decimal}
    (hn : IsHundredths n.toRat) (hn' : n.toRat < 10 ^ 20) (hv : p.cartonVolume = .ok v)
    (hpos : 0 < v.toRat) :
    ∃ r, n.ratio v = .ok r ∧ r.toRat = atPlace (-4) (n.toRat / v.toRat) := by
  obtain ⟨outer, -, hvolume⟩ := cartonVolume_eq_ok.1 hv
  exact exists_ratio_of_isHundredths hn hn' (Dimensions.isHundredths_volume hvolume) hpos
    (Dimensions.volume_lt hvolume)

/-! ## Packages of a request -/

namespace Packing

/-- A package that comes up while a request is packed: one that is in use after some of the pieces
have been placed, or an empty one on one of the cartons. -/
def Arises (items : List Item) (cartons : List Carton) (policy : Policy) (p : Package) : Prop :=
  ∃ units cs placed rest ps, sortItems items = .ok units ∧ sortCartons cartons = .ok cs ∧
    units = placed ++ rest ∧ Run policy cs placed ps ∧ (p ∈ ps ∨ ∃ c ∈ cs, p = ofCarton c)

variable {items : List Item} {cartons : List Carton} {policy : Policy} {p : Package} {i : Item}
  {v x : Decimal}

/-- It holds pieces of the request, and its volume in use is the sum of their volumes. -/
theorem Arises.boxed (h : Arises items cartons policy p)
    (hcheck : Validation.check (some (items.map some)) (some policy) = .ok ()) :
    (∀ i ∈ p.items, i.IsBoxed) ∧ p.items.length ≤ 5000 ∧
      IsTotal p.itemVolume p.items p.usedVolume := by
  obtain ⟨units, cs, placed, rest, ps, hunits, -, rfl, hrun, hp | ⟨c, -, rfl⟩⟩ := h
  · obtain ⟨-, hlines, -⟩ := Validation.validated_of_check hcheck
    obtain ⟨hperm, hcount⟩ := pieces_of_sortItems hcheck hunits
    have hsub := (hrun.items_subperm hp).trans (List.sublist_append_left placed rest).subperm
    refine ⟨fun i hi => ?_, hsub.length_le.trans hcount, (hrun.inUse p hp).built.volume_isTotal⟩
    obtain ⟨line, hline, rfl⟩ :=
      Item.exists_line_of_mem_singles (hperm.subset (hsub.subset hi))
    exact (hlines line hline).box
  · exact ⟨by simp [ofCarton], by simp [ofCarton], isTotal_nil _⟩

/-- Its volume in use is a number of hundredths that is not huge. -/
theorem Arises.isHundredths_usedVolume (h : Arises items cartons policy p)
    (hcheck : Validation.check (some (items.map some)) (some policy) = .ok ())
    (hv : p.cartonVolume = .ok v) :
    IsHundredths p.usedVolume.toRat ∧ p.usedVolume.toRat ≤ 5000 * 10 ^ (12 : ℤ) := by
  obtain ⟨hboxed, hcount, htotal⟩ := h.boxed hcheck
  obtain ⟨outer, houter, -⟩ := cartonVolume_eq_ok.1 hv
  obtain ⟨-, hcents, hle⟩ := exactContents_le hboxed hcount houter htotal
  have hcount' : (p.items.length : ℚ) ≤ 5000 := by exact_mod_cast hcount
  exact ⟨hcents, hle.trans (mul_le_mul_of_nonneg_right hcount' (ten_zpow_pos _).le)⟩

/-- With one more piece of the request, it is the exact sum. -/
theorem Arises.exists_volumeWith (h : Arises items cartons policy p)
    (hcheck : Validation.check (some (items.map some)) (some policy) = .ok ())
    (hv : p.cartonVolume = .ok v) (hi : i.IsBoxed) (hx : p.itemVolume i = .ok x) :
    ∃ u, p.volumeWith i = .ok u ∧ u.toRat = p.usedVolume.toRat + x.toRat ∧
      IsHundredths u.toRat ∧ u.toRat < 10 ^ 20 := by
  obtain ⟨hused, hle⟩ := h.isHundredths_usedVolume hcheck hv
  obtain ⟨outer, houter, -⟩ := cartonVolume_eq_ok.1 hv
  obtain ⟨-, hcents, hle'⟩ := exactVolumeIn_le hi houter hx
  have hsum := hused.add hcents
  have hsmall : p.usedVolume.toRat + x.toRat < 10 ^ 20 := by linarith
  obtain ⟨u, hu, hvalue⟩ := (add_rounds p.usedVolume x).exists_ok (by
    rw [abs_of_nonneg hsum.nonneg]
    exact lt_limit_of_lt (e := 20) (by decide) hsmall)
  rw [rounded_of_nonneg hsum.nonneg, hsum.nearest_eq (hsmall.le.trans (by norm_num))] at hvalue
  exact ⟨u, volumeWith_eq_ok.2 ⟨x, hx, hu⟩, hvalue, hvalue ▸ hsum, hvalue ▸ hsmall⟩

/-- The part of its carton's volume in use is rounded correctly. -/
theorem Arises.exists_utilization (h : Arises items cartons policy p)
    (hcheck : Validation.check (some (items.map some)) (some policy) = .ok ())
    (hv : p.cartonVolume = .ok v) (hpos : 0 < v.toRat) :
    ∃ r, p.utilization = .ok r ∧ r.toRat = atPlace (-4) (p.usedVolume.toRat / v.toRat) := by
  obtain ⟨hused, hle⟩ := h.isHundredths_usedVolume hcheck hv
  obtain ⟨r, hr, hvalue⟩ := exists_ratio_of_cartonVolume hused (by linarith) hv hpos
  exact ⟨r, utilization_eq_ok_of_ratio hv hpos hr, hvalue⟩

/-- Whether it accepts a piece that passes the tests before depends on the ratio that is rounded
correctly. -/
theorem Arises.accepts_eq (h : Arises items cartons policy p)
    (hcheck : Validation.check (some (items.map some)) (some policy) = .ok ())
    (hv : p.cartonVolume = .ok v) (hpos : 0 < v.toRat) (hi : i.IsBoxed)
    (hx : p.itemVolume i = .ok x) {t : Decimal} (ht : policy.threshold = .finite t)
    (hfits : p.carton.canFit i.dimensions i.weight = .ok true) (hweight : p.WithinWeight i) :
    p.accepts i policy =
      .ok (decide (atPlace (-4) ((p.usedVolume.toRat + x.toRat) / v.toRat) ≤ t.toRat) &&
        p.allowsBeside i policy) := by
  obtain ⟨u, hu, hsum, hcents, hsmall⟩ := h.exists_volumeWith hcheck hv hi hx
  obtain ⟨r, hr, hvalue⟩ := exists_ratio_of_cartonVolume hcents hsmall hv hpos
  rw [accepts_of_ratio hfits hweight hv hpos hu hr ht, hvalue, hsum]

end Packing

/-- **Ratios are rounded correctly.** The ratio of a number of hundredths below 10²⁰ to a positive
number of hundredths below 10²⁶ has a value, which is the exact quotient rounded to four places with
a half rounded up, and a validator compares that value with a threshold. So does every package that
comes up while a request is packed that passed validation: the part of its carton's volume in use,
and the part that would be in use with one more piece, are exact quotients rounded once. -/
theorem ratio_rounds_correctly :
    (∀ n d : Decimal, IsHundredths n.toRat → n.toRat < 10 ^ 20 → IsHundredths d.toRat →
      0 < d.toRat → d.toRat < 10 ^ 26 →
        (∃ r, n.ratio d = .ok r ∧ r.toRat = atPlace (-4) (n.toRat / d.toRat)) ∧
        ∀ t : Decimal, Validation.exceedsThreshold (some (.finite n)) (some (.finite d))
          (some (.finite t)) = .ok (decide (t.toRat < atPlace (-4) (n.toRat / d.toRat)))) ∧
    ∀ (items : List Item) (cartons : List Carton) (policy : Policy),
      Validation.check (some (items.map some)) (some policy) = .ok () →
      ∀ p, Arises items cartons policy p → ∀ v, p.cartonVolume = .ok v → 0 < v.toRat →
        (∃ r, p.utilization = .ok r ∧
          r.toRat = atPlace (-4) (p.usedVolume.toRat / v.toRat)) ∧
        ∀ line ∈ items, ∀ x t, p.itemVolume line.single = .ok x → policy.threshold = .finite t →
          p.carton.canFit line.single.dimensions line.single.weight = .ok true →
          p.WithinWeight line.single →
            p.accepts line.single policy =
              .ok (decide (atPlace (-4) ((p.usedVolume.toRat + x.toRat) / v.toRat) ≤ t.toRat) &&
                p.allowsBeside line.single policy) := by
  refine ⟨fun n d hn hn' hd hd0 hd' => ?_, fun items cartons policy hcheck p hp v hv hpos => ?_⟩
  · obtain ⟨r, hr, hvalue⟩ := exists_ratio_of_isHundredths hn hn' hd hd0 (by exact_mod_cast hd')
    exact ⟨⟨r, hr, hvalue⟩, fun t =>
      hvalue ▸ Validation.exceedsThreshold_eq_ok hd0 hr⟩
  · refine ⟨hp.exists_utilization hcheck hv hpos, fun line hline x t hx ht hfits hweight => ?_⟩
    have hbox : line.single.IsBoxed :=
      ((Validation.validated_of_check hcheck).2.1 line hline).box
    exact hp.accepts_eq hcheck hv hpos hbox hx ht hfits hweight

-- so that roundings of given decimals can be computed
attribute [local semireducible] digitCount

theorem arises_crateOfBrick : Arises [bricks] [crate] .usual crateOfBrick :=
  ⟨_, _, _, [], _, sortItems_bricks, sortCartons_crate, rfl, run_bricks, .inl List.mem_cons_self⟩

/-- A tie, and a crate that is asked to take a second brick. -/
theorem ratio_rounds_correctly_bricks :
    (∃ r, Decimal.ratio ⟨false, 1, 0⟩ ⟨false, 20000, 0⟩ = .ok r ∧
      r.toRat = atPlace (-4) (toRat ⟨false, 1, 0⟩ / toRat ⟨false, 20000, 0⟩)) ∧
    Arises [bricks] [crate] .usual crateOfBrick ∧
    (∃ r, crateOfBrick.utilization = .ok r ∧
      r.toRat = atPlace (-4) (toRat ⟨false, 600, -2⟩ / toRat ⟨false, 800, -2⟩)) ∧
    crateOfBrick.accepts brick .usual = .ok (decide (atPlace (-4)
      ((toRat ⟨false, 600, -2⟩ + toRat ⟨false, 600, -2⟩) / toRat ⟨false, 800, -2⟩) ≤
        toRat ⟨false, 95, -2⟩) && crateOfBrick.allowsBeside brick .usual) := by
  have hone : IsHundredths (toRat ⟨false, 1, 0⟩) :=
    ⟨100, by norm_num [toRat, signed, magnitude]⟩
  have hwhole : IsHundredths (toRat ⟨false, 20000, 0⟩) :=
    ⟨2000000, by norm_num [toRat, signed, magnitude]⟩
  have htie := ratio_rounds_correctly.1 ⟨false, 1, 0⟩ ⟨false, 20000, 0⟩ hone
    (by norm_num [toRat, signed, magnitude]) hwhole (by norm_num [toRat, signed, magnitude])
    (by norm_num [toRat, signed, magnitude])
  have hvolume : crateOfBrick.cartonVolume = .ok ⟨false, 800, -2⟩ := eq_ok_of_toOption (by decide)
  have hbrick : crateOfBrick.itemVolume brick = .ok ⟨false, 600, -2⟩ :=
    eq_ok_of_toOption (by decide)
  have hweight : crateOfBrick.WithinWeight brick :=
    ⟨⟨false, 6, 0⟩, _, eq_ok_of_toOption (by decide), rfl,
      by norm_num [toRat, signed, magnitude]⟩
  obtain ⟨hutilization, haccepts⟩ := ratio_rounds_correctly.2 [bricks] [crate] .usual check_bricks
    crateOfBrick arises_crateOfBrick _ hvolume (by norm_num [toRat, signed, magnitude])
  exact ⟨htie.1, arises_crateOfBrick, hutilization,
    haccepts bricks List.mem_cons_self _ _ hbrick rfl brick_fits hweight⟩

end Stowage
