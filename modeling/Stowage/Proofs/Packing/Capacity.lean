import Stowage.Proofs.Packing.Run
import Stowage.Proofs.Packing.Validated

/-!
# How much a package holds

The volumes that are added up and compared are rounded, and so the exact volume of what lies in a
package may be more than that of its carton, by as much as the roundings allow
(`pack_contents_le`). Pills show that it can be: two of them are put into a box for one, each being
so small that its volume is counted as nothing.
-/

namespace Stowage

open Decimal Packing Package

/-! ## Exact volumes -/

/-- The exact volume of one piece of an item, in cubes of a unit. -/
def Item.exactVolumeIn (i : Item) (unit : LengthUnit) : ℚ :=
  match i.dimensions with
  | .known d => d.exactVolumeIn unit
  | _ => 0

/-- The exact volume of what lies in a package, in cubes of a unit. -/
def Package.exactContents (p : Package) (unit : LengthUnit) : ℚ :=
  (p.items.map (·.exactVolumeIn unit)).sum

/-! ## Totals -/

namespace Package

variable {p : Package} {i : Item} {items : List Item} {outer : Dimensions} {v w r t : Decimal}

theorem exactVolumeIn_le (hi : i.IsBoxed) (hp : p.carton.dimensions = .known outer)
    (hv : p.itemVolume i = .ok v) :
    i.exactVolumeIn outer.unit ≤ drift ^ 5 * (v.toRat + 1 / 200) ∧ IsHundredths v.toRat ∧
      v.toRat ≤ 10 ^ (12 : ℤ) := by
  obtain ⟨d, hd, hbounded⟩ := hi
  obtain ⟨d₁, o, d', hd₁, ho, hconvert, hvolume⟩ := itemVolume_eq_ok.1 hv
  cases hd.symm.trans hd₁
  cases hp.symm.trans ho
  rw [Item.exactVolumeIn, hd]
  exact ⟨Dimensions.exactVolumeIn_le hbounded hconvert hvolume,
    Dimensions.isHundredths_volume hvolume,
    Dimensions.volume_le_of_bounded hbounded hconvert hvolume⟩

/-- What is counted of several pieces. -/
theorem exactVolumes_le (hitems : ∀ i ∈ items, i.IsBoxed) (hp : p.carton.dimensions = .known outer)
    {xs : List Decimal} (hxs : items.mapM p.itemVolume = .ok xs) :
    (items.map (·.exactVolumeIn outer.unit)).sum ≤
        drift ^ 5 * ((xs.map toRat).sum + items.length / 200) ∧
      (∀ x ∈ xs, IsHundredths x.toRat) ∧ (xs.map toRat).sum ≤ items.length * 10 ^ (12 : ℤ) := by
  induction items generalizing xs with
  | nil =>
    cases hxs
    simp
  | cons i items ih =>
    obtain ⟨v, vs, hv, hvs, rfl⟩ := mapM_eq_ok_cons.1 hxs
    obtain ⟨hi, hrest⟩ := List.forall_mem_cons.1 hitems
    obtain ⟨hexact, hcents, hbound⟩ := exactVolumeIn_le hi hp hv
    obtain ⟨hexacts, hcents', hbound'⟩ := ih hrest hvs
    refine ⟨?_, List.forall_mem_cons.2 ⟨hcents, hcents'⟩, ?_⟩
    · simp only [List.map_cons, List.sum_cons, List.length_cons]
      push_cast
      linarith
    · simp only [List.map_cons, List.sum_cons, List.length_cons]
      push_cast
      linarith

/-- **What is counted of the contents**: all but half a hundredth for each piece. The total is the
exact sum of the rounded volumes, since 28 digits are enough for it. -/
theorem exactContents_le (hitems : ∀ i ∈ p.items, i.IsBoxed) (hcount : p.items.length ≤ 5000)
    (hp : p.carton.dimensions = .known outer) (htotal : IsTotal p.itemVolume p.items v) :
    p.exactContents outer.unit ≤ drift ^ 5 * (v.toRat + p.items.length / 200) ∧
      IsHundredths v.toRat ∧ v.toRat ≤ p.items.length * 10 ^ (12 : ℤ) := by
  obtain ⟨xs, hxs, hsum⟩ := htotal
  obtain ⟨hexact, hcents, hbound⟩ := exactVolumes_le hitems hp hxs
  have hcount' : (p.items.length : ℚ) ≤ 5000 := by exact_mod_cast hcount
  have hdigits : (xs.map toRat).sum ≤ 10 ^ (26 : ℤ) := by
    norm_num at hbound ⊢
    linarith
  obtain ⟨hv, hcent⟩ := toRat_sum hcents hdigits hsum
  rw [hv]
  exact ⟨hexact, hv ▸ hcent, hbound⟩

/-- What a threshold allows, half a unit of the last place of the ratio included. -/
theorem le_of_ratio_le (hv : IsHundredths v.toRat) (hw : 0 < w.toRat)
    (hw' : w.toRat < 10 ^ (26 : ℤ)) (h : v.ratio w = .ok r) (hr : r.toRat ≤ t.toRat) :
    v.toRat ≤ drift * (t.toRat + 1 / 20000) * w.toRat := by
  obtain ⟨hratio, -, -⟩ := ratio_spec hv.nonneg hw h
  have hnear := le_atPlace_add_half (e := -4) (nearest_nonneg (v.toRat / w.toRat))
  rw [← hratio] at hnear
  norm_num at hnear
  obtain ⟨n, hn⟩ := hv
  rw [← div_le_iff₀ hw]
  rcases Nat.eq_zero_or_pos n with rfl | hpos
  · have hr0 : 0 ≤ r.toRat := hratio ▸ atPlace_nonneg _ _
    rw [hn]
    have := mul_nonneg drift_pos.le (show 0 ≤ t.toRat + 1 / 20000 by linarith)
    simpa using this
  · have hquot : 10 ^ (-99 : ℤ) ≤ v.toRat / w.toRat := by
      have hone : (1 : ℚ) ≤ n := by exact_mod_cast hpos
      rw [le_div_iff₀ hw, hn]
      norm_num at hw' ⊢
      linarith
    calc v.toRat / w.toRat ≤ drift * nearest (v.toRat / w.toRat) := le_drift_mul_nearest hquot
      _ ≤ drift * (t.toRat + 1 / 20000) := mul_le_mul_of_nonneg_left (by linarith) drift_pos.le

theorem exactContents_le_of_tiny {unit : LengthUnit}
    (h : ∀ i ∈ p.items, i.exactVolumeIn unit ≤ 1 / 200) :
    p.exactContents unit ≤ p.items.length / 200 := by
  have hsum :=
    List.sum_le_card_nsmul (p.items.map (·.exactVolumeIn unit)) (1 / 200) (by simpa using h)
  rw [List.length_map, nsmul_eq_mul] at hsum
  rw [exactContents]
  linarith

/-- The volume of a carton is counted at most half a hundredth too high if something fits in that is
not tiny. -/
theorem volume_le_of_fits (hi : i.IsBoxed) (hp : p.carton.dimensions = .known outer)
    (hfits : p.carton.canFit i.dimensions i.weight = .ok true)
    (hvolume : 1 / 200 < i.exactVolumeIn outer.unit) (hw : outer.volume = .ok w) :
    w.toRat ≤ drift ^ 2 * (outer.exactVolume + 1 / 200) := by
  obtain ⟨d, hd, hbounded⟩ := hi
  obtain ⟨-, -, o, d₁, -, -, ho, hd₁, -, hcontains⟩ := Carton.canFit_eq_true_iff.1 hfits
  cases hp.symm.trans ho
  cases hd.symm.trans hd₁
  rw [Item.exactVolumeIn, hd] at hvolume
  have hround := Dimensions.volume_le_of_contains hbounded hcontains hvolume hw
  have hone := one_le_pow₀ (n := 2) one_le_drift
  linarith

/-- **How much a package holds.** What is in it is at most what the threshold allows of its carton,
where the threshold may be exceeded by half a unit in its fourth place, the volume of the carton by
half a hundredth, and that of each piece may be half a hundredth more than is counted. -/
theorem exactContents_le_of_filled {policy : Policy} (hfilled : p.Filled policy)
    (ht : policy.threshold = .finite t) (ht0 : 0 < t.toRat) (hitems : ∀ i ∈ p.items, i.IsBoxed)
    (hcount : p.items.length ≤ 5000) (hp : p.carton.dimensions = .known outer) :
    p.exactContents outer.unit ≤ (1 + 10 ^ (-26 : ℤ)) *
      ((t.toRat + 1 / 20000) * (outer.exactVolume + 1 / 200) + p.items.length / 200) := by
  have hV := outer.exactVolume_pos
  have hn : (0 : ℚ) ≤ p.items.length / 200 := by positivity
  have ht1 : 0 ≤ t.toRat + 1 / 20000 := by linarith
  have hallowed := mul_nonneg ht1 (show 0 ≤ outer.exactVolume + 1 / 200 by linarith)
  by_cases htiny : ∀ i ∈ p.items, i.exactVolumeIn outer.unit ≤ 1 / 200
  · calc p.exactContents outer.unit ≤ p.items.length / 200 := exactContents_le_of_tiny htiny
      _ ≤ 1 * ((t.toRat + 1 / 20000) * (outer.exactVolume + 1 / 200) + p.items.length / 200) := by
        linarith
      _ ≤ _ := mul_le_mul_of_nonneg_right (by norm_num) (by linarith)
  -- some piece is not tiny, so the carton around it is not tiny either
  obtain ⟨i, hi, hvolume⟩ : ∃ i ∈ p.items, 1 / 200 < i.exactVolumeIn outer.unit := by
    simpa using htiny
  obtain ⟨hcontents, hcent, -⟩ := exactContents_le hitems hcount hp hfilled.volume
  obtain ⟨w, r, hw, hw0, hr, hadmits⟩ := hfilled.utilized
  rw [ht] at hadmits
  obtain ⟨o, ho, hw⟩ := cartonVolume_eq_ok.1 hw
  cases hp.symm.trans ho
  have hused := le_of_ratio_le hcent hw0 (Dimensions.volume_lt hw) hr hadmits
  have hcarton := volume_le_of_fits (hitems i hi) hp (hfilled.fits i hi) hvolume hw
  have hscaled := mul_le_mul_of_nonneg_left hcarton (mul_nonneg drift_pos.le ht1)
  have hpieces := le_mul_of_one_le_left hn (one_le_pow₀ (n := 3) one_le_drift)
  calc p.exactContents outer.unit ≤ drift ^ 5 * (p.usedVolume.toRat + p.items.length / 200) :=
        hcontents
    _ ≤ drift ^ 5 * (drift ^ 3 * ((t.toRat + 1 / 20000) * (outer.exactVolume + 1 / 200) +
          p.items.length / 200)) := mul_le_mul_of_nonneg_left (by linarith) (pow_pos drift_pos 5).le
    _ = drift ^ 8 * ((t.toRat + 1 / 20000) * (outer.exactVolume + 1 / 200) +
          p.items.length / 200) := by ring
    _ ≤ _ := mul_le_mul_of_nonneg_right drift_pow_eight_le (by linarith)

/-- Pieces that are not small leave room for the roundings below a threshold of 95 percent. -/
theorem exactContents_le_exactVolume (hne : p.items ≠ []) (ht : t.toRat ≤ 19 / 20)
    (hlarge : ∀ i ∈ p.items, 1 / 5 ≤ i.exactVolumeIn outer.unit)
    (h : p.exactContents outer.unit ≤ (1 + 10 ^ (-26 : ℤ)) *
      ((t.toRat + 1 / 20000) * (outer.exactVolume + 1 / 200) + p.items.length / 200)) :
    p.exactContents outer.unit ≤ outer.exactVolume := by
  have hV := outer.exactVolume_pos
  have hsum := List.card_nsmul_le_sum (p.items.map (·.exactVolumeIn outer.unit)) (1 / 5)
    (by simpa using hlarge)
  rw [List.length_map, nsmul_eq_mul, ← exactContents] at hsum
  have hpieces : (1 : ℚ) ≤ p.items.length := by
    exact_mod_cast Nat.one_le_iff_ne_zero.2 fun h0 => hne (List.eq_nil_of_length_eq_zero h0)
  have hthreshold := mul_le_mul_of_nonneg_right
    (show t.toRat + 1 / 20000 ≤ 19 / 20 + 1 / 20000 by linarith)
    (show 0 ≤ outer.exactVolume + 1 / 200 by linarith)
  norm_num at h
  linarith

end Package

/-! ## Solutions -/

variable {items : List Item} {cartons : List Carton} {policy : Policy} {supply : Supply}
  {s : Solution}

/-- The pieces of a request that passes validation. -/
theorem pieces_of_sortItems {units : List Item}
    (hcheck : Validation.check (some (items.map some)) (some policy) = .ok ())
    (hunits : sortItems items = .ok units) :
    units.Perm (Item.singles items) ∧ units.length ≤ 5000 := by
  obtain ⟨-, hlines, hcount⟩ := Validation.validated_of_check hcheck
  obtain ⟨us, hus, hperm⟩ := sortItems_perm hunits
  rw [allUnits_eq (fun i hi => (hlines i hi).quantity.imp fun q hq => hq.1) hus] at hperm
  exact ⟨hperm, hperm.length_eq.trans_le hcount⟩

/-- A package of a run holds some of the items that were placed. -/
theorem Packing.Run.items_subperm {placed : List Item} {ps : List Package} {p : Package}
    (h : Run policy cartons placed ps) (hp : p ∈ ps) : p.items.Subperm placed := by
  refine List.Subperm.trans ?_ h.contents.subperm
  rw [List.flatMap_def]
  exact (List.sublist_flatten_of_mem (List.mem_map_of_mem hp)).subperm

/-- A solution for a request that passes validation consists of the pieces of its lines. -/
theorem pieces_of_pack (hcheck : Validation.check (some (items.map some)) (some policy) = .ok ())
    (h : (pack items cartons policy supply).1 = .ok s) :
    s.allItems.Perm (Item.singles items) ∧ s.packages.length ≤ 5000 ∧
      ∀ p ∈ s.packages, p.items.length ≤ 5000 ∧ ∀ i ∈ p.items, ∃ line ∈ items, i = line.single := by
  obtain ⟨units, cs, hunits, -, hrun⟩ := run_of_pack h
  obtain ⟨hperm, hcount⟩ := pieces_of_sortItems hcheck hunits
  refine ⟨hrun.contents.trans hperm, hrun.length_le.trans hcount, fun p hp => ⟨?_, ?_⟩⟩
  · exact (hrun.items_subperm hp).length_le.trans hcount
  · intro i hi
    exact Item.exists_line_of_mem_singles (hperm.subset ((hrun.items_subperm hp).subset hi))

/-- Their boxes are known and bounded. -/
theorem boxed_of_pack (hcheck : Validation.check (some (items.map some)) (some policy) = .ok ())
    (h : (pack items cartons policy supply).1 = .ok s) :
    ∀ p ∈ s.packages, (∀ i ∈ p.items, i.IsBoxed) ∧ p.items.length ≤ 5000 := by
  obtain ⟨-, hlines, -⟩ := Validation.validated_of_check hcheck
  intro p hp
  obtain ⟨hcount, hpieces⟩ := (pieces_of_pack hcheck h).2.2 p hp
  refine ⟨fun i hi => ?_, hcount⟩
  obtain ⟨line, hline, rfl⟩ := hpieces i hi
  exact (hlines line hline).box

/-- **How much the packages of a solution hold**, the request having passed validation. The exact
volume of what is in a package is at most what the threshold allows of its carton but for the
roundings: half a unit in the fourth place of the threshold, half a hundredth of the volume of the
carton and half a hundredth for every piece. With a threshold of at most 95 percent no package of
pieces that have a fifth of a cubic unit each holds more than the volume of its carton. -/
theorem pack_contents_le
    (hcheck : Validation.check (some (items.map some)) (some policy) = .ok ())
    (h : (pack items cartons policy supply).1 = .ok s) :
    ∀ p ∈ s.packages, ∃ outer t, p.carton.dimensions = .known outer ∧
      policy.threshold = .finite t ∧ (∀ i ∈ p.items, ∃ d, i.dimensions = .known d) ∧
      p.exactContents outer.unit ≤ (1 + 10 ^ (-26 : ℤ)) *
        ((t.toRat + 1 / 20000) * (outer.exactVolume + 1 / 200) + p.items.length / 200) ∧
      (t.toRat ≤ 19 / 20 → (∀ i ∈ p.items, 1 / 5 ≤ i.exactVolumeIn outer.unit) →
        p.exactContents outer.unit ≤ outer.exactVolume) := by
  obtain ⟨⟨t, ht, ht0, -⟩, -, -⟩ := Validation.validated_of_check hcheck
  obtain ⟨units, cs, -, -, hrun⟩ := run_of_pack h
  intro p hp
  obtain ⟨hitems, hcount⟩ := boxed_of_pack hcheck h p hp
  have hused := hrun.inUse p hp
  have hfilled := hused.built.filled hused.nonempty
  obtain ⟨w, r, hw, -⟩ := hfilled.utilized
  obtain ⟨outer, houter, -⟩ := cartonVolume_eq_ok.1 hw
  have hle := exactContents_le_of_filled hfilled ht ht0 hitems hcount houter
  refine ⟨outer, t, houter, ht, fun i hi => (hitems i hi).imp fun d hd => hd.1, hle, ?_⟩
  exact fun ht' hlarge => exactContents_le_exactVolume hused.nonempty ht' hlarge hle

-- so that roundings of given decimals can be computed
attribute [local semireducible] digitCount

theorem check_bricks : Validation.check (some ([bricks].map some)) (some .usual) = .ok () :=
  eq_ok_of_toOption (by decide)

/-- A crate with a brick in it is not overfull. -/
theorem pack_contents_le_bricks :
    Validation.check (some ([bricks].map some)) (some .usual) = .ok () ∧
      (pack [bricks] [crate] .usual .start).1 =
        .ok (Solution.create [crateOfBrick, crateOfBrick] none .start).1 ∧
      ∃ outer, crate.dimensions = .known outer ∧
        crateOfBrick.exactContents outer.unit ≤ outer.exactVolume := by
  obtain ⟨outer, t, houter, ht, -, -, hle⟩ :=
    pack_contents_le check_bricks pack_bricks crateOfBrick List.mem_cons_self
  refine ⟨check_bricks, pack_bricks, outer, houter, hle ?_ ?_⟩
  · cases ht
    norm_num [toRat, signed, magnitude]
  · cases houter
    norm_num [crateOfBrick, Item.exactVolumeIn, brick, Dimensions.exactVolumeIn, LengthUnit.factor,
      toRat, signed, magnitude]

/-! ## Pills

Two pills of which one nearly fills the box. The volume of a pill is counted as nothing. -/

/-- A cube with sides of some hundredths of a centimetre. -/
def cubeOf (cents : ℕ) [NeZero cents] : Dimensions :=
  let side : Amount := ⟨⟨false, cents, -2⟩, by simp [isPositive, NeZero.ne cents]⟩
  ⟨side, side, side, .centimeters⟩

/-- A box for one pill. -/
def pillbox : Carton :=
  Carton.restore "PILLBOX" (.text "Pillbox") (.known (cubeOf 18))
    (.known ⟨⟨⟨false, 10, 0⟩, Eq.refl true⟩, .pounds⟩) .active .epoch .epoch

def pill : Item :=
  { sku := .text "PILL"
    quantity := .int 1
    dimensions := .known (cubeOf 17)
    weight := .known ⟨⟨⟨false, 1, 0⟩, Eq.refl true⟩, .pounds⟩
    category := unknownCategory
    fragile := false }

def pills : Item := { pill with quantity := .int 2 }

/-- The box with pills in it. -/
def pillboxOf (items : List Item) : Package :=
  { carton := pillbox
    items := items
    currentWeight := ⟨false, items.length, 0⟩
    usedVolume := ⟨false, 0, -2⟩ }

theorem pill_fits : pillbox.canFit pill.dimensions pill.weight = .ok true :=
  Carton.canFit_of_pairwise ⟨rfl, rfl⟩ (by decide) (by decide) (by decide) (by decide) (by decide)

theorem add_pill : (ofCarton pillbox).add pill .usual = .ok (pillboxOf [pill]) :=
  add_eq_ok_iff.2 ⟨bind_eq_ok_of_toOption pill_fits (by decide), _, _,
    eq_ok_of_toOption (by decide), eq_ok_of_toOption (by decide), rfl⟩

theorem add_second_pill : (pillboxOf [pill]).add pill .usual = .ok (pillboxOf [pill, pill]) :=
  add_eq_ok_iff.2 ⟨bind_eq_ok_of_toOption pill_fits (by decide), _, _,
    eq_ok_of_toOption (by decide), eq_ok_of_toOption (by decide), rfl⟩

theorem run_pills : Run .usual [pillbox] [pill, pill] [pillboxOf [pill, pill]] := by
  have hfirst : Run .usual [pillbox] [pill] [pillboxOf [pill]] :=
    .place .start (.opened rfl (openPackage_cons pill_fits add_pill) add_pill)
  have hremaining : (pillboxOf [pill]).remainingVolumeIn .centimeters = .ok ⟨false, 1, -2⟩ :=
    eq_ok_of_toOption (by decide)
  have htightest : Policy.usual.tightest = true := rfl
  have hchoose : choose .usual pill [pillboxOf [pill]] = .ok (some 0) := by
    simp [choose, htightest, tightestAccepting, tightestFrom, Candidate.better,
      (add_eq_ok_iff.1 add_second_pill).1, hremaining]
  exact .place hfirst (@Placed.inserted _ _ _ [] _ _ _ hchoose add_second_pill)

theorem sortItems_pills : sortItems [pills] = .ok [pill, pill] := by
  have hv : pill.sortVolume = .ok ⟨false, 0, -2⟩ := eq_ok_of_toOption (by decide)
  have hkeyed : keyed Item.sortVolume [pill, pill] =
      .ok [(⟨false, 0, -2⟩, pill), (⟨false, 0, -2⟩, pill)] := by
    simp [keyed, hv]
  exact sortItems_of_pairwise rfl hkeyed (by simp; decide)

theorem sortCartons_pillbox : sortCartons [pillbox] = .ok [pillbox] := by
  have hv : cartonVolume pillbox = .ok ⟨false, 1, -2⟩ := eq_ok_of_toOption (by decide)
  exact sortCartons_singleton rfl hv

theorem pack_pills : (pack [pills] [pillbox] .usual .start).1 =
    .ok (Solution.create [pillboxOf [pill, pill]] none .start).1 := by
  have hmean : (Solution.create [pillboxOf [pill, pill]] none .start).1.averageUtilization =
      .ok ⟨false, 0, -4⟩ := eq_ok_of_toOption (by decide)
  have hpackages := packages_eq_ok_iff.2 ⟨_, _, sortItems_pills, sortCartons_pillbox, run_pills⟩
  exact pack_eq_ok_iff.2 ⟨_, _, hpackages, rfl, hmean⟩

/-- **A package may hold more than the volume of its carton.** -/
theorem pillbox_overfull : ¬ ∀ (items : List Item) (cartons : List Carton) (policy : Policy)
    (supply : Supply) (s : Solution),
      Validation.check (some (items.map some)) (some policy) = .ok () →
      (pack items cartons policy supply).1 = .ok s →
        ∀ p ∈ s.packages, ∀ outer, p.carton.dimensions = .known outer →
          p.exactContents outer.unit ≤ outer.exactVolume := by
  intro h
  have hcheck : Validation.check (some ([pills].map some)) (some .usual) = .ok () :=
    eq_ok_of_toOption (by decide)
  have hle := h _ _ _ _ _ hcheck pack_pills (pillboxOf [pill, pill]) List.mem_cons_self _ rfl
  norm_num [pillboxOf, exactContents, Item.exactVolumeIn, pill, cubeOf, Dimensions.exactVolumeIn,
    LengthUnit.factor, Dimensions.exactVolume, toRat, signed, magnitude] at hle

end Stowage
