import Stowage.Proofs.Packing.Totality

/-!
# The largest items come first

Items are put in order by volumes that were rounded six times, five times to 28 digits and then to
hundredths. The roundings to 28 digits matter for next to nothing in bounded boxes
(`drift_pow_mul_le`), and the last one for half a hundredth each way. So two hundredths of a cubic
centimetre between the exact volumes are always seen (`Dimensions.sortVolume_lt`), and the pieces of
the larger item come before those of the smaller one (`larger_come_first`).
-/

namespace Stowage

open Decimal

/-! ## Volumes to sort by -/

/-- Five roundings of what is not huge matter for next to nothing. -/
theorem Decimal.drift_pow_mul_le {x : ℚ} (hx : 0 ≤ x) (hle : x ≤ 10 ^ (13 : ℤ)) :
    drift ^ 5 * x ≤ x + 10 ^ (-13 : ℤ) := by
  have hdrift : drift ^ 5 ≤ 1 + 10 ^ (-26 : ℤ) :=
    (pow_le_pow_right₀ one_le_drift (by norm_num)).trans drift_pow_eight_le
  calc drift ^ 5 * x ≤ (1 + 10 ^ (-26 : ℤ)) * x := mul_le_mul_of_nonneg_right hdrift hx
    _ = x + 10 ^ (-26 : ℤ) * x := by ring
    _ ≤ x + 10 ^ (-26 : ℤ) * 10 ^ (13 : ℤ) := by gcongr
    _ = x + 10 ^ (-13 : ℤ) := by norm_num

namespace Dimensions

variable {d e : Dimensions} {v w : Decimal}

theorem exactVolumeIn_nonneg (d : Dimensions) (unit : LengthUnit) : 0 ≤ d.exactVolumeIn unit := by
  have hf := (d.unit.factor_pos unit).le
  exact mul_nonneg (mul_nonneg (mul_nonneg d.length.toRat_pos.le hf)
    (mul_nonneg d.width.toRat_pos.le hf)) (mul_nonneg d.height.toRat_pos.le hf)

/-- The volume to sort a bounded box by is half a hundredth from the exact one, or next to it. -/
theorem sortVolume_bounds (hd : d.Bounded) (hv : d.sortVolume = .ok v) :
    d.exactVolumeIn .centimeters ≤ v.toRat + 1 / 200 + 10 ^ (-11 : ℤ) ∧
      v.toRat ≤ d.exactVolumeIn .centimeters + 1 / 200 + 10 ^ (-11 : ℤ) := by
  obtain ⟨d', hd', hv⟩ := bind_eq_ok.1 hv
  have hv := Fallible.ofDecimal_eq_ok.1 hv
  have hv0 := volume_nonneg hv
  have hv1 := volume_le_of_bounded hd hd' hv
  have hexact := (exactVolumeIn_le hd hd' hv).trans
    (drift_pow_mul_le (by linarith) (by norm_num at hv1 ⊢; linarith))
  have hcounted := volume_le_exactVolumeIn hd hd' hv
  have hcounted' := drift_pow_mul_le (x := d.exactVolumeIn .centimeters + 10 ^ (-12 : ℤ))
    (add_nonneg (d.exactVolumeIn_nonneg _) (ten_zpow_pos _).le)
    (by norm_num at hexact hv1 ⊢; linarith)
  constructor
  · norm_num at hexact ⊢
    linarith
  · norm_num at hcounted hcounted' ⊢
    linarith

/-- **Two hundredths of a cubic centimetre are seen**, in whichever units the boxes are given. -/
theorem sortVolume_lt (hd : d.Bounded) (he : e.Bounded)
    (hgap : e.exactVolumeIn .centimeters + 2 / 100 ≤ d.exactVolumeIn .centimeters)
    (hv : d.sortVolume = .ok v) (hw : e.sortVolume = .ok w) : w.toRat < v.toRat := by
  have hlow := (sortVolume_bounds hd hv).1
  have hhigh := (sortVolume_bounds he hw).2
  norm_num at hlow hhigh
  linarith

end Dimensions

namespace Packing

variable {items units : List Item} {i j u : Item} {v w : Decimal}

/-! ## Pieces in order -/

/-- No piece is larger than one before it. -/
theorem pairwise_sortItems (h : sortItems items = .ok units) :
    units.Pairwise fun a b => ∀ v w, a.sortVolume = .ok v → b.sortVolume = .ok w →
      w.toRat ≤ v.toRat := by
  obtain ⟨us, -, h⟩ := bind_eq_ok.1 h
  obtain ⟨ks, hks, h⟩ := bind_eq_ok.1 h
  have hvolume : ∀ k ∈ ks, k.2.sortVolume = .ok k.1 := by
    intro k hk
    obtain ⟨x, -, hx⟩ := (mem_of_mapM hks).1 k hk
    obtain ⟨v, hv, hx⟩ := bind_eq_ok.1 hx
    rw [← pure_eq_ok.1 hx]
    exact hv
  have hle : ∀ a b : Decimal × Item, b.1.le a.1 = true ↔ -a.1.toRat ≤ -b.1.toRat := fun a b => by
    rw [Decimal.le_iff, neg_le_neg_iff]
  have hsorted := List.pairwise_mergeSort (trans_of_key hle) (total_of_key hle) ks
  rw [← pure_eq_ok.1 h, List.pairwise_map]
  refine hsorted.imp_of_mem fun {a b} ha hb hab v w hv hw => ?_
  rw [List.mem_mergeSort] at ha hb
  cases (hvolume a ha).symm.trans hv
  cases (hvolume b hb).symm.trans hw
  exact (Decimal.le_iff _ _).1 hab

/-- Every piece in order has a volume to sort by. -/
theorem exists_sortVolume_of_mem (h : sortItems items = .ok units) (hu : u ∈ units) :
    ∃ v, u.sortVolume = .ok v := by
  obtain ⟨us, hus, h⟩ := bind_eq_ok.1 h
  obtain ⟨ks, hks, h⟩ := bind_eq_ok.1 h
  rw [← pure_eq_ok.1 h, List.mem_map] at hu
  obtain ⟨k, hk, rfl⟩ := hu
  rw [List.mem_mergeSort] at hk
  refine volume_of_keyed hks k.2 ?_
  rw [← map_snd_of_keyed hks]
  exact List.mem_map_of_mem hk

/-- A piece with the larger volume is in an earlier place. -/
theorem lt_of_sortVolume_lt {m n : ℕ} {a b : Item} (h : sortItems items = .ok units)
    (ha : units[m]? = some a) (hb : units[n]? = some b)
    (hlt : ∀ v w, a.sortVolume = .ok v → b.sortVolume = .ok w → w.toRat < v.toRat) : m < n := by
  obtain ⟨v, hv⟩ := exists_sortVolume_of_mem h (List.mem_of_getElem? ha)
  obtain ⟨w, hw⟩ := exists_sortVolume_of_mem h (List.mem_of_getElem? hb)
  have hvw := hlt v w hv hw
  obtain ⟨hm, rfl⟩ := List.getElem?_eq_some_iff.1 ha
  obtain ⟨hn, rfl⟩ := List.getElem?_eq_some_iff.1 hb
  by_contra hle
  rcases (not_lt.1 hle).eq_or_lt with rfl | hlt'
  · cases hv.symm.trans hw
    exact lt_irrefl _ hvw
  · have hpair := List.pairwise_iff_getElem.1 (pairwise_sortItems h) n m hn hm hlt'
    exact absurd hvw (not_lt.2 (hpair w v hw hv))

/-- The pieces of a line are as large as the line says. -/
theorem sortVolume_of_mem_units {us : List Item} (hus : i.units = .ok us) (hu : u ∈ us) :
    u.sortVolume = i.sortVolume := by
  rcases Item.mem_units hus u hu with rfl | rfl <;> rfl

/-- **The pieces of the larger item come first.** When the sides of two items are at most 1000, in
inches or in centimetres, and their exact volumes are two hundredths of a cubic centimetre apart,
then in any list in order all pieces of the larger one are before all pieces of the smaller one.
Lists whose items are measured and bounded, with no side that underflows, can be put in order. -/
theorem larger_come_first {d e : Dimensions} (hi : i ∈ items) (hj : j ∈ items)
    (hd : i.dimensions = .known d) (he : j.dimensions = .known e) (hbounds : d.Bounded ∧ e.Bounded)
    (hgap : e.exactVolumeIn .centimeters + 2 / 100 ≤ d.exactVolumeIn .centimeters) :
    (∀ units, sortItems items = .ok units → units.Perm (items.flatMap unitsOf) ∧
      ∃ us vs, i.units = .ok us ∧ j.units = .ok vs ∧ ∀ a ∈ us, ∀ b ∈ vs, ∀ m n : ℕ,
        units[m]? = some a → units[n]? = some b → m < n) ∧
      ((∀ k ∈ items, (∃ us, k.units = .ok us) ∧
        ∃ f, k.dimensions = .known f ∧ f.Bounded ∧ f.Robust) →
          ∃ units, sortItems items = .ok units) := by
  refine ⟨fun units h => ?_, fun hitems => ?_⟩
  · obtain ⟨all, hall, hperm⟩ := sortItems_perm h
    obtain ⟨hunits, rfl⟩ := allUnits_eq_ok_iff.1 hall
    obtain ⟨us, hus⟩ := hunits i hi
    obtain ⟨vs, hvs⟩ := hunits j hj
    refine ⟨hperm, us, vs, hus, hvs, fun a ha b hb m n hm hn => ?_⟩
    refine lt_of_sortVolume_lt h hm hn fun v w hv hw => ?_
    rw [sortVolume_of_mem_units hus ha, Item.sortVolume, hd, Attribute.get, ok_bind] at hv
    rw [sortVolume_of_mem_units hvs hb, Item.sortVolume, he, Attribute.get, ok_bind] at hw
    exact Dimensions.sortVolume_lt hbounds.1 hbounds.2 hgap hv hw
  · refine exists_sortItems_of_sortVolume (fun k hk => (hitems k hk).1) fun k hk => ?_
    obtain ⟨f, hf, hbounded, hrobust⟩ := (hitems k hk).2
    obtain ⟨v, hv⟩ := Dimensions.exists_sortVolume hbounded.le hrobust
    exact ⟨v, bind_eq_ok.2 ⟨f, Attribute.get_eq_ok.2 hf, hv⟩⟩

/-! ### A cube and slabs

The cube is an inch wide. The slabs are as wide and as long as the cube, in centimetres, and so much
flatter that a slab has 0.0206 cubic centimetres less. -/

def inchSides : Dimensions := ⟨wholeAmount 1, wholeAmount 1, wholeAmount 1, .inches⟩

def slabSides : Dimensions :=
  ⟨⟨⟨false, 254, -2⟩, Eq.refl true⟩, ⟨⟨false, 254, -2⟩, Eq.refl true⟩,
    ⟨⟨false, 25368, -4⟩, Eq.refl true⟩, .centimeters⟩

def inchCube : Item := goods "CUBE" inchSides (wholeAmount 1)

def slabs : Item := { goods "SLAB" slabSides (wholeAmount 1) with quantity := .int 2 }

theorem inRange_inchSides : inchSides.InRange := by
  norm_num [Dimensions.InRange, Amount.InRange, inchSides, wholeAmount, toRat, signed, magnitude]

theorem inRange_slabSides : slabSides.InRange := by
  norm_num [Dimensions.InRange, Amount.InRange, slabSides, toRat, signed, magnitude]

theorem exactVolumeIn_slabSides :
    slabSides.exactVolumeIn .centimeters + 2 / 100 ≤ inchSides.exactVolumeIn .centimeters := by
  norm_num [Dimensions.exactVolumeIn, slabSides, inchSides, wholeAmount, LengthUnit.factor, toRat,
    signed, magnitude]

theorem bounded_inchSides : inchSides.Bounded := by
  norm_num [Dimensions.Bounded, Dimensions.forall_mem_sides, inchSides, wholeAmount, toRat, signed,
    magnitude]

theorem bounded_slabSides : slabSides.Bounded := by
  norm_num [Dimensions.Bounded, Dimensions.forall_mem_sides, slabSides, toRat, signed, magnitude]

/-- The cube comes before the slabs that are ahead of it in the list. -/
theorem inch_cube_comes_first :
    slabSides.exactVolumeIn .centimeters + 2 / 100 ≤ inchSides.exactVolumeIn .centimeters ∧
      ∃ units, sortItems [slabs, inchCube] = .ok units ∧
        units.Perm [slabs.single, slabs.single, inchCube] ∧
        ∀ m n : ℕ, units[m]? = some inchCube → units[n]? = some slabs.single → m < n := by
  have hcube : inchCube ∈ [slabs, inchCube] := by simp
  have hslabs : slabs ∈ [slabs, inchCube] := by simp
  obtain ⟨hsorted, hexists⟩ := larger_come_first hcube hslabs rfl rfl
    ⟨bounded_inchSides, bounded_slabSides⟩ exactVolumeIn_slabSides
  obtain ⟨units, hunits⟩ := hexists <| List.forall_mem_cons.2
    ⟨⟨⟨_, rfl⟩, _, rfl, bounded_slabSides, inRange_slabSides.robust⟩, List.forall_mem_singleton.2
      ⟨⟨_, rfl⟩, _, rfl, bounded_inchSides, inRange_inchSides.robust⟩⟩
  obtain ⟨hperm, us, vs, hus, hvs, hbefore⟩ := hsorted units hunits
  refine ⟨exactVolumeIn_slabSides, units, hunits, hperm, ?_⟩
  cases hus
  cases hvs
  exact hbefore inchCube (by simp) slabs.single (by simp [slabs, Item.single])

end Packing

end Stowage
