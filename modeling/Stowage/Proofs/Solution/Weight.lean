import Stowage.Proofs.Packing.Totality

/-!
# The weight of a solution

The weight of a piece is converted to the unit of its carton, added to what the package weighs, and
converted again to be added up in pounds. Each of these operations rounds, and the factors there and
back do not make one. All of it together changes the total by less than a millionth, however the
pieces are distributed over cartons in pounds and in kilograms, unless a weight is so small that
digits underflow (`total_weight_close`).
-/

namespace Stowage

open Decimal

/-! ## Exact weights -/

/-- The exact weight of one piece of an item, in a unit. -/
def Item.exactWeightIn (i : Item) (unit : WeightUnit) : ℚ :=
  match i.weight with
  | .known w => w.value.value.toRat * (w.unit.factor unit).toRat
  | _ => 0

/-- The exact weight of what lies in a package, in a unit. -/
def Package.exactWeightIn (p : Package) (unit : WeightUnit) : ℚ :=
  (p.items.map (·.exactWeightIn unit)).sum

/-- The exact weight of all pieces that are packed, in a unit. -/
def Solution.exactWeightIn (s : Solution) (unit : WeightUnit) : ℚ :=
  (s.allItems.map (·.exactWeightIn unit)).sum

theorem Item.exactWeightIn_nonneg (i : Item) (unit : WeightUnit) : 0 ≤ i.exactWeightIn unit := by
  unfold exactWeightIn
  split
  next w _ => exact (mul_pos w.value.toRat_pos (w.unit.factor_pos unit)).le
  next => exact le_rfl

theorem Package.exactWeightIn_nonneg (p : Package) (unit : WeightUnit) :
    0 ≤ p.exactWeightIn unit := by
  apply List.sum_nonneg
  intro x hx
  obtain ⟨i, -, rfl⟩ := List.mem_map.1 hx
  exact i.exactWeightIn_nonneg unit

theorem Solution.exactWeightIn_eq (s : Solution) (unit : WeightUnit) :
    s.exactWeightIn unit = (s.packages.map (·.exactWeightIn unit)).sum := by
  unfold exactWeightIn allItems
  induction s.packages with
  | nil => rfl
  | cons p ps ih => simp [Package.exactWeightIn, ih]

theorem Solution.exactWeightIn_nonneg (s : Solution) (unit : WeightUnit) :
    0 ≤ s.exactWeightIn unit := by
  rw [exactWeightIn_eq]
  apply List.sum_nonneg
  intro x hx
  obtain ⟨p, -, rfl⟩ := List.mem_map.1 hx
  exact p.exactWeightIn_nonneg unit

/-! ## Conversions -/

namespace WeightUnit

@[simp] theorem factor_self (a : WeightUnit) : (a.factor a).toRat = 1 := by
  cases a <;> norm_num [factor, toRat, signed, magnitude]

/-- The share by which factors there and back miss the direct one, in units of some kind. -/
def gap : ℚ := 2 / 10 ^ 7

theorem gap_pos : 0 < gap := by norm_num [gap]

/-- Going from one unit to another by way of a third one is almost the direct way. -/
theorem within_factor (a b c : WeightUnit) :
    Within (1 + gap) ((a.factor b).toRat * (b.factor c).toRat) (a.factor c).toRat := by
  cases a <;> cases b <;> cases c <;>
    constructor <;> norm_num [factor, toRat, signed, magnitude, gap]

/-- All the roundings there may be, and a detour by another unit, make less than a millionth. -/
theorem drift_pow_mul_gap_le {n : ℕ} (hn : n ≤ 10 ^ 5) :
    drift ^ n * (1 + gap) ≤ 1 + 1 / 10 ^ 6 :=
  calc drift ^ n * (1 + gap) ≤ (1 + 10 ^ (-20 : ℤ)) * (1 + gap) :=
        mul_le_mul_of_nonneg_right (drift_pow_le hn) (by linarith [gap_pos])
    _ ≤ 1 + 1 / 10 ^ 6 := by norm_num [gap]

end WeightUnit

/-- The weight of a piece by way of another unit. -/
theorem Item.within_exactWeightIn (i : Item) (unit unit' : WeightUnit) :
    Within (1 + WeightUnit.gap) (i.exactWeightIn unit * (unit.factor unit').toRat)
      (i.exactWeightIn unit') := by
  unfold exactWeightIn
  split
  next w _ =>
    have hway := (WeightUnit.within_factor w.unit unit unit').mul_right w.value.toRat_pos.le
    rwa [mul_comm _ w.value.value.toRat, mul_comm _ w.value.value.toRat, ← mul_assoc] at hway
  next => simp [Within]

namespace Package

variable {p : Package} {i : Item} {w m : Weight} {x : Decimal}

/-! ## Packages -/

/-- No weight underflows when it is converted to the unit of the carton. -/
def ConvertsWeights (p : Package) : Prop :=
  ∀ i ∈ p.items, ∀ w m, i.weight = .known w → p.carton.maxWeight = .known m →
    m.unit ≠ w.unit → ¬ Underflows (w.value.value.toRat * (w.unit.factor m.unit).toRat)

/-- No addition underflows that puts a weight to the others. -/
def AddsWeights (p : Package) : Prop := ∀ ws, p.items.mapM p.itemWeight = .ok ws → AddsUp ws

/-- No operation underflows that adds up the weight of the package and converts it to pounds. -/
structure Weighable (p : Package) : Prop where
  converted : p.ConvertsWeights
  added : p.AddsWeights
  reported : ∀ m, p.carton.maxWeight = .known m →
    ¬ Underflows (p.currentWeight.toRat * (m.unit.factor reportWeightUnit).toRat)

/-- The weight of a piece as it is added up has been rounded once, if at all. -/
theorem itemWeight_cases (hw : i.weight = .known w) (hm : p.carton.maxWeight = .known m)
    (hx : p.itemWeight i = .ok x) : m.unit = w.unit ∧ x = w.value.value ∨
      m.unit ≠ w.unit ∧ x.toRat = nearest (w.value.value.toRat * (w.unit.factor m.unit).toRat) := by
  obtain ⟨a, b, w', ha, hb, hconvert, rfl⟩ := itemWeight_eq_ok.1 hx
  cases hw.symm.trans ha
  cases hm.symm.trans hb
  by_cases hu : m.unit = w.unit
  · rw [Weight.convertTo, if_pos hu] at hconvert
    cases hconvert
    exact .inl ⟨hu, rfl⟩
  · obtain ⟨-, ⟨heq, -⟩ | hr⟩ := Weight.toRat_of_convertTo hconvert
    · exact absurd heq hu
    · have hprod := (mul_pos w.value.toRat_pos (w.unit.factor_pos m.unit)).le
      exact .inr ⟨hu, hr.trans (rounded_of_nonneg hprod)⟩

/-- The weight of a piece is converted with at most one rounding. -/
theorem within_itemWeight (hw : i.weight = .known w) (hm : p.carton.maxWeight = .known m)
    (hx : p.itemWeight i = .ok x)
    (h : m.unit ≠ w.unit → ¬ Underflows (w.value.value.toRat * (w.unit.factor m.unit).toRat)) :
    Within drift x.toRat (i.exactWeightIn m.unit) := by
  have hexact : i.exactWeightIn m.unit = w.value.value.toRat * (w.unit.factor m.unit).toRat := by
    rw [Item.exactWeightIn, hw]
  rw [hexact]
  obtain ⟨hu, rfl⟩ | ⟨hu, hval⟩ := itemWeight_cases hw hm hx
  · rw [hu, WeightUnit.factor_self, mul_one]
    exact .refl one_le_drift w.value.toRat_pos.le
  · rw [hval]
    exact within_nearest (mul_pos w.value.toRat_pos (w.unit.factor_pos _)).le (h hu)

/-- What a package weighs, in the unit of its carton. -/
theorem within_currentWeight (htotal : IsTotal p.itemWeight p.items p.currentWeight)
    (hm : p.carton.maxWeight = .known m) (hitems : ∀ i ∈ p.items, ∃ w, i.weight = .known w)
    (hconverted : p.ConvertsWeights) (hadded : p.AddsWeights) :
    Within (drift ^ (p.items.length + 1)) p.currentWeight.toRat (p.exactWeightIn m.unit) := by
  obtain ⟨ws, hws, hsum⟩ := htotal
  rw [pow_succ']
  refine within_sum one_le_drift (fun i hi x hx => ⟨i.exactWeightIn_nonneg _, ?_⟩) hws
    (hadded ws hws) hsum
  obtain ⟨w, hw⟩ := hitems i hi
  exact within_itemWeight hw hm hx (hconverted i hi w m hw hm)

/-- **What a package weighs, in pounds**, after another rounding and by way of the unit of its
carton. -/
theorem within_weightIn (htotal : IsTotal p.itemWeight p.items p.currentWeight)
    (hm : p.carton.maxWeight = .known m) (hitems : ∀ i ∈ p.items, ∃ w, i.weight = .known w)
    (hsafe : p.Weighable) : Within (drift ^ (p.items.length + 2) * (1 + WeightUnit.gap))
      (nearest (p.currentWeight.toRat * (m.unit.factor reportWeightUnit).toRat))
      (p.exactWeightIn reportWeightUnit) := by
  have hf := (m.unit.factor_pos reportWeightUnit).le
  have hdrift := pow_pos drift_pos (p.items.length + 1)
  have hcurrent := within_currentWeight htotal hm hitems hsafe.converted hsafe.added
  have hcurrent0 := hcurrent.nonneg hdrift (p.exactWeightIn_nonneg _)
  have hreported : Within (drift ^ (p.items.length + 2))
      (nearest (p.currentWeight.toRat * (m.unit.factor reportWeightUnit).toRat))
      (p.exactWeightIn m.unit * (m.unit.factor reportWeightUnit).toRat) := by
    rw [pow_succ']
    exact (within_nearest (mul_nonneg hcurrent0 hf) (hsafe.reported m hm)).trans
      (hcurrent.mul_right hf) drift_pos.le hdrift.le
  have hway : Within (1 + WeightUnit.gap)
      (p.exactWeightIn m.unit * (m.unit.factor reportWeightUnit).toRat)
      (p.exactWeightIn reportWeightUnit) := by
    rw [exactWeightIn, ← List.sum_map_mul_right]
    exact .sum fun i _ => i.within_exactWeightIn m.unit reportWeightUnit
  exact hreported.trans hway (pow_pos drift_pos _).le (by linarith [WeightUnit.gap_pos])

/-- Nothing underflows with weights that are not tiny. -/
theorem weighable_of_le (htotal : IsTotal p.itemWeight p.items p.currentWeight)
    (hm : p.carton.maxWeight = .known m) (hcount : p.items.length ≤ 5000)
    (hitems : ∀ i ∈ p.items, ∃ w, i.weight = .known w ∧ 10 ^ (-90 : ℤ) ≤ w.value.value.toRat) :
    p.Weighable := by
  have hlow : ∀ i ∈ p.items, ∀ unit, 10 ^ (-91 : ℤ) ≤ i.exactWeightIn unit := by
    intro i hi unit
    obtain ⟨w, hw, hle⟩ := hitems i hi
    rw [Item.exactWeightIn, hw]
    calc (10 : ℚ) ^ (-91 : ℤ) = 10 ^ (-90 : ℤ) * (1 / 10) := by norm_num
      _ ≤ w.value.value.toRat * (w.unit.factor unit).toRat :=
        mul_le_mul hle (w.unit.le_factor unit) (by norm_num) w.value.toRat_pos.le
  have hconverted : p.ConvertsWeights := by
    intro i hi w m hw _ _
    have hexact := hlow i hi m.unit
    rw [Item.exactWeightIn, hw] at hexact
    exact not_underflows (le_trans (by norm_num) hexact)
  have hadded : p.AddsWeights := by
    intro ws hws
    refine addsUp_of_le fun x hx => ?_
    obtain ⟨i, hi, hx⟩ := (mem_of_mapM hws).1 x hx
    obtain ⟨w, hw, -⟩ := hitems i hi
    have hwithin := within_itemWeight hw hm hx (hconverted i hi w m hw hm)
    have hx0 := hwithin.nonneg drift_pos (i.exactWeightIn_nonneg _)
    have htwice := (hlow i hi m.unit).trans (hwithin.mono drift_le_two hx0
      (i.exactWeightIn_nonneg _)).2
    norm_num at htwice ⊢
    linarith
  refine ⟨hconverted, hadded, fun m' hm' => ?_⟩
  cases hm.symm.trans hm'
  rcases p.items.eq_nil_or_concat with hnil | ⟨before, i, hlast⟩
  · rw [hnil] at htotal
    rw [htotal.unique (isTotal_nil _)]
    simp [Underflows]
  · -- a package weighs about as much as what lies in it, and that is at least its last piece
    have hi : i ∈ p.items := by simp [hlast]
    have hpiece : 10 ^ (-91 : ℤ) ≤ p.exactWeightIn m.unit :=
      (hlow i hi m.unit).trans (List.single_le_sum
        (List.forall_mem_map.2 fun j _ => j.exactWeightIn_nonneg _) _ (List.mem_map_of_mem hi))
    have hwithin := within_currentWeight htotal hm
      (fun j hj => (hitems j hj).imp fun w hw => hw.1) hconverted hadded
    have hcurrent0 := hwithin.nonneg (pow_pos drift_pos _) (p.exactWeightIn_nonneg _)
    have htwice := hpiece.trans (hwithin.mono ((drift_pow_le (by omega)).trans
      (show 1 + (10 : ℚ) ^ (-20 : ℤ) ≤ 2 by norm_num)) hcurrent0 (p.exactWeightIn_nonneg _)).2
    have hfactor := mul_le_mul_of_nonneg_left (m.unit.le_factor reportWeightUnit) hcurrent0
    refine not_underflows (le_trans ?_ hfactor)
    norm_num at htwice ⊢
    linarith

/-! ## Bounds -/

/-- A package of at most 5000 pieces of at most 1000 each is not huge. -/
theorem currentWeight_bounds (htotal : IsTotal p.itemWeight p.items p.currentWeight)
    (hm : p.carton.maxWeight = .known m) (hcount : p.items.length ≤ 5000)
    (hitems : ∀ i ∈ p.items, ∃ w, i.weight = .known w ∧ w.value.value.toRat ≤ 1000) :
    0 ≤ p.currentWeight.toRat ∧ p.currentWeight.toRat ≤ 10 ^ (8 : ℤ) := by
  obtain ⟨ws, hws, hsum⟩ := htotal
  have hpieces : ∀ x ∈ ws, 0 ≤ x.toRat ∧ x.toRat ≤ 10 ^ (4 : ℤ) := by
    intro x hx
    obtain ⟨i, hi, hx⟩ := (mem_of_mapM hws).1 x hx
    obtain ⟨w, hw, hle⟩ := hitems i hi
    have hw0 := w.value.toRat_pos.le
    have hf := (w.unit.factor_pos m.unit).le
    obtain ⟨-, rfl⟩ | ⟨-, hval⟩ := itemWeight_cases hw hm hx
    · exact ⟨hw0, hle.trans (by norm_num)⟩
    · have hprod : w.value.value.toRat * (w.unit.factor m.unit).toRat ≤ (3000 : ℕ) :=
        (mul_le_mul hle (w.unit.factor_le m.unit) hf (by norm_num)).trans (by norm_num)
      have hround := nearest_le_natCast (mul_nonneg hw0 hf) hprod (by norm_num)
      rw [hval]
      exact ⟨nearest_nonneg _, hround.trans (by norm_num)⟩
  have hlength := length_of_mapM hws
  obtain ⟨t, ht, ht0, hle⟩ := exists_sum (by decide) (by decide) (by omega) hpieces
  cases hsum.symm.trans ht
  refine ⟨ht0, hle.trans ?_⟩
  have hcount' : (ws.length : ℚ) ≤ 5000 := by exact_mod_cast hlength ▸ hcount
  norm_num
  linarith

theorem exists_weightIn (hm : p.carton.maxWeight = .known m)
    (hweight : 0 ≤ p.currentWeight.toRat ∧ p.currentWeight.toRat ≤ 10 ^ (8 : ℤ))
    (unit : WeightUnit) : ∃ x, p.weightIn unit = .ok x ∧
      x.toRat = nearest (p.currentWeight.toRat * (m.unit.factor unit).toRat) ∧
      0 ≤ x.toRat ∧ x.toRat ≤ 10 ^ (9 : ℤ) := by
  have hf := (m.unit.factor_pos unit).le
  have hprod : p.currentWeight.toRat * (m.unit.factor unit).toRat ≤ (10 ^ 9 : ℕ) :=
    (mul_le_mul hweight.2 (m.unit.factor_le unit) hf (by norm_num)).trans (by norm_num)
  obtain ⟨x, hx, hval⟩ := exists_mul hweight.1 hf (hprod.trans_lt (by norm_num))
  refine ⟨x, by simp [weightIn, hm, Attribute.get, hx], hval, hval ▸ nearest_nonneg _, ?_⟩
  rw [hval]
  exact (nearest_le_natCast (mul_nonneg hweight.1 hf) hprod (by norm_num)).trans (by norm_num)

end Package

/-! ## Solutions -/

variable {items : List Item} {cartons : List Carton} {policy : Policy} {supply : Supply}
  {s : Solution}

/-- What is known of the weights in a solution for a request that passes validation. -/
theorem weights_of_pack (hcheck : Validation.check (some (items.map some)) (some policy) = .ok ())
    (h : (pack items cartons policy supply).1 = .ok s) : ∀ p ∈ s.packages,
      (∃ m, p.carton.maxWeight = .known m) ∧
      Package.IsTotal p.itemWeight p.items p.currentWeight ∧ p.items.length ≤ 5000 ∧
      ∀ i ∈ p.items, ∃ w, i.weight = .known w ∧ w.value.value.toRat ≤ 1000 := by
  obtain ⟨-, hlines, -⟩ := Validation.validated_of_check hcheck
  obtain ⟨units, cs, -, -, hrun⟩ := run_of_pack h
  intro p hp
  have hused := hrun.inUse p hp
  obtain ⟨m, hm, -⟩ := hused.built.carried hused.nonempty
  obtain ⟨hcount, hpieces⟩ := (pieces_of_pack hcheck h).2.2 p hp
  refine ⟨⟨m, hm⟩, hused.built.weight_isTotal, hcount, fun i hi => ?_⟩
  obtain ⟨line, hline, rfl⟩ := hpieces i hi
  exact (hlines line hline).weight

/-- The weight of each package can be told in every unit. -/
theorem exists_weightIn_of_pack
    (hcheck : Validation.check (some (items.map some)) (some policy) = .ok ())
    (h : (pack items cartons policy supply).1 = .ok s) (unit : WeightUnit) :
    ∀ p ∈ s.packages, ∃ x, p.weightIn unit = .ok x ∧ 0 ≤ x.toRat ∧ x.toRat ≤ 10 ^ (9 : ℤ) := by
  intro p hp
  obtain ⟨⟨m, hm⟩, htotal, hcount, hweights⟩ := weights_of_pack hcheck h p hp
  obtain ⟨x, hx, -, hbounds⟩ :=
    Package.exists_weightIn hm (Package.currentWeight_bounds htotal hm hcount hweights) unit
  exact ⟨x, hx, hbounds⟩

/-- The weight of a solution always has a value. -/
theorem exists_totalWeight_of_pack
    (hcheck : Validation.check (some (items.map some)) (some policy) = .ok ())
    (h : (pack items cartons policy supply).1 = .ok s) : ∃ total, s.totalWeight = .ok total := by
  have hlength := (pieces_of_pack hcheck h).2.1
  obtain ⟨total, htotal, -⟩ := Solution.exists_sumOver (by decide) (by decide)
    (hlength.trans (by norm_num)) (exists_weightIn_of_pack hcheck h reportWeightUnit)
  exact ⟨total, htotal⟩

/-- Each package is weighed with at most 5002 roundings. -/
theorem within_weightIn_of_pack
    (hcheck : Validation.check (some (items.map some)) (some policy) = .ok ())
    (h : (pack items cartons policy supply).1 = .ok s) {p : Package} (hp : p ∈ s.packages)
    (hsafe : p.Weighable) {x : Decimal} (hx : p.weightIn reportWeightUnit = .ok x) :
    (0 ≤ x.toRat ∧ OnGrid x.toRat) ∧
      Within (drift ^ 5002 * (1 + WeightUnit.gap)) x.toRat (p.exactWeightIn .pounds) := by
  obtain ⟨⟨m, hm⟩, htotal, hcount, hweights⟩ := weights_of_pack hcheck h p hp
  have hbounds := Package.currentWeight_bounds htotal hm hcount hweights
  obtain ⟨x', hx', hval, hx0, -⟩ := Package.exists_weightIn hm hbounds reportWeightUnit
  cases hx.symm.trans hx'
  have hwithin := Package.within_weightIn htotal hm
    (fun i hi => (hweights i hi).imp fun w hw => hw.1) hsafe
  rw [← hval] at hwithin
  have hpow := pow_le_pow_right₀ one_le_drift (show p.items.length + 2 ≤ 5002 by omega)
  refine ⟨⟨hx0, hval ▸ onGrid_nearest _⟩, hwithin.mono ?_ hx0 (p.exactWeightIn_nonneg _)⟩
  exact mul_le_mul_of_nonneg_right hpow (by linarith [WeightUnit.gap_pos])

/-- **The weight of a solution is that of its pieces but for a millionth**, when the request passed
validation and no operation underflows that adds up the weight of a package. -/
theorem total_weight_close
    (hcheck : Validation.check (some (items.map some)) (some policy) = .ok ())
    (h : (pack items cartons policy supply).1 = .ok s)
    (hsafe : ∀ p ∈ s.packages, p.Weighable) : ∃ total, s.totalWeight = .ok total ∧
      |total.toRat - s.exactWeightIn .pounds| ≤ s.exactWeightIn .pounds / 10 ^ 6 := by
  obtain ⟨total, htotal⟩ := exists_totalWeight_of_pack hcheck h
  obtain ⟨xs, hxs, hsum⟩ := Solution.sumOver_eq_ok.1 htotal
  have hlength := (pieces_of_pack hcheck h).2.1
  have hexact := s.exactWeightIn_nonneg .pounds
  have hpackages : ∀ p ∈ s.packages, ∀ x, p.weightIn reportWeightUnit = .ok x → _ :=
    fun p hp x hx => within_weightIn_of_pack hcheck h hp (hsafe p hp) hx
  -- what the packages weigh has been rounded, and so it can be added up without underflow
  have hadds : AddsUp xs := by
    refine addsUp_of_onGrid fun x hx => ?_
    obtain ⟨p, hp, hx⟩ := (mem_of_mapM hxs).1 x hx
    exact (hpackages p hp x hx).1
  have hone : 1 ≤ drift ^ 5002 * (1 + WeightUnit.gap) :=
    one_le_mul_of_one_le_of_one_le (one_le_pow₀ one_le_drift) (by linarith [WeightUnit.gap_pos])
  have hwithin := within_sum hone (fun p hp x hx =>
    ⟨p.exactWeightIn_nonneg .pounds, (hpackages p hp x hx).2⟩) hxs hadds hsum
  rw [← Solution.exactWeightIn_eq] at hwithin
  have htotal0 := hwithin.nonneg (mul_pos (by linarith) (pow_pos drift_pos _)) hexact
  have hfactor : drift ^ 5002 * (1 + WeightUnit.gap) * drift ^ s.packages.length ≤
      1 + 1 / 10 ^ 6 :=
    calc drift ^ 5002 * (1 + WeightUnit.gap) * drift ^ s.packages.length
        = drift ^ (5002 + s.packages.length) * (1 + WeightUnit.gap) := by ring
      _ ≤ 1 + 1 / 10 ^ 6 := WeightUnit.drift_pow_mul_gap_le (by omega)
  refine ⟨total, htotal, ?_⟩
  have hclose := (hwithin.mono hfactor htotal0 hexact).abs_sub_le (by norm_num) htotal0
  rwa [mul_one_div] at hclose

-- so that roundings of given decimals can be computed
attribute [local semireducible] digitCount

theorem check_brick_and_kerb :
    Validation.check (some ([brick, kerb].map some)) (some .usual) = .ok () :=
  eq_ok_of_toOption (by decide)

/-- A brick of three pounds and a kerbstone of two kilograms, in chests that are weighed in
kilograms. The weight of the brick is converted there and back. -/
theorem total_weight_close_chests :
    Validation.check (some ([brick, kerb].map some)) (some .usual) = .ok () ∧
      (pack [brick, kerb] [chest] .usual .start).1 =
        .ok (Solution.create [chestOfBrick, chestOfKerb] none .start).1 ∧
      ∃ total, (Solution.create [chestOfBrick, chestOfKerb] none .start).1.totalWeight =
        .ok total ∧ |total.toRat - 7.409248| ≤ 7.409248 / 10 ^ 6 := by
  have hsafe : ∀ p ∈ [chestOfBrick, chestOfKerb], p.Weighable := by
    intro p hp
    obtain ⟨⟨m, hm⟩, htotal, hcount, -⟩ :=
      weights_of_pack check_brick_and_kerb pack_brick_and_kerb p hp
    refine Package.weighable_of_le htotal hm hcount ?_
    obtain rfl | rfl : p = chestOfBrick ∨ p = chestOfKerb := by simpa using hp
    · refine List.forall_mem_singleton.2 ⟨_, rfl, ?_⟩
      norm_num [toRat, signed, magnitude]
    · refine List.forall_mem_singleton.2 ⟨_, rfl, ?_⟩
      norm_num [toRat, signed, magnitude]
  have hweight : (Solution.create [chestOfBrick, chestOfKerb] none .start).1.exactWeightIn
      .pounds = 7.409248 := by
    norm_num [Solution.create, Solution.exactWeightIn, Solution.allItems, chestOfBrick,
      chestOfKerb, Item.exactWeightIn, brick, kerb, WeightUnit.factor, toRat, signed, magnitude]
  have hclose := total_weight_close check_brick_and_kerb pack_brick_and_kerb hsafe
  rw [hweight] at hclose
  exact ⟨check_brick_and_kerb, pack_brick_and_kerb, hclose⟩

end Stowage
