import Stowage.Proofs.Measure.Range

/-!
# Which operand is converted

To compare two measures one of them is converted to the unit of the other. The factors of the two
directions are rounded each on its own, and their product falls short of one (`Reciprocal`). So a
comparison depends on which operand is converted, but in one direction only (`Refines`): a weight
that is above another one after it was itself converted is above it as well when the other one is
converted, and so for boxes that contain others. The two differ only for measures that are next to
each other (`Close`).
-/

namespace Stowage

open Decimal

/-- Two tests with an answer each. Where the first one says yes the second one does, and they differ
only under a condition. -/
def Refines (strict lax : Fallible Bool) (apart : Prop) : Prop :=
  ∃ s l, strict = .ok s ∧ lax = .ok l ∧ (s = true → l = true) ∧ (s ≠ l → apart)

/-- Tests that agree refine each other. -/
theorem Refines.of_eq {strict lax : Fallible Bool} {apart : Prop} {b : Bool} (hs : strict = .ok b)
    (hl : lax = .ok b) : Refines strict lax apart :=
  ⟨b, b, hs, hl, id, fun hne => absurd rfl hne⟩

/-- Tests of two conditions. -/
theorem Refines.of_iff {strict lax : Fallible Bool} {apart P Q : Prop} {s l : Bool}
    (hstrict : strict = .ok s) (hlax : lax = .ok l) (hs : s = true ↔ P) (hl : l = true ↔ Q)
    (himp : P → Q) (happart : Q → ¬ P → apart) : Refines strict lax apart := by
  refine ⟨s, l, hstrict, hlax, fun h => hl.2 (himp (hs.1 h)), fun hne => ?_⟩
  have hne' : ¬ (P ↔ Q) := fun h => hne (Bool.eq_iff_iff.2 ((hs.trans h).trans hl.symm))
  have hp : ¬ P := fun h => hne' (iff_of_true h (himp h))
  exact happart (not_not.1 fun h => hne' (iff_of_false hp h)) hp

/-! ## Two roundings -/

namespace Decimal

variable {τ f g x y : ℚ}

/-- Two numbers that differ by at most a share of either. -/
def Close (τ x y : ℚ) : Prop := x ≤ (1 + τ) * y ∧ y ≤ (1 + τ) * x

/-- The factors of two directions. There and back they fall short of one, by next to the given share
at most. -/
structure Reciprocal (τ f g : ℚ) : Prop where
  pos : 0 < f
  pos' : 0 < g
  short : f * g ≤ 1 - 10 ^ (-9 : ℤ)
  tight : drift ≤ (1 + τ) * (f * g)

/-- What is at most a converted number is below it when converted back. -/
theorem Reciprocal.nearest_lt (h : Reciprocal τ f g) (hx : 0 < x) (hy : 0 < y)
    (hxf : ¬ Underflows (x * f)) (hyg : ¬ Underflows (y * g)) (hle : y ≤ nearest (x * f)) :
    nearest (y * g) < x := by
  have hthere := hle.trans
    (nearest_le_drift_mul_of_not_underflows (mul_pos hx h.pos).le hxf)
  have hback := nearest_le_drift_mul_of_not_underflows (mul_pos hy h.pos').le hyg
  calc nearest (y * g) ≤ drift * (y * g) := hback
    _ ≤ drift * (drift * (x * f) * g) := mul_le_mul_of_nonneg_left
        (mul_le_mul_of_nonneg_right hthere h.pos'.le) drift_pos.le
    _ = drift ^ 2 * (f * g) * x := by ring
    _ ≤ drift ^ 2 * (1 - 10 ^ (-9 : ℤ)) * x := by
        have hsquare := pow_pos drift_pos 2
        have hshort := h.short
        gcongr
    _ < x := mul_lt_of_lt_one_left hx (by norm_num [drift])

/-- Numbers neither of which is above the other, when that one is converted, are close. -/
theorem Reciprocal.close (h : Reciprocal τ f g) (hx : 0 < x) (hy : 0 < y)
    (hxf : ¬ Underflows (x * f)) (hyg : ¬ Underflows (y * g)) (hle : nearest (x * f) ≤ y)
    (hle' : nearest (y * g) ≤ x) : Close τ (x * f) y := by
  have hthere := le_drift_mul_nearest_of_not_underflows (mul_pos hx h.pos).le hxf
  have hback := le_drift_mul_nearest_of_not_underflows (mul_pos hy h.pos').le hyg
  have hτ : 0 ≤ 1 + τ := by
    refine (pos_of_mul_pos_left (drift_pos.trans_le h.tight) ?_).le
    exact (mul_pos h.pos h.pos').le
  have hdrift : drift ≤ 1 + τ := h.tight.trans (mul_le_of_le_one_right hτ
    (h.short.trans (by norm_num)))
  constructor
  · calc x * f ≤ drift * nearest (x * f) := hthere
      _ ≤ (1 + τ) * y := mul_le_mul hdrift hle (nearest_nonneg _) hτ
  · have hround : y * g ≤ drift * x := hback.trans (mul_le_mul_of_nonneg_left hle' drift_pos.le)
    refine le_of_mul_le_mul_left ?_ drift_pos
    calc drift * y ≤ (1 + τ) * (f * g) * y := mul_le_mul_of_nonneg_right h.tight hy.le
      _ = (1 + τ) * f * (y * g) := by ring
      _ ≤ (1 + τ) * f * (drift * x) := mul_le_mul_of_nonneg_left hround (mul_nonneg hτ h.pos.le)
      _ = drift * ((1 + τ) * (x * f)) := by ring

end Decimal

/-! ## Weights -/

theorem WeightUnit.reciprocal {a b : WeightUnit} (h : a ≠ b) :
    Reciprocal (2 / 10 ^ 7) (a.factor b).toRat (b.factor a).toRat := by
  cases a <;> cases b <;> first
    | exact absurd rfl h
    | constructor <;> norm_num [factor, toRat, signed, magnitude, drift]

namespace Weight

variable {a b w : Weight} {unit : WeightUnit}

/-- A weight neither underflows nor overflows when it is converted to a unit, if it is. -/
def Converts (w : Weight) (unit : WeightUnit) : Prop :=
  unit ≠ w.unit → InBounds (w.value.value.toRat * (w.unit.factor unit).toRat)

/-- Whether the first weight is above the second, after the first one was converted. -/
def exceedsConverted (a b : Weight) : Fallible Bool := do
  let a ← a.convertTo b.unit
  return b.value.value.lt a.value.value

/-- Two weights in different units that are at most two parts in ten million apart. -/
def NextTo (a b : Weight) : Prop :=
  a.unit ≠ b.unit ∧
    Close (2 / 10 ^ 7) (a.value.value.toRat * (a.unit.factor b.unit).toRat) b.value.value.toRat

/-- A weight in range can be converted to any unit. -/
theorem converts_of_inRange (h : w.value.InRange) (unit : WeightUnit) : w.Converts unit := by
  intro hu
  have hle := mul_le_mul h.2 (w.unit.factor_le unit) (w.unit.factor_pos unit).le (by norm_num)
  exact ⟨robust_of_inRange h unit hu,
    lt_limit_of_lt (e := 9) (by decide) (hle.trans_lt (by norm_num))⟩

theorem exists_convertTo_of_converts (hu : unit ≠ w.unit) (h : w.Converts unit) :
    ∃ w', w.convertTo unit = .ok w' ∧
      w'.value.value.toRat = nearest (w.value.value.toRat * (w.unit.factor unit).toRat) := by
  obtain ⟨v, a, hv, ha, hval⟩ :=
    w.value.exists_mul_of_inBounds .weight (w.unit.factor_pos unit) (h hu)
  refine ⟨⟨a, unit⟩, ?_, hval⟩
  rw [convertTo, if_neg hu]
  exact bind_eq_ok.2 ⟨v, Fallible.ofDecimal_eq_ok.2 hv, bind_eq_ok.2 ⟨a, ha, rfl⟩⟩

/-- **Comparing weights in the unit of the second is stricter**, and differs from comparing them in
the unit of the first only next to the second. -/
theorem exceedsConverted_refines (ha : a.Converts b.unit) (hb : b.Converts a.unit) :
    Refines (a.exceedsConverted b) (a.isGreaterThan b) (a.NextTo b) := by
  by_cases hu : a.unit = b.unit
  · refine Refines.of_eq (b := b.value.value.lt a.value.value) ?_ ?_
    · rw [exceedsConverted, convertTo, if_pos hu.symm]
      rfl
    · rw [isGreaterThan, convertTo, if_pos hu]
      rfl
  · obtain ⟨a', ha', hav⟩ := exists_convertTo_of_converts (Ne.symm hu) ha
    obtain ⟨b', hb', hbv⟩ := exists_convertTo_of_converts hu hb
    have hx := a.value.toRat_pos
    have hy := b.value.toRat_pos
    have hxf := (ha (Ne.symm hu)).1
    have hyg := (hb hu).1
    refine Refines.of_iff (bind_eq_ok.2 ⟨a', ha', rfl⟩) (bind_eq_ok.2 ⟨b', hb', rfl⟩)
      (lt_iff _ _) (lt_iff _ _) (fun hlt => ?_) fun hlt hnot => ⟨hu, ?_⟩
    · rw [hav] at hlt
      rw [hbv]
      exact (WeightUnit.reciprocal hu).nearest_lt hx hy hxf hyg hlt.le
    · rw [hav, not_lt] at hnot
      rw [hbv] at hlt
      exact (WeightUnit.reciprocal hu).close hx hy hxf hyg hnot hlt.le

end Weight

/-! ## Boxes -/

theorem LengthUnit.reciprocal {a b : LengthUnit} (h : a ≠ b) :
    Reciprocal (21 / 10 ^ 7) (a.factor b).toRat (b.factor a).toRat := by
  cases a <;> cases b <;> first
    | exact absurd rfl h
    | constructor <;> norm_num [factor, toRat, signed, magnitude, drift]

namespace Dimensions

variable {d d' outer inner : Dimensions} {unit : LengthUnit}

/-- No side underflows or overflows when the box is converted to a unit, if it is. -/
def Converts (d : Dimensions) (unit : LengthUnit) : Prop :=
  unit ≠ d.unit → ∀ x ∈ d.sides, InBounds (x.toRat * (d.unit.factor unit).toRat)

/-- Whether the second box fits into the first, after the first one was converted. -/
def containsConverted (outer inner : Dimensions) : Fallible Bool := do
  let outer ← outer.convertTo inner.unit
  outer.canContain inner

/-- Two boxes in different units with corresponding sides that are at most twenty-one parts in ten
million apart. -/
def NextTo (outer inner : Dimensions) : Prop :=
  outer.unit ≠ inner.unit ∧ ∃ p ∈ inner.sortedSides.zip outer.sortedSides,
    Close (21 / 10 ^ 7) (p.2.toRat * (outer.unit.factor inner.unit).toRat) p.1.toRat

/-- A box in range can be converted to any unit. -/
theorem InRange.converts (h : d.InRange) (unit : LengthUnit) : d.Converts unit := by
  intro hu x hx
  have hle := mul_le_mul (h.sides x hx).2 (d.unit.factor_le unit) (d.unit.factor_pos unit).le
    (by norm_num)
  exact ⟨h.robust unit hu x hx, lt_limit_of_lt (e := 9) (by decide) (hle.trans_lt (by norm_num))⟩

theorem pairwise_sortedSides (d : Dimensions) :
    d.sortedSides.Pairwise fun x y => x.toRat ≤ y.toRat := by
  refine (List.pairwise_mergeSort (fun x y z hxy hyz => ?_) (fun x y => ?_) _).imp (le_iff _ _).1
  · rw [le_iff] at *
    exact hxy.trans hyz
  · rw [Bool.or_eq_true, le_iff, le_iff]
    exact le_total _ _

theorem mem_sortedSides {x : Decimal} : x ∈ d.sortedSides ↔ x ∈ d.sides :=
  d.sortedSides_perm.mem_iff

theorem toRat_pos_of_mem_sides {x : Decimal} (hx : x ∈ d.sides) : 0 < x.toRat :=
  (forall_mem_sides (P := (0 < ·.toRat))).2
    ⟨d.length.toRat_pos, d.width.toRat_pos, d.height.toRat_pos⟩ x hx

/-- A conversion multiplies side by side, and rounds. -/
theorem exists_convertTo_sides (hu : unit ≠ d.unit) (h : d.Converts unit) :
    ∃ d', d.convertTo unit = .ok d' ∧ d'.unit = unit ∧ d'.sides.map toRat =
      d.sides.map fun x => nearest (x.toRat * (d.unit.factor unit).toRat) := by
  have hf := d.unit.factor_pos unit
  obtain ⟨hl, hw, ht⟩ := forall_mem_sides.1 (h hu)
  obtain ⟨l, l', hl, hl', hlv⟩ := d.length.exists_mul_of_inBounds .length hf hl
  obtain ⟨w, w', hw, hw', hwv⟩ := d.width.exists_mul_of_inBounds .width hf hw
  obtain ⟨t, t', ht, ht', htv⟩ := d.height.exists_mul_of_inBounds .height hf ht
  refine ⟨⟨l', w', t', unit⟩, ?_, rfl, by simp [sides, hlv, hwv, htv]⟩
  simp [convertTo, hu, hl, hw, ht, ofDecimals, hl', hw', ht', Fallible.ofDecimal, Except.mapError]

/-- A conversion keeps the sides in order. -/
theorem exists_convertTo_of_converts (hu : unit ≠ d.unit) (h : d.Converts unit) :
    ∃ d', d.convertTo unit = .ok d' ∧ d'.unit = unit ∧ d'.sortedSides.map toRat =
      d.sortedSides.map fun x => nearest (x.toRat * (d.unit.factor unit).toRat) := by
  have hf := d.unit.factor_pos unit
  obtain ⟨d', hd', hunit, hsides⟩ := exists_convertTo_sides hu h
  refine ⟨d', hd', hunit, ?_⟩
  -- the same numbers, in order on both sides as rounding is monotone
  refine List.Perm.eq_of_pairwise (fun _ _ _ _ => le_antisymm) ?_ ?_ ?_
  · exact List.pairwise_map.2 (pairwise_sortedSides _)
  · rw [List.pairwise_map]
    refine d.pairwise_sortedSides.imp_of_mem fun {x y} hx _ hxy => ?_
    have hx := (toRat_pos_of_mem_sides (mem_sortedSides.1 hx)).le
    exact nearest_mono (mul_nonneg hx hf.le) (mul_le_mul_of_nonneg_right hxy hf.le)
  · refine (d'.sortedSides_perm.map toRat).trans ?_
    exact (List.Perm.of_eq hsides).trans (d.sortedSides_perm.map _).symm

theorem fitsWithin_iff {xs ys : List Decimal} :
    fitsWithin xs ys = true ↔ ∀ p ∈ (xs.map toRat).zip (ys.map toRat), p.1 ≤ p.2 := by
  induction xs generalizing ys with
  | nil => simp [fitsWithin]
  | cons x xs ih =>
    cases ys with
    | nil => simp [fitsWithin]
    | cons y ys =>
      rw [fitsWithin, Bool.and_eq_true, le_iff, ih]
      simp

/-- **Fitting in the unit of the inner box is stricter**, and differs from fitting in the unit of
the outer one only where a side is next to one of the outer box. -/
theorem containsConverted_refines (ho : outer.Converts inner.unit)
    (hi : inner.Converts outer.unit) :
    Refines (outer.containsConverted inner) (outer.canContain inner) (outer.NextTo inner) := by
  by_cases hu : outer.unit = inner.unit
  · refine Refines.of_eq (b := fitsWithin inner.sortedSides outer.sortedSides) ?_ ?_
    · rw [containsConverted, convertTo, if_pos hu.symm, ok_bind, canContain, convertTo, if_pos hu]
      rfl
    · rw [canContain, convertTo, if_pos hu]
      rfl
  · obtain ⟨outer', houter, hunit, hov⟩ := exists_convertTo_of_converts (Ne.symm hu) ho
    obtain ⟨inner', hinner, -, hiv⟩ := exists_convertTo_of_converts hu hi
    have hself : inner.convertTo outer'.unit = .ok inner := if_pos hunit
    have hpair : ∀ p ∈ inner.sortedSides.zip outer.sortedSides, 0 < p.2.toRat ∧ 0 < p.1.toRat ∧
        ¬ Underflows (p.2.toRat * (outer.unit.factor inner.unit).toRat) ∧
        ¬ Underflows (p.1.toRat * (inner.unit.factor outer.unit).toRat) := by
      intro p hp
      have hy := mem_sortedSides.1 (List.of_mem_zip hp).1
      have hx := mem_sortedSides.1 (List.of_mem_zip hp).2
      exact ⟨toRat_pos_of_mem_sides hx, toRat_pos_of_mem_sides hy, (ho (Ne.symm hu) _ hx).1,
        (hi hu _ hy).1⟩
    refine Refines.of_iff
      (P := ∀ p ∈ inner.sortedSides.zip outer.sortedSides,
        p.1.toRat ≤ nearest (p.2.toRat * (outer.unit.factor inner.unit).toRat))
      (Q := ∀ p ∈ inner.sortedSides.zip outer.sortedSides,
        nearest (p.1.toRat * (inner.unit.factor outer.unit).toRat) ≤ p.2.toRat)
      (bind_eq_ok.2 ⟨outer', houter, bind_eq_ok.2 ⟨inner, hself, rfl⟩⟩)
      (bind_eq_ok.2 ⟨inner', hinner, rfl⟩) ?_ ?_ (fun h p hp => ?_) fun h hnot => ⟨hu, ?_⟩
    · rw [fitsWithin_iff, hov, List.zip_map, List.forall_mem_map]
      rfl
    · rw [fitsWithin_iff, hiv, List.zip_map, List.forall_mem_map]
      rfl
    · obtain ⟨hx, hy, hxf, hyg⟩ := hpair p hp
      exact ((LengthUnit.reciprocal hu).nearest_lt hx hy hxf hyg (h p hp)).le
    · push Not at hnot
      obtain ⟨p, hp, hlt⟩ := hnot
      obtain ⟨hx, hy, hxf, hyg⟩ := hpair p hp
      exact ⟨p, hp, (LengthUnit.reciprocal hu).close hx hy hxf hyg hlt.le (h p hp)⟩

end Dimensions

end Stowage
