import Stowage.Proofs.Measure.Direction

/-!
# Boxes in all orientations

The sides of two boxes are compared in order of size, the smallest with the smallest. That is as
good as trying all orientations: when the sides fit in some order, they fit in increasing order
(`forall₂_of_perm`, where sides that are out of order change places one by one, as in a sort by
insertion). So a box fits into another exactly when it fits in some orientation, and turning either
of them changes nothing (`fits_in_some_orientation`).
-/

namespace Stowage

/-! ## In increasing order -/

section Sorting

open List

variable {α : Type} [LinearOrder α] {a b : α} {xs ys zs : List α}

/-- In a list that goes up, the head is where it would be put in. -/
theorem orderedInsert_of_pairwise (h : (a :: xs).Pairwise (· ≤ ·)) :
    xs.orderedInsert (· ≤ ·) a = a :: xs := by
  have hsort := h.insertionSort_eq
  rwa [insertionSort_cons, h.of_cons.insertionSort_eq] at hsort

/-- Numbers that are at most others, one by one, still are with a pair of numbers put in. -/
theorem forall₂_orderedInsert (hab : a ≤ b) (hxs : xs.Pairwise (· ≤ ·)) (hys : ys.Pairwise (· ≤ ·))
    (h : Forall₂ (· ≤ ·) xs ys) :
    Forall₂ (· ≤ ·) (xs.orderedInsert (· ≤ ·) a) (ys.orderedInsert (· ≤ ·) b) := by
  induction h generalizing a b with
  | nil => exact .cons hab .nil
  | @cons x y xs ys hxy h ih =>
    -- where only one of the two is put in at the head, the other head takes its place further on
    by_cases hax : a ≤ x <;> by_cases hby : b ≤ y
    · rw [orderedInsert_cons_of_le _ _ hax, orderedInsert_cons_of_le _ _ hby]
      exact .cons hab (.cons hxy h)
    · rw [orderedInsert_cons_of_le _ _ hax, orderedInsert_of_not_le _ _ hby,
        ← orderedInsert_of_pairwise hxs]
      exact .cons (hax.trans hxy) (ih (hxy.trans (le_of_not_ge hby)) hxs.of_cons hys.of_cons)
    · rw [orderedInsert_of_not_le _ _ hax, orderedInsert_cons_of_le _ _ hby,
        ← orderedInsert_of_pairwise hys]
      exact .cons ((le_of_not_ge hax).trans hab) (ih (hab.trans hby) hxs.of_cons hys.of_cons)
    · rw [orderedInsert_of_not_le _ _ hax, orderedInsert_of_not_le _ _ hby]
      exact .cons hxy (ih hab hxs.of_cons hys.of_cons)

theorem forall₂_insertionSort (h : Forall₂ (· ≤ ·) xs ys) :
    Forall₂ (· ≤ ·) (xs.insertionSort (· ≤ ·)) (ys.insertionSort (· ≤ ·)) := by
  induction h with
  | nil => exact .nil
  | cons hab _ ih =>
    exact forall₂_orderedInsert hab (pairwise_insertionSort _ _) (pairwise_insertionSort _ _) ih

/-- **Numbers that are at most others in some order are so in increasing order.** -/
theorem forall₂_of_perm (hxs : xs.Pairwise (· ≤ ·)) (hys : ys.Pairwise (· ≤ ·)) (hperm : zs ~ xs)
    (h : Forall₂ (· ≤ ·) zs ys) : Forall₂ (· ≤ ·) xs ys := by
  have hsort : zs.insertionSort (· ≤ ·) = xs :=
    Perm.eq_of_pairwise' (pairwise_insertionSort _ _) hxs ((perm_insertionSort _ zs).trans hperm)
  have hle := forall₂_insertionSort h
  rwa [hsort, hys.insertionSort_eq] at hle

end Sorting

namespace Dimensions

open Decimal

variable {d d' c outer outer' inner inner' converted : Dimensions} {unit : LengthUnit}

/-! ## Turned boxes -/

/-- Sides of a box, in any order, are those of a box. -/
theorem exists_of_perm_sides {xs : List Decimal} (h : xs.Perm d.sides) (unit : LengthUnit) :
    ∃ d' : Dimensions, d'.sides = xs ∧ d'.unit = unit := by
  have hamount : ∀ x ∈ xs, ∃ a : Amount, a.value = x := by
    intro x hx
    have hd : ∀ y ∈ d.sides, ∃ a : Amount, a.value = y :=
      forall_mem_sides.2 ⟨⟨_, rfl⟩, ⟨_, rfl⟩, ⟨_, rfl⟩⟩
    exact hd x (h.subset hx)
  obtain ⟨l, w, t, rfl⟩ := List.length_eq_three.1 h.length_eq
  obtain ⟨⟨l, rfl⟩, ⟨w, rfl⟩, t, rfl⟩ := by simpa using hamount
  exact ⟨⟨l, w, t, unit⟩, rfl, rfl⟩

/-- A turned box can be converted when the box can, and comes out as that turned. -/
theorem exists_convertTo_of_perm (h : d.convertTo unit = .ok c) (hunit : d'.unit = d.unit)
    (hperm : d'.sides.Perm d.sides) :
    ∃ c', d'.convertTo unit = .ok c' ∧ c'.sides.Perm c.sides := by
  by_cases hu : unit = d.unit
  · rw [convertTo, if_pos hu] at h
    cases h
    exact ⟨d', if_pos (hu.trans hunit.symm), hperm⟩
  · obtain ⟨-, hmul⟩ := (convertTo_eq_ok hu).1 h
    obtain ⟨xs, hmul', hxs⟩ := List.perm_comp_forall₂ hperm hmul
    obtain ⟨c', rfl, hunit'⟩ := exists_of_perm_sides hxs unit
    rw [← hunit] at hu hmul'
    exact ⟨c', (convertTo_eq_ok hu).2 ⟨hunit', hmul'⟩, hxs⟩

theorem map_sortedSides_of_perm (h : d.sides.Perm d'.sides) :
    d.sortedSides.map toRat = d'.sortedSides.map toRat := by
  refine List.Perm.eq_of_pairwise (fun _ _ _ _ => le_antisymm) ?_ ?_ ?_
  · exact List.pairwise_map.2 d.pairwise_sortedSides
  · exact List.pairwise_map.2 d'.pairwise_sortedSides
  · exact ((d.sortedSides_perm.trans h).trans d'.sortedSides_perm.symm).map toRat

/-- Turning either box changes nothing. -/
theorem canContain_of_perm (h : inner.convertTo outer.unit = .ok converted)
    (houter : outer'.unit = outer.unit) (hinner : inner'.unit = inner.unit)
    (houters : outer'.sides.Perm outer.sides) (hinners : inner'.sides.Perm inner.sides) :
    outer'.canContain inner' = outer.canContain inner := by
  obtain ⟨converted', h', hperm⟩ := exists_convertTo_of_perm h hinner hinners
  rw [canContain, canContain, houter, h, h', ok_bind, ok_bind]
  congr 1
  rw [Bool.eq_iff_iff, fitsWithin_iff, fitsWithin_iff, map_sortedSides_of_perm hperm,
    map_sortedSides_of_perm houters]

/-! ## Some orientation -/

theorem fitsWithin_iff_forall₂ {xs ys : List Decimal} (h : xs.length = ys.length) :
    fitsWithin xs ys = true ↔ List.Forall₂ (fun x y => x.toRat ≤ y.toRat) xs ys := by
  induction xs generalizing ys with
  | nil => simp [fitsWithin, List.eq_nil_of_length_eq_zero h.symm]
  | cons x xs ih =>
    cases ys with
    | nil => simp at h
    | cons y ys =>
      rw [fitsWithin, Bool.and_eq_true, le_iff, ih (by simpa using h), List.forall₂_cons]

/-- Sides in order of size fit one by one exactly when they do so in some order. -/
theorem fitsWithin_sortedSides_iff : fitsWithin inner.sortedSides outer.sortedSides = true ↔
    ∃ xs, xs.Perm inner.sides ∧ List.Forall₂ (fun x y => x.toRat ≤ y.toRat) xs outer.sides := by
  rw [fitsWithin_iff_forall₂ (inner.sortedSides_perm.length_eq.trans
    outer.sortedSides_perm.length_eq.symm)]
  constructor
  · intro h
    -- the sides of the inner box are turned as those of the outer one are
    obtain ⟨xs, hle, hxs⟩ := List.perm_comp_forall₂ outer.sortedSides_perm.symm h.flip
    exact ⟨xs, hxs.trans inner.sortedSides_perm, hle.flip⟩
  · rintro ⟨xs, hperm, hle⟩
    obtain ⟨zs, hle, hzs⟩ := List.perm_comp_forall₂ outer.sortedSides_perm hle.flip
    have hinc : List.Forall₂ (· ≤ ·) (inner.sortedSides.map toRat)
        (outer.sortedSides.map toRat) := by
      have hsides : (zs.map toRat).Perm (inner.sortedSides.map toRat) :=
        ((hzs.trans hperm).trans inner.sortedSides_perm.symm).map toRat
      refine forall₂_of_perm ?_ ?_ hsides ?_
      · exact List.pairwise_map.2 inner.pairwise_sortedSides
      · exact List.pairwise_map.2 outer.pairwise_sortedSides
      · simpa using hle.flip
    simpa using hinc

/-- **A box fits into another exactly when it does in some orientation**, once its sides are
converted to the unit of the other. Turning either of them changes nothing. -/
theorem fits_in_some_orientation (h : inner.convertTo outer.unit = .ok converted) :
    ∃ b, outer.canContain inner = .ok b ∧
      (b = true ↔ ∃ l w t, [l, w, t].Perm converted.sides ∧
        l.toRat ≤ outer.length.value.toRat ∧ w.toRat ≤ outer.width.value.toRat ∧
          t.toRat ≤ outer.height.value.toRat) ∧
      ∀ outer' inner' : Dimensions, outer'.unit = outer.unit → inner'.unit = inner.unit →
        outer'.sides.Perm outer.sides → inner'.sides.Perm inner.sides →
          outer'.canContain inner' = .ok b := by
  have hcontains : outer.canContain inner =
      .ok (fitsWithin converted.sortedSides outer.sortedSides) := bind_eq_ok.2 ⟨_, h, rfl⟩
  refine ⟨_, hcontains, ?_, ?_⟩
  · rw [fitsWithin_sortedSides_iff]
    constructor
    · rintro ⟨xs, hxs, hle⟩
      obtain ⟨l, w, t, rfl⟩ := List.length_eq_three.1 hxs.length_eq
      exact ⟨l, w, t, hxs, by simpa [sides] using hle⟩
    · rintro ⟨l, w, t, hperm, hle⟩
      exact ⟨_, hperm, by simpa [sides] using hle⟩
  · intro outer' inner' houter hinner houters hinners
    rw [canContain_of_perm h houter hinner houters hinners, hcontains]

/-- A drawer. -/
def drawer : Dimensions :=
  ⟨⟨⟨false, 3, 0⟩, Eq.refl true⟩, ⟨⟨false, 2, 0⟩, Eq.refl true⟩, ⟨⟨false, 1, 0⟩, Eq.refl true⟩,
    .inches⟩

/-- A case that fits into the drawer, but not upright. -/
def uprightCase : Dimensions :=
  ⟨⟨⟨false, 5, 0⟩, Eq.refl true⟩, ⟨⟨false, 25, -1⟩, Eq.refl true⟩, ⟨⟨false, 75, -1⟩, Eq.refl true⟩,
    .centimeters⟩

/-- The case measured in inches. -/
def uprightCaseInInches : Dimensions :=
  ⟨⟨⟨false, 19685, -4⟩, Eq.refl true⟩, ⟨⟨false, 98425, -5⟩, Eq.refl true⟩,
    ⟨⟨false, 295275, -5⟩, Eq.refl true⟩, .inches⟩

-- so that roundings of given decimals can be computed
attribute [local semireducible] digitCount

/-- The case fits in one orientation, and so however it and the drawer are turned. -/
theorem uprightCase_fits_in_some_orientation :
    drawer.canContain uprightCase = .ok true ∧
      ∀ outer' inner' : Dimensions, outer'.unit = .inches → inner'.unit = .centimeters →
        outer'.sides.Perm drawer.sides → inner'.sides.Perm uprightCase.sides →
          outer'.canContain inner' = .ok true := by
  have hconverted : uprightCase.convertTo drawer.unit = .ok uprightCaseInInches :=
    eq_ok_of_toOption (by decide)
  obtain ⟨b, hb, hiff, hturned⟩ := fits_in_some_orientation hconverted
  obtain rfl : b = true := by
    refine hiff.2 ⟨⟨false, 295275, -5⟩, ⟨false, 19685, -4⟩, ⟨false, 98425, -5⟩, ?_, ?_⟩
    · decide
    · norm_num [drawer, toRat, signed, magnitude]
  exact ⟨hb, hturned⟩

end Dimensions

end Stowage
