import Stowage.Carton.Basic
import Stowage.Proofs.Measure.Conversion

/-!
# Boxes that fit into one another

A box that fits into another in some orientation has no more volume, and so its rounded volume is at
most a fixed multiple of that of the other (`volume_le_of_canContain`). When the sides of both go up
they are compared as they stand (`Carton.canFit_of_pairwise`).
-/

namespace Stowage

namespace Dimensions

open Decimal

theorem prod_le_of_fitsWithin {inner outer : List Decimal} (hlen : inner.length = outer.length)
    (hpos : ∀ d ∈ inner, 0 ≤ d.toRat) (h : fitsWithin inner outer = true) :
    (inner.map toRat).prod ≤ (outer.map toRat).prod := by
  induction inner generalizing outer with
  | nil =>
    rw [List.eq_nil_of_length_eq_zero hlen.symm]
  | cons i inner ih =>
    cases outer with
    | nil => simp at hlen
    | cons o outer =>
      rw [fitsWithin, Bool.and_eq_true, le_iff] at h
      have hi := hpos i List.mem_cons_self
      have hrest := ih (by simpa using hlen) (fun d hd => hpos d (List.mem_cons_of_mem i hd)) h.2
      have hprod : 0 ≤ (inner.map toRat).prod := by
        apply List.prod_nonneg
        intro x hx
        obtain ⟨d, hd, rfl⟩ := List.mem_map.1 hx
        exact hpos d (List.mem_cons_of_mem i hd)
      rw [List.map_cons, List.prod_cons, List.map_cons, List.prod_cons]
      exact mul_le_mul h.1 hrest hprod (hi.trans h.1)

/-- Each outer side is at least one of the inner ones. -/
theorem exists_le_of_fitsWithin {inner outer : List Decimal} (hlen : inner.length = outer.length)
    (h : fitsWithin inner outer = true) : ∀ o ∈ outer, ∃ i ∈ inner, i.toRat ≤ o.toRat := by
  induction inner generalizing outer with
  | nil =>
    rw [List.eq_nil_of_length_eq_zero hlen.symm]
    simp
  | cons i inner ih =>
    cases outer with
    | nil => simp
    | cons o outer =>
      rw [fitsWithin, Bool.and_eq_true, le_iff] at h
      intro x hx
      rcases List.mem_cons.1 hx with rfl | hx
      · exact ⟨i, List.mem_cons_self, h.1⟩
      · obtain ⟨j, hj, hle⟩ := ih (by simpa using hlen) h.2 x hx
        exact ⟨j, List.mem_cons_of_mem i hj, hle⟩

theorem sortedSides_perm (d : Dimensions) :
    d.sortedSides.Perm [d.length.value, d.width.value, d.height.value] := List.mergeSort_perm _ _

theorem sortedSides_of_pairwise {d : Dimensions}
    (h : [d.length.value, d.width.value, d.height.value].Pairwise (le · ·)) :
    d.sortedSides = [d.length.value, d.width.value, d.height.value] := List.mergeSort_of_pairwise h

/-- Boxes whose sides go up are compared side by side. -/
theorem canContain_of_pairwise {outer inner converted : Dimensions}
    (hc : inner.convertTo outer.unit = .ok converted)
    (houter : [outer.length.value, outer.width.value, outer.height.value].Pairwise (le · ·))
    (hinner : [converted.length.value, converted.width.value, converted.height.value].Pairwise
      (le · ·)) :
    outer.canContain inner =
      .ok (fitsWithin [converted.length.value, converted.width.value, converted.height.value]
        [outer.length.value, outer.width.value, outer.height.value]) := by
  rw [canContain, hc, ok_bind, sortedSides_of_pairwise houter, sortedSides_of_pairwise hinner]
  rfl

theorem prod_sortedSides (d : Dimensions) : (d.sortedSides.map toRat).prod = d.exactVolume := by
  rw [(d.sortedSides_perm.map toRat).prod_eq, exactVolume]
  simp [mul_assoc]

theorem sortedSides_nonneg (d : Dimensions) : ∀ x ∈ d.sortedSides, 0 ≤ x.toRat := by
  intro x hx
  rw [d.sortedSides_perm.mem_iff] at hx
  simp only [List.mem_cons, List.not_mem_nil, or_false] at hx
  rcases hx with rfl | rfl | rfl
  · exact d.length.toRat_pos.le
  · exact d.width.toRat_pos.le
  · exact d.height.toRat_pos.le

/-- What fits has no more volume. -/
theorem exactVolume_le_of_canContain {outer inner converted : Dimensions}
    (hc : inner.convertTo outer.unit = .ok converted) (h : outer.canContain inner = .ok true) :
    converted.exactVolume ≤ outer.exactVolume := by
  rw [canContain, hc, ok_bind, pure_eq_ok] at h
  rw [← prod_sortedSides, ← prod_sortedSides]
  refine prod_le_of_fitsWithin ?_ (sortedSides_nonneg converted) h
  rw [converted.sortedSides_perm.length_eq, outer.sortedSides_perm.length_eq]
  rfl

/-- What fits has no much larger rounded volume. -/
theorem volume_le_of_canContain {outer inner converted : Dimensions} {v w : Decimal}
    (hc : inner.convertTo outer.unit = .ok converted) (h : outer.canContain inner = .ok true)
    (hv : converted.volume = .ok v) (hw : outer.volume = .ok w) (hpos : 0 < w.toRat) :
    v.toRat ≤ 33 * w.toRat := by
  have hle := exactVolume_le_of_canContain hc h
  have hlow := exactVolume_le hw hpos
  have hhigh := volume_le hv
  have hcent := hundredth_le_of_volume hw hpos
  linarith

end Dimensions

namespace Carton

variable {c : Carton} {outer inner : Dimensions} {carried weight : Weight} {fits : Bool}

/-- Whether an item that is not too heavy fits, when the sides of both go up in the same unit. -/
theorem canFit_of_not_heavier (hcarton : c.dimensions = .known outer ∧ c.maxWeight = .known carried)
    (hweight : weight.isGreaterThan carried = .ok false) (hunit : outer.unit = inner.unit)
    (houter : [outer.length.value, outer.width.value, outer.height.value].Pairwise
      (Decimal.le · ·))
    (hinner : [inner.length.value, inner.width.value, inner.height.value].Pairwise
      (Decimal.le · ·))
    (hfits : Dimensions.fitsWithin [inner.length.value, inner.width.value, inner.height.value]
      [outer.length.value, outer.width.value, outer.height.value] = fits) :
    c.canFit (.known inner) (.known weight) = .ok fits := by
  have hcontain : outer.canContain inner = .ok fits :=
    hfits ▸ Dimensions.canContain_of_pairwise (if_pos hunit) houter hinner
  simp [canFit, hcarton, Attribute.get, hweight, hcontain]

/-- Whether an item in the units of a carton fits, when the sides of both go up. -/
theorem canFit_of_pairwise (hcarton : c.dimensions = .known outer ∧ c.maxWeight = .known carried)
    (hunits : weight.unit = carried.unit ∧ outer.unit = inner.unit)
    (hweight : carried.value.value.lt weight.value.value = false)
    (houter : [outer.length.value, outer.width.value, outer.height.value].Pairwise
      (Decimal.le · ·))
    (hinner : [inner.length.value, inner.width.value, inner.height.value].Pairwise
      (Decimal.le · ·))
    (hfits : Dimensions.fitsWithin [inner.length.value, inner.width.value, inner.height.value]
      [outer.length.value, outer.width.value, outer.height.value] = fits) :
    c.canFit (.known inner) (.known weight) = .ok fits := by
  have hheavier : weight.isGreaterThan carried = .ok false := by
    rw [Weight.isGreaterThan, Weight.convertTo, if_pos hunits.1, ok_bind, hweight]
    rfl
  exact canFit_of_not_heavier hcarton hheavier hunits.2 houter hinner hfits

end Carton

end Stowage
