import Stowage.Packing.Order
import Stowage.Proofs.Package.Acceptance
import Stowage.Proofs.Measure.Range
import Stowage.Proofs.Package.Report

/-!
# Orders of items and cartons

Putting items and cartons in order loses nothing and adds nothing (`sortItems_perm`,
`sortCartons_perm`). A line with a whole quantity stands for as many single pieces, and for none
when the quantity is not positive (`allUnits_eq`). Cartons whose measures are in range can be put in
order (`exists_sortCartons`).
-/

namespace Stowage

variable {whole : Prop}

/-! ## Single pieces -/

namespace Quantity

theorem signals_factor {quantity : Json} (h : whole → IsCountable quantity) :
    Signals whole (factor quantity) := by
  unfold factor
  split
  · exact .ok _
  · exact .ok _
  · rename_i hbool hint
    refine .defect trivial fun hwhole => ?_
    obtain ⟨n, rfl, -⟩ := h hwhole
    exact hint n rfl

theorem signals_unitCount {quantity : Json} (h : whole → IsCountable quantity) :
    Signals whole (unitCount quantity) := by
  refine (signals_factor h).bind_of_ok fun n hn => ?_
  split_ifs with hrange
  · refine .defect trivial fun hwhole => ?_
    obtain ⟨m, rfl, hlow, hhigh⟩ := h hwhole
    cases hn
    omega
  · exact .pure _

end Quantity

namespace Item

variable {i : Item}

theorem signals_units (h : whole → Quantity.IsCountable i.quantity) : Signals whole i.units :=
  .ite (.ok _) ((Quantity.signals_unitCount h).bind fun _ => .pure _)

theorem signals_sortVolume (h : whole → i.IsKnown) : Signals whole i.sortVolume :=
  .bind (Attribute.signals_get fun hwhole => (h hwhole).dimensions) fun d => d.signals_sortVolume

/-- A line with a whole quantity as single pieces. -/
theorem units_eq {q : ℤ} {us : List Item} (hq : i.quantity = .int q)
    (h : i.units = .ok us) : us = List.replicate q.toNat i.single := by
  unfold units at h
  split_ifs at h with hone
  · obtain rfl : q = 1 := by simpa [Quantity.isOne, hq, Json.wholeValue?] using hone
    cases h
    rw [single, ← hq]
    rfl
  · obtain ⟨n, hn, h⟩ := bind_eq_ok.1 h
    rw [hq] at hn
    obtain ⟨m, hm, hn⟩ := bind_eq_ok.1 hn
    cases hm
    split_ifs at hn
    rw [← pure_eq_ok.1 h, ← pure_eq_ok.1 hn]

/-- The single pieces of a line are the line itself or a piece of it. -/
theorem mem_units {us : List Item} (h : i.units = .ok us) :
    ∀ u ∈ us, u = i ∨ u = i.single := by
  unfold units at h
  split_ifs at h
  · cases h
    simp
  · obtain ⟨n, -, h⟩ := bind_eq_ok.1 h
    rw [← pure_eq_ok.1 h]
    exact fun u hu => .inr (List.mem_replicate.1 hu).2

theorem IsWhole.single (h : i.IsWhole) : i.single.IsWhole :=
  ⟨⟨h.dimensions, h.weight⟩, ⟨1, rfl, by decide, by decide⟩, h.shown⟩

end Item

/-- A carton with dimensions and a weight in range. -/
structure Carton.Sized (c : Carton) : Prop where
  dimensions : ∃ d, c.dimensions = .known d ∧ d.InRange
  maxWeight : ∃ m, c.maxWeight = .known m ∧ m.value.InRange

namespace Packing

variable {items units : List Item} {cartons cs : List Carton}

theorem signals_allUnits (h : whole → ∀ i ∈ items, i.IsWhole) :
    Signals whole (allUnits items) := by
  induction items with
  | nil => exact .ok _
  | cons i items ih =>
    refine .bind (Item.signals_units fun hwhole => (h hwhole i List.mem_cons_self).countable)
      fun _ => .bind (ih fun hwhole j hj => h hwhole j (List.mem_cons_of_mem i hj)) fun _ => .pure _

/-- The single pieces of lines with whole quantities. -/
theorem allUnits_eq (hq : ∀ i ∈ items, ∃ q, i.quantity = .int q) (h : allUnits items = .ok units) :
    units = Item.singles items := by
  induction items generalizing units with
  | nil =>
    cases h
    rfl
  | cons i items ih =>
    obtain ⟨us, hus, h⟩ := bind_eq_ok.1 h
    obtain ⟨others, hothers, h⟩ := bind_eq_ok.1 h
    obtain ⟨⟨q, hi⟩, hitems⟩ := List.forall_mem_cons.1 hq
    rw [← pure_eq_ok.1 h, ih hitems hothers, Item.units_eq hi hus, Item.singles, Item.singles,
      List.flatMap_cons, hi]
    rfl

/-- Every single piece comes from a line. -/
theorem mem_allUnits (h : allUnits items = .ok units) :
    ∀ u ∈ units, ∃ i ∈ items, u = i ∨ u = i.single := by
  induction items generalizing units with
  | nil =>
    cases h
    simp
  | cons i items ih =>
    obtain ⟨us, hus, h⟩ := bind_eq_ok.1 h
    obtain ⟨others, hothers, h⟩ := bind_eq_ok.1 h
    rw [← pure_eq_ok.1 h]
    refine List.forall_mem_append.2 ⟨fun u hu => ?_, fun u hu => ?_⟩
    · exact ⟨i, List.mem_cons_self, Item.mem_units hus u hu⟩
    · obtain ⟨j, hj, hline⟩ := ih hothers u hu
      exact ⟨j, List.mem_cons_of_mem _ hj, hline⟩

/-! ## Sorting -/

section Keyed

variable {α : Type} {volume : α → Fallible Decimal} {xs : List α} {ys : Keyed α}

theorem map_snd_of_keyed (h : keyed volume xs = .ok ys) : ys.map (·.2) = xs := by
  induction xs generalizing ys with
  | nil =>
    cases h
    rfl
  | cons x xs ih =>
    obtain ⟨y, rest, hy, hrest, rfl⟩ := mapM_eq_ok_cons.1 h
    obtain ⟨v, -, hy⟩ := bind_eq_ok.1 hy
    rw [List.map_cons, ih hrest, ← pure_eq_ok.1 hy]

theorem exists_keyed (h : ∀ x ∈ xs, ∃ v, volume x = .ok v) : ∃ ys, keyed volume xs = .ok ys :=
  exists_mapM fun x hx => (h x hx).elim fun v hv => ⟨(v, x), by simp [hv]⟩

theorem signals_keyed (hv : ∀ x ∈ xs, Signals whole (volume x)) :
    Signals whole (keyed volume xs) :=
  .mapM fun x hx => (hv x hx).bind fun _ => .pure _

end Keyed

/-- The items in order are the single pieces of the lines. -/
theorem sortItems_perm (h : sortItems items = .ok units) :
    ∃ us, allUnits items = .ok us ∧ units.Perm us := by
  obtain ⟨us, hus, h⟩ := bind_eq_ok.1 h
  obtain ⟨keyed, hkeyed, h⟩ := bind_eq_ok.1 h
  refine ⟨us, hus, ?_⟩
  rw [← pure_eq_ok.1 h, ← map_snd_of_keyed hkeyed]
  exact (List.mergeSort_perm _ _).map _

/-- The cartons in order are the active ones. -/
theorem sortCartons_perm (h : sortCartons cartons = .ok cs) :
    cs.Perm (cartons.filter Carton.isActive) := by
  obtain ⟨keyed, hkeyed, h⟩ := bind_eq_ok.1 h
  rw [← pure_eq_ok.1 h, ← map_snd_of_keyed hkeyed]
  exact (List.mergeSort_perm _ _).map _

/-- Pieces that are in order stay as they are. -/
theorem sortItems_of_pairwise {ks : Keyed Item} (hunits : allUnits items = .ok units)
    (hkeyed : keyed Item.sortVolume units = .ok ks)
    (hsorted : ks.Pairwise fun a b => b.1.le a.1 = true) : sortItems items = .ok units := by
  rw [sortItems, hunits, ok_bind, hkeyed, ok_bind, List.mergeSort_of_pairwise hsorted,
    map_snd_of_keyed hkeyed]
  rfl

/-- Active cartons that are in order stay as they are. -/
theorem sortCartons_of_pairwise {ks : Keyed Carton} (hactive : ∀ c ∈ cartons, c.isActive = true)
    (hkeyed : keyed cartonVolume cartons = .ok ks)
    (hsorted : ks.Pairwise fun a b => a.1.le b.1 = true) : sortCartons cartons = .ok cartons := by
  rw [sortCartons, List.filter_eq_self.2 hactive, hkeyed, ok_bind,
    List.mergeSort_of_pairwise hsorted, map_snd_of_keyed hkeyed]
  rfl

theorem sortCartons_singleton {c : Carton} {v : Decimal} (hactive : c.isActive = true)
    (hv : cartonVolume c = .ok v) : sortCartons [c] = .ok [c] := by
  have hkeyed : keyed cartonVolume [c] = .ok [(v, c)] := by simp [keyed, hv]
  exact sortCartons_of_pairwise (by simpa using hactive) hkeyed (List.pairwise_singleton _ _)

theorem sortItems_singleton {i : Item} {v : Decimal} (hunits : allUnits [i] = .ok [i])
    (hv : i.sortVolume = .ok v) : sortItems [i] = .ok [i] := by
  have hkeyed : keyed Item.sortVolume [i] = .ok [(v, i)] := by simp [keyed, hv]
  exact sortItems_of_pairwise hunits hkeyed (List.pairwise_singleton _ _)

theorem mem_of_sortCartons (h : sortCartons cartons = .ok cs) {c : Carton} :
    c ∈ cs ↔ c ∈ cartons ∧ c.isActive = true := by
  rw [(sortCartons_perm h).mem_iff, List.mem_filter]

theorem exists_cartonVolume {c : Carton} (hc : c.Sized) : ∃ v, cartonVolume c = .ok v := by
  obtain ⟨d, hd, hrange⟩ := hc.dimensions
  obtain ⟨v, hv⟩ := hrange.exists_sortVolume
  exact ⟨v, bind_eq_ok.2 ⟨d, Attribute.get_eq_ok.2 hd, hv⟩⟩

/-- Active cartons whose measures are in range can be put in order. -/
theorem exists_sortCartons (h : ∀ c ∈ cartons, c.isActive = true → c.Sized) :
    ∃ cs, sortCartons cartons = .ok cs := by
  have hvolume : ∀ c ∈ cartons.filter Carton.isActive, ∃ v, cartonVolume c = .ok v := by
    intro c hc
    obtain ⟨hmem, hactive⟩ := List.mem_filter.1 hc
    exact exists_cartonVolume (h c hmem hactive)
  obtain ⟨ks, hks⟩ := exists_keyed hvolume
  exact ⟨_, bind_eq_ok.2 ⟨ks, hks, rfl⟩⟩

/-- Single pieces of items without a defect have none. -/
theorem isWhole_of_mem_allUnits (hitems : ∀ i ∈ items, i.IsWhole)
    (h : allUnits items = .ok units) : ∀ u ∈ units, u.IsWhole := by
  intro u hu
  obtain ⟨i, hi, rfl | rfl⟩ := mem_allUnits h u hu
  · exact hitems u hi
  · exact (hitems i hi).single

theorem signals_sortItems (h : whole → ∀ i ∈ items, i.IsWhole) :
    Signals whole (sortItems items) :=
  (signals_allUnits h).bind_of_ok fun _ hunits =>
    .bind (signals_keyed fun u hu => Item.signals_sortVolume fun hwhole =>
      (isWhole_of_mem_allUnits (h hwhole) hunits u hu).toIsKnown) fun _ => .pure _

theorem isWhole_of_mem_sortItems (hitems : ∀ i ∈ items, i.IsWhole)
    (h : sortItems items = .ok units) : ∀ u ∈ units, u.IsWhole := by
  obtain ⟨us, hus, hperm⟩ := sortItems_perm h
  exact fun u hu => isWhole_of_mem_allUnits hitems hus u (hperm.mem_iff.1 hu)

theorem signals_sortCartons (h : whole → ∀ c ∈ cartons, c.IsKnown) :
    Signals whole (sortCartons cartons) := by
  have hv : ∀ c ∈ cartons.filter Carton.isActive, Signals whole (cartonVolume c) := fun c hc =>
    .bind (Attribute.signals_get fun hwhole => (h hwhole c (List.mem_of_mem_filter hc)).dimensions)
      fun d => d.signals_sortVolume
  exact (signals_keyed hv).bind fun _ => .pure _

end Packing

end Stowage
