import Stowage.Proofs.Packing.Order
import Stowage.Store.Cartons
import Stowage.View.Basic

/-!
# Cartons that come back

A carton with a written name and with amounts in range (`Carton.InRange`) can be shown, and its
stored form can be fetched and is in range again (`StoredCarton.fetchable_ofCarton`). So a table of
such rows (`CartonTable.Usable`) can be listed.
-/

namespace Stowage

/-! ## Cartons -/

/-- A carton with a written name, and with dimensions and a weight in range. -/
structure Carton.InRange (c : Carton) : Prop where
  name : ∃ s, c.name = .text s
  dimensions : ∃ d, c.dimensions = .known d ∧ d.InRange
  maxWeight : ∃ w, c.maxWeight = .known w ∧ w.value.InRange

/-- A carton with a name that is a text and known in all its parts can be shown when it has a
volume. -/
theorem Carton.exists_view {c : Carton} {s : RawText} {d : Dimensions} {m : Weight} {v : Decimal}
    (hname : c.name = .text s) (hd : c.dimensions = .known d) (hm : c.maxWeight = .known m)
    (hv : d.volume = .ok v) : ∃ view, c.view = .ok view := by
  have hvolume := Fallible.ofDecimal_eq_ok.2 hv
  exact ⟨_, by
    rw [view, Attribute.get_eq_ok.2 hd, ok_bind, Attribute.get_eq_ok.2 hm, ok_bind, hvolume,
      ok_bind, hname]
    rfl⟩

namespace Carton.InRange

variable {c : Carton}

theorem exists_view (h : c.InRange) : ∃ v, c.view = .ok v := by
  obtain ⟨⟨s, hs⟩, ⟨d, hd, hrange⟩, w, hw, -⟩ := h
  obtain ⟨v, hv⟩ := hrange.exists_volume
  exact Carton.exists_view hs hd hw hv

theorem sized (h : c.InRange) : c.Sized := ⟨h.dimensions, h.maxWeight⟩

end Carton.InRange

/-! ## Rows -/

/-- A stored carton that can be fetched, and is in range then. -/
def StoredCarton.Fetchable (r : StoredCarton) : Prop := ∃ c, r.toCarton = .ok c ∧ c.InRange

namespace StoredCarton

variable {c : Carton} {r : StoredCarton}

theorem ofCarton_eq_ok : ofCarton c = .ok r ↔
    ∃ d m encodable, c.dimensions = .known d ∧ c.maxWeight = .known m ∧
      r = ⟨c.id, c.name, d.length.toBinary, d.width.toBinary, d.height.toBinary, d.unit,
        m.value.toBinary, m.unit, c.status, c.createdAt, c.updatedAt, encodable⟩ := by
  constructor
  · intro h
    obtain ⟨d, hd, h⟩ := bind_eq_ok.1 h
    obtain ⟨m, hm, h⟩ := bind_eq_ok.1 h
    split_ifs at h with encodable
    · exact ⟨d, m, encodable, Attribute.get_eq_ok.1 hd, Attribute.get_eq_ok.1 hm,
        (pure_eq_ok.1 h).symm⟩
  · rintro ⟨d, m, encodable, hd, hm, rfl⟩
    rw [ofCarton, hd, hm]
    exact dif_pos encodable

/-- A carton that is known in all its parts has a stored form when its name has octets. -/
theorem exists_ofCarton {d : Dimensions} {m : Weight} (hd : c.dimensions = .known d)
    (hm : c.maxWeight = .known m) (hname : c.name.isBroken = false) : ∃ r, ofCarton c = .ok r :=
  ⟨_, ofCarton_eq_ok.2 ⟨d, m, hname, hd, hm, rfl⟩⟩

theorem state_of_ofCarton (h : ofCarton c = .ok r) : r.id = c.id ∧ r.name = c.name ∧
    r.status = c.status ∧ r.createdAt = c.createdAt ∧ r.updatedAt = c.updatedAt := by
  obtain ⟨d, m, _, -, -, rfl⟩ := ofCarton_eq_ok.1 h
  exact ⟨rfl, rfl, rfl, rfl, rfl⟩

/-- What is fetched is known in all its parts, and has no events. -/
theorem toCarton_eq_ok : r.toCarton = .ok c ↔
    ∃ d m, r.dimensions = .ok d ∧ r.weight = .ok m ∧
      c = Carton.restore r.id r.name (.known d) (.known m) r.status r.createdAt r.updatedAt := by
  constructor
  · intro h
    obtain ⟨d, hd, h⟩ := bind_eq_ok.1 h
    obtain ⟨m, hm, h⟩ := bind_eq_ok.1 h
    exact ⟨d, m, hd, hm, (pure_eq_ok.1 h).symm⟩
  · rintro ⟨d, m, hd, hm, rfl⟩
    exact bind_eq_ok.2 ⟨d, hd, bind_eq_ok.2 ⟨m, hm, rfl⟩⟩

theorem state_of_toCarton (h : r.toCarton = .ok c) :
    c.pending = [] ∧ c.status = r.status ∧ c.updatedAt = r.updatedAt := by
  obtain ⟨d, m, -, -, rfl⟩ := toCarton_eq_ok.1 h
  exact ⟨rfl, rfl, rfl⟩

theorem exists_amount {a : Amount} {x : Binary64} (ha : a.InRange) (hx : x = a.toBinary)
    (what : Measured) : ∃ a', amount what x = .ok a' ∧ a'.InRange := by
  rw [amount, hx]
  exact Amount.exists_fourPlaces ha what

theorem exists_dimensions {d : Dimensions} (hd : d.InRange) (hl : r.length = d.length.toBinary)
    (hw : r.width = d.width.toBinary) (hh : r.height = d.height.toBinary) :
    ∃ d', r.dimensions = .ok d' ∧ d'.InRange := by
  obtain ⟨l', hl', hlrange⟩ := exists_amount hd.1 hl .length
  obtain ⟨w', hw', hwrange⟩ := exists_amount hd.2.1 hw .width
  obtain ⟨h', hh', hhrange⟩ := exists_amount hd.2.2 hh .height
  exact ⟨⟨l', w', h', r.lengthUnit⟩,
    bind_eq_ok.2 ⟨l', hl', bind_eq_ok.2 ⟨w', hw', bind_eq_ok.2 ⟨h', hh', rfl⟩⟩⟩,
    hlrange, hwrange, hhrange⟩

theorem exists_weight {w : Weight} (hw : w.value.InRange) (hm : r.maxWeight = w.value.toBinary) :
    ∃ w', r.weight = .ok w' ∧ w'.value.InRange := by
  obtain ⟨m', hm', hrange⟩ := exists_amount hw hm .weight
  exact ⟨⟨m', r.weightUnit⟩, bind_eq_ok.2 ⟨m', hm', rfl⟩, hrange⟩

/-- **What is in range is still so when it comes back.** -/
theorem fetchable_ofCarton (hc : c.InRange) (h : ofCarton c = .ok r) : r.Fetchable := by
  obtain ⟨s, hname⟩ := hc.name
  obtain ⟨d, hd, hdrange⟩ := hc.dimensions
  obtain ⟨w, hw, hwrange⟩ := hc.maxWeight
  obtain ⟨d₀, w₀, _, hd₀, hw₀, hr⟩ := ofCarton_eq_ok.1 h
  obtain rfl := Attribute.known.inj (hd.symm.trans hd₀)
  obtain rfl := Attribute.known.inj (hw.symm.trans hw₀)
  obtain ⟨d', hd', hdrange'⟩ : ∃ d', r.dimensions = .ok d' ∧ d'.InRange :=
    exists_dimensions hdrange (by rw [hr]) (by rw [hr]) (by rw [hr])
  obtain ⟨w', hw', hwrange'⟩ : ∃ w', r.weight = .ok w' ∧ w'.value.InRange :=
    exists_weight hwrange (by rw [hr])
  have hstored : r.name = .text s := (by rw [hr] : r.name = c.name).trans hname
  exact ⟨_, toCarton_eq_ok.2 ⟨d', w', hd', hw', rfl⟩, ⟨s, hstored⟩, ⟨d', rfl, hdrange'⟩,
    w', rfl, hwrange'⟩

end StoredCarton

/-! ## Tables -/

namespace CartonTable

variable {t : CartonTable} {r q : StoredCarton} {activeOnly : Bool} {cs : List Carton}

theorem id_of_row? {id : String} (h : t.row? id = some r) : r.id = id := by
  simpa using List.find?_some h

/-- A row that was written is the only one with its id. -/
theorem eq_of_mem_put (h : q ∈ (t.put r).rows) (hid : q.id = r.id) : q = r := by
  unfold put at h
  split_ifs at h with hrow
  · obtain ⟨old, hold, rfl⟩ := List.mem_map.1 h
    split_ifs at hid ⊢ with hsame
    · rfl
    · exact absurd (beq_iff_eq.2 hid) hsame
  · rcases List.mem_append.1 h with h | h
    · refine absurd ?_ hrow
      rw [row?, List.find?_isSome]
      exact ⟨q, h, beq_iff_eq.2 hid⟩
    · exact List.mem_singleton.1 h

theorem mem_or_eq_of_mem_put (h : q ∈ (t.put r).rows) : q ∈ t.rows ∨ q = r := by
  unfold put at h
  split_ifs at h
  · obtain ⟨old, hold, rfl⟩ := List.mem_map.1 h
    split_ifs
    · exact .inr rfl
    · exact .inl hold
  · simpa using h

theorem mem_put (t : CartonTable) (r : StoredCarton) : r ∈ (t.put r).rows := by
  unfold put
  split_ifs with hrow
  · obtain ⟨old, hold⟩ := Option.isSome_iff_exists.1 hrow
    refine List.mem_map.2 ⟨old, List.mem_of_find?_eq_some hold, ?_⟩
    rw [if_pos (beq_iff_eq.2 (id_of_row? hold))]
  · exact List.mem_append_right _ (List.mem_singleton.2 rfl)

theorem row?_put (t : CartonTable) (r : StoredCarton) : (t.put r).row? r.id = some r := by
  have hsome : ((t.put r).row? r.id).isSome := by
    rw [row?, List.find?_isSome]
    exact ⟨r, t.mem_put r, beq_iff_eq.2 rfl⟩
  obtain ⟨q, hq⟩ := Option.isSome_iff_exists.1 hsome
  rw [hq, eq_of_mem_put (List.mem_of_find?_eq_some hq) (id_of_row? hq)]

theorem mem_select : q ∈ t.select activeOnly ↔
    q ∈ t.rows ∧ (activeOnly = true → q.status = .active) := by
  cases activeOnly <;> simp [select, StoredCarton.isActive]

/-- The cartons of a list are those of the selected rows. -/
theorem mem_of_list (h : t.list activeOnly = .ok cs) :
    (∀ c ∈ cs, ∃ r ∈ t.select activeOnly, r.toCarton = .ok c) ∧
      ∀ r ∈ t.select activeOnly, ∃ c ∈ cs, r.toCarton = .ok c := by
  have hrows (r : StoredCarton) : r ∈ byAge (t.select activeOnly) ↔ r ∈ t.select activeOnly :=
    (List.mergeSort_perm _ _).mem_iff
  simp only [← hrows]
  exact mem_of_mapM h

/-- All rows can be fetched. -/
def Usable (t : CartonTable) : Prop := ∀ r ∈ t.rows, r.Fetchable

theorem usable_empty : Usable .empty := by simp [Usable, empty]

/-- Writing a row that can be fetched leaves a usable table usable. -/
theorem Usable.put (ht : t.Usable) (hr : r.Fetchable) : (t.put r).Usable := by
  intro q hq
  rcases mem_or_eq_of_mem_put hq with hold | rfl
  · exact ht q hold
  · exact hr

theorem find?_of_row? {id : String} (h : t.row? id = some r) :
    t.find? id = r.toCarton.map some := by
  rw [find?, h]

/-- What is found in a usable table is in range. -/
theorem Usable.inRange_of_find? (ht : t.Usable) {id : String} {c : Carton}
    (h : t.find? id = .ok (some c)) : c.InRange := by
  unfold find? at h
  split at h
  next r hrow =>
    obtain ⟨c', hc', hrange⟩ := ht r (List.mem_of_find?_eq_some hrow)
    rw [hc'] at h
    cases h
    exact hrange
  next => cases h

/-- What is stored in a usable table is found by its id. -/
theorem Usable.exists_find? (ht : t.Usable) (hr : r ∈ t.rows) :
    ∃ c, t.find? r.id = .ok (some c) ∧ c.InRange := by
  have hsome : (t.row? r.id).isSome = true := by
    rw [row?, List.find?_isSome]
    exact ⟨r, hr, by simp⟩
  obtain ⟨q, hq⟩ := Option.isSome_iff_exists.1 hsome
  obtain ⟨c, hc, hrange⟩ := ht q (List.mem_of_find?_eq_some hq)
  refine ⟨c, ?_, hrange⟩
  rw [find?_of_row? hq, hc]
  rfl

/-- **A usable table can be listed**, and what is listed is in range. -/
theorem Usable.exists_list (ht : t.Usable) (activeOnly : Bool) :
    ∃ cs, t.list activeOnly = .ok cs ∧ ∀ c ∈ cs, c.InRange := by
  refine exists_mapM_forall fun r hr => ht r ?_
  exact (mem_select.1 ((List.mergeSort_perm _ _).mem_iff.1 hr)).1

/-! ## Names -/

/-- All stored cartons have written names, which have octets. -/
def Named (t : CartonTable) : Prop := ∀ r ∈ t.rows, ∃ s : String, r.name = .text s

namespace Named

variable {c : Carton} {s : RawText}

theorem put (ht : t.Named) (hr : StoredCarton.ofCarton c = .ok r) (hname : c.name = .text s) :
    (t.put r).Named := by
  intro q hq
  rcases mem_or_eq_of_mem_put hq with hold | rfl
  · exact ht q hold
  · have hstored : q.name = .text s := (StoredCarton.state_of_ofCarton hr).2.1.trans hname
    have hwhole := q.encodable
    cases s with
    | whole s => exact ⟨s, hstored⟩
    | broken t =>
      rw [hstored] at hwhole
      nomatch hwhole

theorem of_mem (ht : t.Named) (hr : r ∈ t.rows) (hc : r.toCarton = .ok c) :
    ∃ s : String, c.name = .text s := by
  obtain ⟨_, _, -, -, rfl⟩ := StoredCarton.toCarton_eq_ok.1 hc
  exact ht r hr

theorem of_row? (ht : t.Named) {id : String} (hrow : t.row? id = some r)
    (hc : r.toCarton = .ok c) : ∃ s : String, c.name = .text s :=
  ht.of_mem (List.mem_of_find?_eq_some hrow) hc

/-- What is listed has a written name. -/
theorem of_list (ht : t.Named) (h : t.list activeOnly = .ok cs) (hc : c ∈ cs) :
    ∃ s : String, c.name = .text s := by
  obtain ⟨r, hr, hrc⟩ := (mem_of_list h).1 c hc
  exact ht.of_mem (mem_select.1 hr).1 hrc

theorem exists_name (ht : t.Named) (h : t.list activeOnly = .ok cs) :
    ∀ c ∈ cs, ∃ s : RawText, c.name = .text s := by
  intro c hc
  obtain ⟨s, hs⟩ := ht.of_list h hc
  exact ⟨s, hs⟩

end Named

end CartonTable

end Stowage
