import Stowage.Proofs.Store.Cartons
import Stowage.Warehouse.Revision

/-!
# Cartons stay usable

Cartons are created, updated, activated and deactivated. As long as the amounts that the calls give
are in range, every carton that is stored can be listed, shown, fetched and put in order
(`cartons_usable`): no step of a revision writes a row that cannot be fetched
(`Revision.usable_step`). Without that condition one call is enough to make listing fail
(`speck_breaks_listing`).
-/

namespace Stowage

/-! ## Changes -/

namespace Carton

variable {c : Carton} {name : Json} {dimensions : Attribute Dimensions}
  {maxWeight : Attribute Weight} {supply : Supply} {change : Change}

/-- The parts of a carton, where they are known, are in range. -/
def PartsInRange (dimensions : Attribute Dimensions) (maxWeight : Attribute Weight) : Prop :=
  (∀ d, dimensions = .known d → d.InRange) ∧ ∀ w, maxWeight = .known w → w.value.InRange

theorem known_of_checkDimensions {d : Dimensions} (h : checkDimensions dimensions = .ok d) :
    dimensions = .known d := by
  unfold checkDimensions at h
  split at h
  · split_ifs at h
    · cases h
    · cases h
      rfl
  · cases h

theorem known_of_checkMaxWeight {w : Weight} (h : checkMaxWeight maxWeight = .ok w) :
    maxWeight = .known w := by
  unfold checkMaxWeight at h
  split at h
  · split_ifs at h
    · cases h
    · cases h
      rfl
  · cases h

/-- A carton whose parts were checked is in range when they are. -/
theorem inRange_of_checked {d : Dimensions} {w : Weight} {s : RawText}
    (hparts : PartsInRange dimensions maxWeight) (hd : checkDimensions dimensions = .ok d)
    (hw : checkMaxWeight maxWeight = .ok w)
    (hc : c.name = .text s ∧ c.dimensions = .known d ∧ c.maxWeight = .known w) : c.InRange :=
  ⟨⟨s, hc.1⟩, ⟨d, hc.2.1, hparts.1 d (known_of_checkDimensions hd)⟩,
    w, hc.2.2, hparts.2 w (known_of_checkMaxWeight hw)⟩

theorem inRange_of_create (hparts : PartsInRange dimensions maxWeight)
    (h : create name dimensions maxWeight supply = .ok change) : change.carton.InRange := by
  obtain ⟨s, -, h⟩ := bind_eq_ok.1 h
  obtain ⟨d, hd, h⟩ := bind_eq_ok.1 h
  obtain ⟨w, hw, h⟩ := bind_eq_ok.1 h
  rw [← pure_eq_ok.1 h]
  exact inRange_of_checked hparts hd hw ⟨rfl, rfl, rfl⟩

theorem inRange_of_update (hparts : PartsInRange dimensions maxWeight)
    (h : c.update name dimensions maxWeight supply = .ok change) : change.carton.InRange := by
  obtain ⟨s, -, h⟩ := bind_eq_ok.1 h
  obtain ⟨d, hd, h⟩ := bind_eq_ok.1 h
  obtain ⟨w, hw, h⟩ := bind_eq_ok.1 h
  rw [← pure_eq_ok.1 h]
  exact inRange_of_checked hparts hd hw ⟨rfl, rfl, rfl⟩

theorem InRange.activate (h : c.InRange) (supply : Supply) :
    (c.activate supply).carton.InRange := by
  unfold Carton.activate
  split_ifs
  · exact h
  · exact ⟨h.name, h.dimensions, h.maxWeight⟩

theorem InRange.deactivate (h : c.InRange) (supply : Supply) :
    (c.deactivate supply).carton.InRange := by
  unfold Carton.deactivate
  split_ifs
  · exact ⟨h.name, h.dimensions, h.maxWeight⟩
  · exact h

end Carton

/-- A change that leaves cartons in range. -/
def CartonEdit.KeepsRange (edit : CartonEdit) : Prop :=
  ∀ (c : Carton) (supply : Supply) (change : Carton.Change), c.InRange →
    edit c supply = .ok change → change.carton.InRange

/-! ## Revisions -/

namespace Revision

variable {w w' : Warehouse} {r : Revision} {c : Carton}

/-- What a revision is about to write is in range. -/
def Sound : Revision → Prop
  | .asked _ edit => edit.KeepsRange
  | .fetched c edit => c.InRange ∧ edit.KeepsRange
  | .changed c => c.InRange
  | .written _ | .done _ => True

theorem inRange_of_getCarton {id : String} (hw : w.cartons.Usable) (h : w.getCarton id = .ok c) :
    c.InRange := by
  obtain ⟨found, hfound, h⟩ := bind_eq_ok.1 h
  cases found with
  | none => cases h
  | some c' =>
    cases h
    exact hw.inRange_of_find? hfound

theorem usable_write (hw : w.cartons.Usable) (hc : c.InRange) (h : write w c = .ok w') :
    w'.cartons.Usable := by
  obtain ⟨row, hrow, h⟩ := bind_eq_ok.1 h
  rw [← pure_eq_ok.1 h]
  exact hw.put (StoredCarton.fetchable_ofCarton hc hrow)

/-- **A step of a revision leaves the table usable.** -/
theorem usable_step (hw : w.cartons.Usable) (hr : r.Sound) :
    (r.step w).2.cartons.Usable ∧ (r.step w).1.Sound := by
  cases r with
  | asked id edit =>
    rw [step]
    split
    next c hc => exact ⟨hw, inRange_of_getCarton hw hc, hr⟩
    next => exact ⟨hw, trivial⟩
  | fetched c edit =>
    rw [step]
    split
    next change hchange => exact ⟨hw, hr.2 c w.supply change hr.1 hchange⟩
    next => exact ⟨hw, trivial⟩
  | changed c =>
    rw [step]
    split
    next w' hwrite => exact ⟨usable_write hw hr hwrite, trivial⟩
    next => exact ⟨hw, trivial⟩
  | written c => exact ⟨hw, trivial⟩
  | done outcome => exact ⟨hw, trivial⟩

/-- A revision that is about to write writes and publishes. -/
theorem run_changed (h : write w c = .ok w') : run w (.changed c) = publish w' c := by
  rw [run_step _ _ rfl, step, h]
  dsimp only
  rw [run_step _ _ rfl, step]
  dsimp only
  rw [run_done]

/-- The whole revision leaves the table usable. -/
theorem usable_run (hw : w.cartons.Usable) (hr : r.Sound) : (run w r).2.cartons.Usable := by
  induction w, r using run.induct with
  | case1 w r outcome houtcome =>
    cases r with
    | done => rwa [run_done]
    | _ => simp [outcome?] at houtcome
  | case2 w r houtcome ih =>
    obtain ⟨hw', hr'⟩ := usable_step hw hr
    rw [run_step w r houtcome]
    exact ih hw' hr'

end Revision

/-! ## Calls -/

/-- A call that changes the cartons. -/
inductive CartonCall where
  | create (name : Json) (dimensions : Attribute Dimensions) (maxWeight : Attribute Weight)
  | update (id : String) (name : Json) (dimensions : Attribute Dimensions)
      (maxWeight : Attribute Weight)
  | activate (id : String)
  | deactivate (id : String)

namespace CartonCall

/-- Makes the call. -/
def perform (w : Warehouse) : CartonCall → Fallible Carton × Warehouse
  | .create name dimensions maxWeight => w.createCarton name dimensions maxWeight
  | .update id name dimensions maxWeight => w.revise id (.update name dimensions maxWeight)
  | .activate id => w.revise id .activate
  | .deactivate id => w.revise id .deactivate

/-- The warehouse after calls have been made one after the other. -/
def performAll (w : Warehouse) (calls : List CartonCall) : Warehouse :=
  calls.foldl (fun w call => (call.perform w).2) w

/-- The amounts that the call gives are in range. -/
def InRange : CartonCall → Prop
  | .create _ dimensions maxWeight => Carton.PartsInRange dimensions maxWeight
  | .update _ _ dimensions maxWeight => Carton.PartsInRange dimensions maxWeight
  | .activate _ | .deactivate _ => True

variable {w : Warehouse} {call : CartonCall} {calls : List CartonCall}

theorem usable_perform (hw : w.cartons.Usable) (hcall : call.InRange) :
    (call.perform w).2.cartons.Usable := by
  cases call with
  | create name dimensions maxWeight =>
    rw [perform, Warehouse.createCarton]
    split
    next => exact hw
    next change hchange =>
      exact Revision.usable_run (r := .changed change.carton) hw
        (Carton.inRange_of_create hcall hchange)
  | update id name dimensions maxWeight =>
    exact Revision.usable_run hw fun c supply change _ h => Carton.inRange_of_update hcall h
  | activate id =>
    refine Revision.usable_run hw fun c supply change hc h => ?_
    cases h
    exact hc.activate supply
  | deactivate id =>
    refine Revision.usable_run hw fun c supply change hc h => ?_
    cases h
    exact hc.deactivate supply

theorem usable_performAll (hw : w.cartons.Usable) (hcalls : ∀ call ∈ calls, call.InRange) :
    (performAll w calls).cartons.Usable := by
  induction calls generalizing w with
  | nil => exact hw
  | cons call calls ih =>
    obtain ⟨hcall, hrest⟩ := List.forall_mem_cons.1 hcalls
    exact ih (usable_perform hw hcall) hrest

end CartonCall

open CartonCall

/-- All cartons can be listed and shown, each can be fetched, and the active ones can be put in
order. -/
structure Warehouse.ServesCartons (w : Warehouse) : Prop where
  lists : ∀ activeOnly, ∃ cs, w.cartons.list activeOnly = .ok cs ∧ ∀ c ∈ cs, ∃ v, c.view = .ok v
  sorts : ∃ active sorted, w.cartons.list true = .ok active ∧
    Packing.sortCartons active = .ok sorted
  fetches : ∀ r ∈ w.cartons.rows, ∃ c v, w.getCarton r.id = .ok c ∧ c.view = .ok v

theorem Warehouse.servesCartons_of_usable {w : Warehouse} (hw : w.cartons.Usable) :
    w.ServesCartons := by
  constructor
  · intro activeOnly
    obtain ⟨cs, hcs, hrange⟩ := hw.exists_list activeOnly
    exact ⟨cs, hcs, fun c hc => (hrange c hc).exists_view⟩
  · obtain ⟨active, hactive, hrange⟩ := hw.exists_list true
    obtain ⟨sorted, hsorted⟩ := Packing.exists_sortCartons fun c hc _ => (hrange c hc).sized
    exact ⟨active, sorted, hactive, hsorted⟩
  · intro r hr
    obtain ⟨c, hc, hrange⟩ := hw.exists_find? hr
    obtain ⟨v, hv⟩ := hrange.exists_view
    exact ⟨c, v, bind_eq_ok.2 ⟨some c, hc, rfl⟩, hv⟩

/-- **Cartons stay usable.** Starting without cartons, after any sequence of calls whose amounts are
in range all cartons can be listed, shown and fetched, and the active ones can be put in order. -/
theorem cartons_usable {w : Warehouse} (hempty : w.cartons = .empty) {calls : List CartonCall}
    (hcalls : ∀ call ∈ calls, call.InRange) : (performAll w calls).ServesCartons := by
  have hstart : w.cartons.Usable := hempty ▸ CartonTable.usable_empty
  exact Warehouse.servesCartons_of_usable (usable_performAll hstart hcalls)

/-! ## A crate and a speck -/

/-- A cube in inches that carries a pound, as a call to create it. -/
def createCube (name : String) (side : Amount) : CartonCall :=
  .create (.text name) (.known ⟨side, side, side, .inches⟩)
    (.known ⟨⟨⟨false, 1, 0⟩, Eq.refl true⟩, .pounds⟩)

theorem inRange_createCube {name : String} {side : Amount} (h : side.InRange) :
    (createCube name side).InRange := by
  refine ⟨?_, ?_⟩
  · rintro d ⟨⟩
    exact ⟨h, h, h⟩
  · rintro w ⟨⟩
    norm_num [Amount.InRange, Decimal.toRat, Decimal.signed, Decimal.magnitude]

/-- A crate is created, taken out of use and made active again. -/
def crateCalls : List CartonCall :=
  [createCube "Crate" ⟨⟨false, 2, 0⟩, Eq.refl true⟩, .deactivate (Supply.uuid 1),
    .activate (Supply.uuid 1)]

/-- The crate stays usable. -/
theorem cartons_usable_crate : Warehouse.empty.cartons = .empty ∧
    (∀ call ∈ crateCalls, call.InRange) ∧ (performAll .empty crateCalls).ServesCartons := by
  have hcalls : ∀ call ∈ crateCalls, call.InRange := by
    intro call hcall
    simp only [crateCalls, List.mem_cons, List.not_mem_nil, or_false] at hcall
    rcases hcall with rfl | rfl | rfl
    · apply inRange_createCube
      norm_num [Amount.InRange, Decimal.toRat, Decimal.signed, Decimal.magnitude]
    · trivial
    · trivial
  exact ⟨rfl, hcalls, cartons_usable rfl hcalls⟩

/-- A hundred thousandth of an inch, of which four places show nothing. -/
def tinySide : Amount := ⟨⟨false, 1, -5⟩, Eq.refl true⟩

/-- The speck as it is made. -/
def speck : Carton :=
  Carton.restore (Supply.uuid 1) (.text "Speck")
    (.known ⟨tinySide, tinySide, tinySide, .inches⟩)
    (.known ⟨⟨⟨false, 1, 0⟩, Eq.refl true⟩, .pounds⟩)
    .active (.ofSeconds 1704067200) (.ofSeconds 1704067200)

/-- The speck as it is stored. -/
def storedSpeck : StoredCarton :=
  { id := Supply.uuid 1
    name := .text "Speck"
    length := tinySide.toBinary
    width := tinySide.toBinary
    height := tinySide.toBinary
    lengthUnit := .inches
    maxWeight := Binary64.ofDecimal ⟨false, 1, 0⟩
    weightUnit := .pounds
    status := .active
    createdAt := .ofSeconds 1704067200
    updatedAt := .ofSeconds 1704067200
    encodable := rfl }

theorem create_speck :
    Carton.create (.text "Speck") (.known ⟨tinySide, tinySide, tinySide, .inches⟩)
      (.known ⟨⟨⟨false, 1, 0⟩, Eq.refl true⟩, .pounds⟩) .start =
        .ok ⟨{ speck with pending := [.cartonCreated speck.snapshot] }, ⟨1, 1⟩, .created⟩ := rfl

theorem write_speck (w : Warehouse) (hempty : w.cartons = .empty) (pending : List Event) :
    Revision.write w { speck with pending } = .ok { w with cartons := ⟨[storedSpeck]⟩ } := by
  have hrow : StoredCarton.ofCarton { speck with pending } = .ok storedSpeck := rfl
  rw [Revision.write, hrow, ok_bind, hempty]
  rfl

theorem perform_speck : ((createCube "Speck" tinySide).perform .empty).1 = .ok speck ∧
    ((createCube "Speck" tinySide).perform .empty).2.cartons = ⟨[storedSpeck]⟩ := by
  have hsupply : Warehouse.empty.supply = .start := rfl
  rw [createCube, perform, Warehouse.createCarton, hsupply, create_speck]
  dsimp only
  rw [Revision.run_changed (write_speck _ rfl _)]
  exact ⟨rfl, rfl⟩

/-- A row of which four places show nothing cannot be fetched. -/
theorem toCarton_storedSpeck : storedSpeck.toCarton = .error (.domain (.notPositive .length)) := by
  have hplaces : storedSpeck.length.fourPlaces = .finite ⟨false, 0, -4⟩ := by
    refine Binary64.fourPlaces_of_le (a := tinySide.value) ?_ ?_ <;>
      norm_num [tinySide, Decimal.magnitude]
  have hlength : StoredCarton.amount .length storedSpeck.length =
      .error (.domain (.notPositive .length)) := by
    rw [StoredCarton.amount, hplaces]
    rfl
  simp [StoredCarton.toCarton, StoredCarton.dimensions, hlength]

/-- **One call may make listing fail.** The speck is accepted, and after that no list has a
result. -/
theorem speck_breaks_listing : ((createCube "Speck" tinySide).perform .empty).1 = .ok speck ∧
    ∀ activeOnly, (performAll .empty [createCube "Speck" tinySide]).cartons.list activeOnly =
      .error (.domain (.notPositive .length)) := by
  have hactive : storedSpeck.isActive = true := rfl
  refine ⟨perform_speck.1, fun activeOnly => ?_⟩
  rw [performAll, List.foldl_cons, List.foldl_nil, perform_speck.2]
  cases activeOnly <;>
    simp [CartonTable.list, CartonTable.select, CartonTable.byAge, toCarton_storedSpeck, hactive]

end Stowage
