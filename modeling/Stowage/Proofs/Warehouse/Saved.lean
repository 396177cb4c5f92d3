import Stowage.Proofs.Warehouse.News

/-!
# What comes back of a saved carton

A carton that is created or updated is shown in an event, and stored. The event shows the row, of
which each amount is the binary64 number nearest to that of the carton (`StoredCarton.Shows`); what
is fetched or listed afterwards has the amounts with four places (`Carton.ComesBackAs`), and all
else as it was (`saved_carton_comes_back`). So an amount of at most four places comes back as it is,
and one of more places does not (`beam_comes_back_longer`).
-/

namespace Stowage

open Decimal

/-! ## Amounts -/

namespace Amount

variable {a a' : Amount} {what : Measured}

/-- A number is what is stored of an amount: the nearest one of the format. From half a unit above
the largest of the format on it is an infinity. -/
structure IsStoredAs (a : Amount) (x : Binary64) : Prop where
  eq_toBinary : x = a.toBinary
  nearest : x.IsNearest a.value.toRat ∨ x = .infinite false ∧ Binary64.bound ≤ a.value.toRat

/-- What comes back of an amount is a number of units of the fourth place. It differs from the
amount by at most half such a unit and the error of binary64. Where the amount has no more than four
places itself, and fewer of their units than `2 ^ 52`, it does not differ. -/
structure ComesBackAs (a a' : Amount) : Prop where
  places : ∃ k : ℕ, a'.value.toRat = k / 10000
  near : |a'.value.toRat - a.value.toRat| ≤ 1 / 20000 + a.value.toRat * 2 ^ (-53 : ℤ)
  exact : ∀ k : ℕ, k < 2 ^ 52 → a.value.toRat = k / 10000 → a'.value.toRat = a.value.toRat

/-- At least one unit of the fourth place, and in the range of binary64. -/
def Storable (a : Amount) : Prop :=
  1 / 10000 ≤ a.value.toRat ∧ a.value.toRat < Binary64.bound

/-- The form of an amount is an infinity, or the nearest number of the format, with an error of at
most half a unit in 53 binary digits or half the least unit there is. -/
theorem toBinary_cases (a : Amount) :
    (a.toBinary = .infinite false ∧ Binary64.bound ≤ a.value.toRat) ∨
      a.toBinary.IsNearest a.value.toRat ∧ ∃ m e h, a.toBinary = .finite false m e h ∧
        |(m : ℚ) * 2 ^ e - a.value.toRat| ≤
          max (a.value.toRat * 2 ^ (-53 : ℤ)) (2 ^ (-1075 : ℤ)) := by
  have hcoeff : a.value.coeff ≠ 0 := fun h => a.toRat_pos.ne' (toRat_eq_zero.2 h)
  have hcases := Binary64.ofDecimal_cases hcoeff
  rwa [a.negative_eq_false, a.magnitude_eq, ← toBinary] at hcases

theorem isStoredAs_toBinary (a : Amount) : a.IsStoredAs a.toBinary :=
  ⟨rfl, a.toBinary_cases.symm.imp_left And.left⟩

theorem toRat_units (c : ℕ) : toRat ⟨false, c, -4⟩ = c / 10000 := by
  norm_num [toRat, signed, magnitude, div_eq_mul_inv]

/-- An amount read with four places is the number of units next to what was stored. -/
theorem units_of_fourPlaces {m : ℕ} {e : ℤ} {hvalid : Binary64.IsMagnitude m e}
    (h : ofNumeral what (Binary64.fourPlaces (.finite false m e hvalid)) = .ok a') :
    ∃ c : ℕ, a'.value.toRat = c / 10000 ∧ |(c : ℚ) - 10000 * (m * 2 ^ e)| ≤ 1 / 2 := by
  have hx : (0 : ℚ) ≤ 10000 * (m * 2 ^ e) := by positivity
  have hle := Rounding.nearest_le_add_half (m := .halfEven) hx
  have hge := Rounding.le_nearest_add_half (m := .halfEven) hx
  rw [Binary64.fourPlaces_finite, ofNumeral] at h
  refine ⟨_, by rw [value_of_ofDecimal h, toRat_units], ?_⟩
  rw [abs_le]
  constructor <;> linarith

/-- A number that is not very small has 53 binary digits next to it. -/
theorem error_of_unit_le {x q : ℚ} (hx : 1 / 20000 ≤ x)
    (h : |x - q| ≤ max (q * 2 ^ (-53 : ℤ)) (2 ^ (-1075 : ℤ))) : |x - q| ≤ q * 2 ^ (-53 : ℤ) := by
  rcases le_or_gt (2 ^ (-100 : ℤ)) q with hq | hq
  · rwa [max_eq_left (Binary64.least_le_mul hq)] at h
  · have hleast : (2 : ℚ) ^ (-1075 : ℤ) ≤ 2 ^ (-100 : ℤ) := Binary64.two_zpow_le (by norm_num)
    have hmax : max (q * 2 ^ (-53 : ℤ)) (2 ^ (-1075 : ℤ)) ≤ 2 ^ (-100 : ℤ) :=
      max_le (by norm_num at hq ⊢; linarith) hleast
    have hfar := (abs_le.1 (h.trans hmax)).2
    norm_num at hfar hq
    linarith

/-- **An amount comes back** as it was, but for its fifth place and those after it. -/
theorem comesBackAs_of_fourPlaces (h : ofNumeral what a.toBinary.fourPlaces = .ok a') :
    a.ComesBackAs a' := by
  obtain ⟨hx, -⟩ | ⟨-, m, e, hvalid, hx, herror⟩ := a.toBinary_cases
  · rw [hx] at h
    cases h
  rw [hx] at h
  obtain ⟨c, hc, hunits⟩ := units_of_fourPlaces h
  generalize (m : ℚ) * 2 ^ e = x at herror hunits
  obtain ⟨hunits, hunits'⟩ := abs_le.1 hunits
  have hone : (1 : ℚ) ≤ c := by
    have hpos := a'.toRat_pos
    rw [hc, div_pos_iff_of_pos_right (by norm_num)] at hpos
    exact_mod_cast hpos
  obtain ⟨herror, herror'⟩ := abs_le.1 (error_of_unit_le (by linarith) herror)
  refine ⟨⟨c, hc⟩, ?_, fun k hk hval => ?_⟩
  · generalize (2 : ℚ) ^ (-53 : ℤ) = digit at *
    rw [hc, abs_le]
    constructor <;> linarith only [hunits, hunits', herror, herror']
  · rw [hval] at herror herror'
    norm_num at herror herror'
    have hk' : (k : ℚ) < 4503599627370496 := by exact_mod_cast hk
    have hlt : (c : ℚ) < k + 1 := by linarith only [hunits', herror', hk']
    have hgt : (k : ℚ) < c + 1 := by linarith only [hunits, herror, hk']
    have heq : c = k := by
      norm_cast at hlt hgt
      omega
    rw [hc, hval, heq]

/-- An amount that is neither too small nor too large can be read again. -/
theorem Storable.exists_fourPlaces (ha : a.Storable) (what : Measured) :
    ∃ a', ofNumeral what a.toBinary.fourPlaces = .ok a' := by
  obtain ⟨-, hlarge⟩ | ⟨-, m, e, hvalid, hx, herror⟩ := a.toBinary_cases
  · exact absurd ha.2 (not_lt.2 hlarge)
  rw [max_eq_left (Binary64.least_le_mul (le_trans (by norm_num) ha.1))] at herror
  obtain ⟨herror, -⟩ := abs_le.1 herror
  have hlow := ha.1
  norm_num at herror hlow
  have hunit : ¬ Rounding.halfEven.nearest (10000 * (m * 2 ^ e)) ≤ 0 := by
    rw [Rounding.nearest_le_iff (by positivity)]
    push_cast
    rintro (h | ⟨h, -⟩) <;> linarith
  rw [hx, Binary64.fourPlaces_finite, ofNumeral]
  obtain ⟨a', ha', -⟩ := exists_ofDecimal what (d := ⟨false, _, -4⟩) (by
    rw [toRat_units]
    have : 0 < Rounding.halfEven.nearest (10000 * (m * 2 ^ e)) := not_le.1 hunit
    positivity)
  exact ⟨a', ha'⟩

end Amount

/-! ## Cartons -/

/-- What comes back of the sides of a box. -/
structure Dimensions.ComesBackAs (d d' : Dimensions) : Prop where
  length : d.length.ComesBackAs d'.length
  width : d.width.ComesBackAs d'.width
  height : d.height.ComesBackAs d'.height
  unit : d'.unit = d.unit

/-- What comes back of a weight. -/
structure Weight.ComesBackAs (m m' : Weight) : Prop where
  value : m.value.ComesBackAs m'.value
  unit : m'.unit = m.unit

namespace Carton

/-- What comes back of a carton: its amounts may change a little, the rest is as it was. -/
structure ComesBackAs (c c' : Carton) : Prop where
  id : c'.id = c.id
  name : c'.name = c.name
  dimensions : ∃ d d', c.dimensions = .known d ∧ c'.dimensions = .known d' ∧ d.ComesBackAs d'
  maxWeight : ∃ m m', c.maxWeight = .known m ∧ c'.maxWeight = .known m' ∧ m.ComesBackAs m'
  status : c'.status = c.status
  createdAt : c'.createdAt = c.createdAt
  updatedAt : c'.updatedAt = c.updatedAt

/-- A carton whose amounts can all be read again. -/
def Storable (c : Carton) : Prop :=
  (∀ d, c.dimensions = .known d → d.length.Storable ∧ d.width.Storable ∧ d.height.Storable) ∧
    ∀ m, c.maxWeight = .known m → m.value.Storable

end Carton

/-! ## Rows -/

namespace StoredCarton

variable {c c' : Carton} {r : StoredCarton}

/-- A row shows a carton: each amount as the number nearest to it, the rest as it is. -/
structure Shows (r : StoredCarton) (c : Carton) : Prop where
  id : r.id = c.id
  name : r.name = c.name
  dimensions : ∃ d, c.dimensions = .known d ∧ d.length.IsStoredAs r.length ∧
    d.width.IsStoredAs r.width ∧ d.height.IsStoredAs r.height ∧ r.lengthUnit = d.unit
  maxWeight : ∃ m, c.maxWeight = .known m ∧ m.value.IsStoredAs r.maxWeight ∧ r.weightUnit = m.unit
  status : r.status = c.status
  createdAt : r.createdAt = c.createdAt
  updatedAt : r.updatedAt = c.updatedAt

theorem shows_ofCarton (h : ofCarton c = .ok r) : r.Shows c := by
  obtain ⟨d, m, _, hd, hm, rfl⟩ := ofCarton_eq_ok.1 h
  exact ⟨rfl, rfl,
    ⟨d, hd, d.length.isStoredAs_toBinary, d.width.isStoredAs_toBinary,
      d.height.isStoredAs_toBinary, rfl⟩,
    ⟨m, hm, m.value.isStoredAs_toBinary, rfl⟩, rfl, rfl, rfl⟩

/-- **A carton comes back from its row** as it was, but for the digits that are not stored. -/
theorem comesBackAs_of_toCarton (h : ofCarton c = .ok r) (h' : r.toCarton = .ok c') :
    c.ComesBackAs c' := by
  obtain ⟨d, m, _, hd, hm, rfl⟩ := ofCarton_eq_ok.1 h
  obtain ⟨d', m', hd', hm', rfl⟩ := toCarton_eq_ok.1 h'
  obtain ⟨length, hlength, hd'⟩ := bind_eq_ok.1 hd'
  obtain ⟨width, hwidth, hd'⟩ := bind_eq_ok.1 hd'
  obtain ⟨height, hheight, hd'⟩ := bind_eq_ok.1 hd'
  obtain ⟨value, hvalue, hm'⟩ := bind_eq_ok.1 hm'
  obtain rfl := pure_eq_ok.1 hd'
  obtain rfl := pure_eq_ok.1 hm'
  have hsides : d.ComesBackAs ⟨length, width, height, d.unit⟩ :=
    ⟨Amount.comesBackAs_of_fourPlaces hlength, Amount.comesBackAs_of_fourPlaces hwidth,
      Amount.comesBackAs_of_fourPlaces hheight, rfl⟩
  have hweight : m.ComesBackAs ⟨value, m.unit⟩ :=
    ⟨Amount.comesBackAs_of_fourPlaces hvalue, rfl⟩
  exact ⟨rfl, rfl, ⟨d, _, hd, rfl, hsides⟩, ⟨m, _, hm, rfl, hweight⟩, rfl, rfl, rfl⟩

/-- A row of amounts that can be read again is fetched. -/
theorem exists_toCarton (hc : c.Storable) (h : ofCarton c = .ok r) :
    ∃ c', r.toCarton = .ok c' := by
  obtain ⟨d, m, _, hd, hm, rfl⟩ := ofCarton_eq_ok.1 h
  obtain ⟨hlength, hwidth, hheight⟩ := hc.1 d hd
  obtain ⟨length, hlength⟩ := hlength.exists_fourPlaces .length
  obtain ⟨width, hwidth⟩ := hwidth.exists_fourPlaces .width
  obtain ⟨height, hheight⟩ := hheight.exists_fourPlaces .height
  obtain ⟨value, hvalue⟩ := (hc.2 m hm).exists_fourPlaces .weight
  refine ⟨_, toCarton_eq_ok.2 ⟨⟨length, width, height, d.unit⟩, ⟨value, m.unit⟩, ?_, ?_, rfl⟩⟩
  · exact bind_eq_ok.2 ⟨length, hlength, bind_eq_ok.2 ⟨width, hwidth,
      bind_eq_ok.2 ⟨height, hheight, rfl⟩⟩⟩
  · exact bind_eq_ok.2 ⟨value, hvalue, rfl⟩

end StoredCarton

/-! ## Calls -/

/-- A carton was saved: it is shown in an event and in a row, and comes back from there. -/
structure Warehouse.Saved (w w' : Warehouse) (kind : String) (c : Carton) : Prop where
  /-- The event shows what the row does. -/
  announced : ∃ r : StoredCarton, r.Shows c ∧ w'.cartons.row? c.id = some r ∧
    w'.outbox = w.outbox.push (r.announcement kind)
  fetched : ∀ c', w'.getCarton c.id = .ok c' → c.ComesBackAs c'
  listed : ∀ activeOnly cs, w'.cartons.list activeOnly = .ok cs → ∀ c' ∈ cs, c'.id = c.id →
    c.ComesBackAs c'
  /-- It is in every list, unless it is out of use and only active cartons are listed. -/
  found : ∀ activeOnly cs, w'.cartons.list activeOnly = .ok cs →
    (activeOnly = true → c.status = .active) → ∃ c' ∈ cs, c'.id = c.id
  fetches : c.Storable → ∃ c', w'.getCarton c.id = .ok c'
  lists : c.Storable → (∀ r ∈ w.cartons.rows, ∃ c', r.toCarton = .ok c') →
    ∀ activeOnly, ∃ cs, w'.cartons.list activeOnly = .ok cs

/-- What is fetched with the id of a row that was written is what that row gives. -/
theorem Warehouse.getCarton_written (w : Warehouse) (r : StoredCarton) (supply : Supply)
    (news : List OutboundEvent) : (w.written r supply news).getCarton r.id = r.toCarton := by
  rw [getCarton, written, CartonTable.find?_of_row? (w.cartons.row?_put r)]
  cases r.toCarton <;> rfl

theorem Warehouse.saved_written {w : Warehouse} {c : Carton} {r : StoredCarton}
    (h : StoredCarton.ofCarton c = .ok r) (supply : Supply) (kind : String) :
    w.Saved (w.written r supply [r.announcement kind]) kind c := by
  have hid : r.id = c.id := (StoredCarton.state_of_ofCarton h).1
  have hstatus : r.status = c.status := (StoredCarton.state_of_ofCarton h).2.2.1
  have hget : (w.written r supply [r.announcement kind]).getCarton c.id = r.toCarton :=
    hid ▸ w.getCarton_written r supply _
  constructor
  · exact ⟨r, StoredCarton.shows_ofCarton h, hid ▸ w.cartons.row?_put r, rfl⟩
  · intro c' hc'
    exact StoredCarton.comesBackAs_of_toCarton h (hget.symm.trans hc')
  · intro activeOnly cs hcs c' hc' hsame
    obtain ⟨q, hq, hload⟩ := (CartonTable.mem_of_list hcs).1 c' hc'
    have hqid : q.id = r.id := by
      obtain ⟨_, _, -, -, rfl⟩ := StoredCarton.toCarton_eq_ok.1 hload
      exact hsame.trans hid.symm
    obtain rfl := CartonTable.eq_of_mem_put (CartonTable.mem_select.1 hq).1 hqid
    exact StoredCarton.comesBackAs_of_toCarton h hload
  · intro activeOnly cs hcs hactive
    have hselect : r ∈ (w.cartons.put r).select activeOnly :=
      CartonTable.mem_select.2 ⟨w.cartons.mem_put r, fun ha => hstatus.trans (hactive ha)⟩
    obtain ⟨c', hc', hload⟩ := (CartonTable.mem_of_list hcs).2 r hselect
    exact ⟨c', hc', (StoredCarton.comesBackAs_of_toCarton h hload).id⟩
  · intro hstorable
    obtain ⟨c', hload⟩ := StoredCarton.exists_toCarton hstorable h
    exact ⟨c', hget.trans hload⟩
  · intro hstorable hothers activeOnly
    refine exists_mapM fun q hq => ?_
    have hmem := (CartonTable.mem_select.1 ((List.mergeSort_perm _ _).mem_iff.1 hq)).1
    rcases CartonTable.mem_or_eq_of_mem_put hmem with hold | rfl
    · exact hothers q hold
    · exact StoredCarton.exists_toCarton hstorable h

namespace CartonCall

/-- The kind of the event that shows a carton as a call saved it. -/
def kind? : CartonCall → Option String
  | .create _ _ _ => some "carton.created"
  | .update _ _ _ _ => some "carton.updated"
  | .activate _ | .deactivate _ => none

end CartonCall

/-- **A carton that was saved comes back.** What a call that creates or updates a carton gives is
shown in the event that it publishes, with the binary64 numbers nearest to its amounts. What is
fetched or listed afterwards has amounts of four places, which differ from those given only where
these have more, and by at most half a unit of the fourth and the error of binary64. -/
theorem saved_carton_comes_back {w : Warehouse} {call : CartonCall} {kind : String} {c : Carton}
    (hkind : call.kind? = some kind) (hc : (call.perform w).1 = .ok c) :
    w.Saved (call.perform w).2 kind c := by
  obtain ⟨news, htells⟩ := call.tells w
  rw [hc] at htells
  generalize (call.perform w).2 = w' at htells
  cases htells with
  | created hname hcarton hrow =>
    cases hkind
    exact Warehouse.saved_written hrow _ _
  | updated hbefore hname hcarton hrow =>
    cases hkind
    exact Warehouse.saved_written hrow _ _
  | deactivated => cases hkind
  | activated => cases hkind
  | settled _ hcall =>
    obtain ⟨rfl, -⟩ | ⟨rfl, -⟩ := hcall <;> cases hkind

/-! ## A crate and a beam -/

/-- The first cube that is made, as the call that makes it gives it. -/
def firstCube (name : String) (side : Amount) : Carton :=
  Carton.restore (Supply.uuid 1) (.text name) (.known ⟨side, side, side, .inches⟩)
    (.known ⟨⟨⟨false, 1, 0⟩, Eq.refl true⟩, .pounds⟩) .active (.ofSeconds 1704067200)
    (.ofSeconds 1704067200)

/-- The call gives that cube and writes its row, when the cube is made. -/
theorem perform_createCube {name : String} {side : Amount} {r : StoredCarton}
    (hcreate : Carton.create (.text name) (.known ⟨side, side, side, .inches⟩)
      (.known ⟨⟨⟨false, 1, 0⟩, Eq.refl true⟩, .pounds⟩) .start =
        .ok ⟨{ firstCube name side with
          pending := [.cartonCreated (firstCube name side).snapshot] }, ⟨1, 1⟩, .created⟩)
    (hrow : StoredCarton.ofCarton (firstCube name side) = .ok r) :
    (createCube name side).perform .empty = (.ok (firstCube name side),
      Warehouse.empty.written r ⟨1, 1⟩ [r.announcement "carton.created"]) := by
  have hsupply : Warehouse.empty.supply = .start := rfl
  rw [createCube, CartonCall.perform, Warehouse.createCarton, hsupply, hcreate]
  dsimp only
  rw [Revision.run_changed_eq _ hrow rfl (Carton.outbound_created hrow)]

/-- A side of two inches. -/
def crateSide : Amount := ⟨⟨false, 2, 0⟩, Eq.refl true⟩

/-- The crate comes back. -/
theorem saved_carton_comes_back_crate :
    (createCube "Crate" crateSide).kind? = some "carton.created" ∧
      ((createCube "Crate" crateSide).perform .empty).1 = .ok (firstCube "Crate" crateSide) ∧
      Warehouse.empty.Saved ((createCube "Crate" crateSide).perform .empty).2 "carton.created"
        (firstCube "Crate" crateSide) := by
  have hc := congrArg Prod.fst (@perform_createCube "Crate" crateSide _ rfl rfl)
  exact ⟨rfl, hc, saved_carton_comes_back rfl hc⟩

/-- A side of 1.23456 inches. -/
def beamSide : Amount := ⟨⟨false, 123456, -5⟩, Eq.refl true⟩

/-- The side of a beam as it comes back. -/
def longerSide : Amount := ⟨⟨false, 12346, -4⟩, Eq.refl true⟩

theorem amount_beamSide (what : Measured) :
    StoredCarton.amount what beamSide.toBinary = .ok longerSide := by
  have hplaces : beamSide.toBinary.fourPlaces = .finite longerSide.value := by decide +kernel
  rw [StoredCarton.amount, hplaces]
  rfl

theorem amount_pound : StoredCarton.amount .weight (Binary64.ofDecimal ⟨false, 1, 0⟩) =
    .ok ⟨⟨false, 10000, -4⟩, Eq.refl true⟩ := by
  have hplaces : (Binary64.ofDecimal ⟨false, 1, 0⟩).fourPlaces = .finite ⟨false, 10000, -4⟩ := by
    decide +kernel
  rw [StoredCarton.amount, hplaces]
  rfl

/-- The beam as it is stored. -/
def storedBeam : StoredCarton :=
  { id := Supply.uuid 1
    name := .text "Beam"
    length := beamSide.toBinary
    width := beamSide.toBinary
    height := beamSide.toBinary
    lengthUnit := .inches
    maxWeight := Binary64.ofDecimal ⟨false, 1, 0⟩
    weightUnit := .pounds
    status := .active
    createdAt := .ofSeconds 1704067200
    updatedAt := .ofSeconds 1704067200
    encodable := rfl }

theorem dimensions_storedBeam :
    storedBeam.dimensions = .ok ⟨longerSide, longerSide, longerSide, .inches⟩ :=
  bind_eq_ok.2 ⟨_, amount_beamSide .length, bind_eq_ok.2 ⟨_, amount_beamSide .width,
    bind_eq_ok.2 ⟨_, amount_beamSide .height, rfl⟩⟩⟩

theorem weight_storedBeam : storedBeam.weight = .ok ⟨⟨⟨false, 10000, -4⟩, Eq.refl true⟩, .pounds⟩ :=
  bind_eq_ok.2 ⟨_, amount_pound, rfl⟩

/-- **Digits may be lost.** A beam of 1.23456 inches is accepted, and fetched as one of 1.2346. -/
theorem beam_comes_back_longer :
    ((createCube "Beam" beamSide).perform .empty).1 = .ok (firstCube "Beam" beamSide) ∧
      (∃ c, ((createCube "Beam" beamSide).perform .empty).2.getCarton
          (firstCube "Beam" beamSide).id = .ok c ∧
        c.dimensions = .known ⟨longerSide, longerSide, longerSide, .inches⟩) ∧
      beamSide.value.toRat < longerSide.value.toRat := by
  have hrow : StoredCarton.ofCarton (firstCube "Beam" beamSide) = .ok storedBeam := rfl
  have hload :=
    StoredCarton.toCarton_eq_ok.2 ⟨_, _, dimensions_storedBeam, weight_storedBeam, rfl⟩
  rw [perform_createCube rfl hrow]
  refine ⟨rfl, ⟨_, (Warehouse.empty.getCarton_written storedBeam _ _).trans hload, rfl⟩, ?_⟩
  norm_num [beamSide, longerSide, toRat, signed, magnitude]

end Stowage
