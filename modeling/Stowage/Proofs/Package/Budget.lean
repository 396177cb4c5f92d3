import Stowage.Proofs.Measure.Direction
import Stowage.Proofs.Package.Acceptance

/-!
# Weight tests in two directions

A carton is said to fit an item after its own maximum weight was converted to the unit of the item,
and a package accepts the item after the weight of the item was converted to the unit of the carton.
On an empty package the first test lets through nothing that the second refuses
(`converting_the_second_is_laxer`).
-/

namespace Stowage

open Decimal

/-- A number that arithmetic can hold as it is, with at most 28 digits and no overflow. -/
def Decimal.Held (x : ℚ) : Prop := nearest x = x ∧ x < limit

namespace Package

variable {c : Carton} {i : Item} {w m : Weight} {p : Package} {policy : Policy}

/-- Whether with one more item the weight is above what the carton carries. -/
def overloads (p : Package) (i : Item) : Fallible Bool := do
  let weight ← p.weightWith i
  let maxWeight ← p.carton.maxWeight.get
  return maxWeight.value.value.lt weight

theorem overloads_eq_ok {b : Bool} : p.overloads i = .ok b ↔ ∃ s m, p.weightWith i = .ok s ∧
    p.carton.maxWeight = .known m ∧ m.value.value.lt s = b := by
  simp only [overloads, bind_eq_ok, Attribute.get_eq_ok, pure_eq_ok, exists_and_left]

theorem withinWeight_iff : p.WithinWeight i ↔ p.overloads i = .ok false := by
  simp only [WithinWeight, overloads_eq_ok, lt_eq_false_iff]

/-- The weight of an item in the unit of the carton, as long as it needs no rounding. -/
theorem exists_itemWeight_held (hi : i.weight = .known w) (hc : c.maxWeight = .known m)
    (hw : w.Converts m.unit) (hheld : w.unit = m.unit → Held w.value.value.toRat) :
    ∃ w', w.convertTo m.unit = .ok w' ∧ (ofCarton c).itemWeight i = .ok w'.value.value ∧
      Held w'.value.value.toRat := by
  by_cases hu : m.unit = w.unit
  · have hself : w.convertTo m.unit = .ok w := if_pos hu
    exact ⟨w, hself, itemWeight_eq_ok.2 ⟨w, m, w, hi, hc, hself, rfl⟩, hheld hu.symm⟩
  · obtain ⟨w', hw', hval⟩ := Weight.exists_convertTo_of_converts hu hw
    have hpos := mul_pos w.value.toRat_pos (w.unit.factor_pos m.unit)
    refine ⟨w', hw', itemWeight_eq_ok.2 ⟨w, m, w', hi, hc, hw', rfl⟩, ?_, ?_⟩
    · rw [hval, nearest_nearest hpos.le]
    · rw [hval]
      exact nearest_lt_limit hpos (hw hu).2

/-- An empty package compares weights in the unit of the carton. -/
theorem overloads_ofCarton (hi : i.weight = .known w) (hc : c.maxWeight = .known m)
    (hw : w.Converts m.unit) (hheld : w.unit = m.unit → Held w.value.value.toRat) :
    (ofCarton c).overloads i = w.exceedsConverted m := by
  obtain ⟨w', hw', hitem, hself, hlt⟩ := exists_itemWeight_held hi hc hw hheld
  have hpos := w'.value.toRat_pos
  have hzero : zero.toRat + w'.value.value.toRat = w'.value.value.toRat := by
    rw [toRat_zero, zero_add]
  obtain ⟨s, hs, hval⟩ := (add_rounds zero w'.value.value).exists_ok (by
    rwa [hzero, abs_of_pos hpos])
  rw [hzero, rounded_of_nonneg hpos.le, hself] at hval
  have hsame : m.value.value.lt s = m.value.value.lt w'.value.value := by
    rw [Bool.eq_iff_iff, lt_iff, lt_iff, hval]
  have hweight : (ofCarton c).weightWith i = .ok s := weightWith_eq_ok.2 ⟨_, hitem, hs⟩
  rw [overloads_eq_ok.2 ⟨s, m, hweight, hc, rfl⟩, Weight.exceedsConverted, hw', hsame]
  rfl

end Package

/-- **Converting the second operand is laxer than converting the first**, for weights, for boxes and
for the weight of an item in an empty package, whenever the conversions that are needed neither
underflow nor overflow: both tests have an answer, in one unit they agree, what is above a weight or
holds a box in the unit of the second operand is so in the unit of the first as well, and the two
differ only next to each other. A weight in the unit of its carton must not have more than 28
digits. -/
theorem converting_the_second_is_laxer :
    (∀ a b : Weight, a.Converts b.unit → b.Converts a.unit →
      Refines (a.exceedsConverted b) (a.isGreaterThan b) (a.NextTo b)) ∧
    (∀ outer inner : Dimensions, outer.Converts inner.unit → inner.Converts outer.unit →
      Refines (outer.containsConverted inner) (outer.canContain inner) (outer.NextTo inner)) ∧
    ∀ (c : Carton) (i : Item) (w m : Weight), i.weight = .known w → c.maxWeight = .known m →
      w.Converts m.unit → m.Converts w.unit → (w.unit = m.unit → Held w.value.value.toRat) →
        Refines ((Package.ofCarton c).overloads i) (w.isGreaterThan m) (w.NextTo m) := by
  refine ⟨fun a b => Weight.exceedsConverted_refines, fun outer inner =>
    Dimensions.containsConverted_refines, fun c i w m hi hc hw hm hheld => ?_⟩
  rw [Package.overloads_ofCarton hi hc hw hheld]
  exact Weight.exceedsConverted_refines hw hm

/-! ### Next to a kilogram and next to an inch -/

/-- A kilogram. -/
def kilogram : Weight := ⟨⟨⟨false, 1, 0⟩, Eq.refl true⟩, .kilograms⟩

/-- Next to nothing more than a kilogram is in pounds. -/
def overKilogram : Weight := ⟨⟨⟨false, 22046241, -7⟩, Eq.refl true⟩, .pounds⟩

/-- A pound with a digit too many. -/
def longPound : Weight := ⟨⟨⟨false, 10000000000000000000000000006, -28⟩, Eq.refl true⟩, .pounds⟩

/-- The least weight that there is. -/
def grain (unit : WeightUnit) : Weight := ⟨⟨⟨false, 1, -1000026⟩, Eq.refl true⟩, unit⟩

/-- Next to as many kilograms as there can be. -/
def mountain : Weight := ⟨⟨⟨false, 9, 999999⟩, Eq.refl true⟩, .kilograms⟩

/-- A box with three equal sides. -/
def evenBox (side : Amount) (unit : LengthUnit) : Dimensions := ⟨side, side, side, unit⟩

/-- An inch each way. -/
def inchBox : Dimensions := evenBox ⟨⟨false, 1, 0⟩, Eq.refl true⟩ .inches

/-- Next to nothing more than an inch is in centimetres. -/
def overInchBox : Dimensions := evenBox ⟨⟨false, 2540001, -6⟩, Eq.refl true⟩ .centimeters

/-- A carton that holds an inch each way and carries a weight. -/
def carrier (m : Weight) : Carton :=
  Carton.restore "SMALL" (.text "Small") (.known inchBox) (.known m) .active .epoch .epoch

/-- An item of an inch each way. -/
def cargo (w : Weight) : Item :=
  { sku := .text "CUBE"
    quantity := .int 1
    dimensions := .known inchBox
    weight := .known w
    category := unknownCategory
    fragile := false }

attribute [local semireducible] digitCount

theorem kilogram_isGreaterThan : kilogram.isGreaterThan overKilogram = .ok true :=
  eq_ok_of_toOption (by decide)

theorem kilogram_exceedsConverted : kilogram.exceedsConverted overKilogram = .ok false :=
  eq_ok_of_toOption (by decide)

theorem pairwise_evenBox (a : Amount) : [a.value, a.value, a.value].Pairwise (Decimal.le · ·) := by
  simp [Decimal.le_iff]

theorem inchBox_canContain : inchBox.canContain overInchBox = .ok true := by
  have hinner : overInchBox.convertTo .inches =
      .ok (evenBox ⟨⟨false, 9999983937, -10⟩, Eq.refl true⟩ .inches) :=
    eq_ok_of_toOption (by decide)
  exact (Dimensions.canContain_of_pairwise hinner (pairwise_evenBox _) (pairwise_evenBox _)).trans
    (congrArg _ (by decide))

theorem inchBox_containsConverted : inchBox.containsConverted overInchBox = .ok false := by
  have houter : inchBox.convertTo .centimeters =
      .ok (evenBox ⟨⟨false, 254, -2⟩, Eq.refl true⟩ .centimeters) := eq_ok_of_toOption (by decide)
  have hinner : overInchBox.convertTo .centimeters = .ok overInchBox := if_pos rfl
  have hfits : (evenBox ⟨⟨false, 254, -2⟩, Eq.refl true⟩ .centimeters).canContain overInchBox =
      .ok false :=
    (Dimensions.canContain_of_pairwise hinner (pairwise_evenBox _) (pairwise_evenBox _)).trans
      (congrArg _ (by decide))
  exact bind_eq_ok.2 ⟨_, houter, hfits⟩

theorem inRange_kilogram : kilogram.value.InRange := by
  norm_num [Amount.InRange, kilogram, toRat, signed, magnitude]

theorem inRange_overKilogram : overKilogram.value.InRange := by
  norm_num [Amount.InRange, overKilogram, toRat, signed, magnitude]

theorem inRange_inchBox : inchBox.InRange := by
  norm_num [Dimensions.InRange, Amount.InRange, inchBox, evenBox, toRat, signed, magnitude]

theorem inRange_overInchBox : overInchBox.InRange := by
  norm_num [Dimensions.InRange, Amount.InRange, overInchBox, evenBox, toRat, signed, magnitude]

/-- The tests next to a kilogram and next to an inch have answers, and differ in one way only. -/
theorem converting_overKilogram_is_laxer :
    Refines (kilogram.exceedsConverted overKilogram) (kilogram.isGreaterThan overKilogram)
      (kilogram.NextTo overKilogram) ∧
    Refines (inchBox.containsConverted overInchBox) (inchBox.canContain overInchBox)
      (inchBox.NextTo overInchBox) ∧
    Refines ((Package.ofCarton (carrier overKilogram)).overloads (cargo kilogram))
      (kilogram.isGreaterThan overKilogram) (kilogram.NextTo overKilogram) := by
  obtain ⟨hweights, hboxes, hpackages⟩ := converting_the_second_is_laxer
  have hto := Weight.converts_of_inRange inRange_kilogram .pounds
  have hback := Weight.converts_of_inRange inRange_overKilogram .kilograms
  exact ⟨hweights kilogram overKilogram hto hback,
    hboxes inchBox overInchBox (inRange_inchBox.converts _) (inRange_overInchBox.converts _),
    hpackages (carrier overKilogram) (cargo kilogram) kilogram overKilogram rfl rfl hto hback
      (by simp [kilogram, overKilogram])⟩

/-- **It matters which operand is converted**: to a kilogram and a weight next to it in pounds, to
an inch and a box next to it in centimetres, and to a carton that carries that weight and an item of
a kilogram. A grain can be lost in one direction and a mountain overflow in the other, and in one
unit a digit too many matters to an empty package alone. -/
theorem operand_matters :
    (kilogram.isGreaterThan overKilogram = .ok true ∧
      kilogram.exceedsConverted overKilogram = .ok false) ∧
    (inchBox.canContain overInchBox = .ok true ∧
      inchBox.containsConverted overInchBox = .ok false) ∧
    (Package.ofCarton (carrier overKilogram)).overloads (cargo kilogram) = .ok false ∧
    (longPound.isGreaterThan longPound = .ok false ∧
      (Package.ofCarton (carrier longPound)).overloads (cargo longPound) = .ok true) ∧
    ((grain .kilograms).isGreaterThan (grain .pounds) = .refuse (.notPositive .weight) ∧
      (grain .kilograms).exceedsConverted (grain .pounds) = .ok true) ∧
    (mountain.isGreaterThan overKilogram = .ok true ∧
      mountain.exceedsConverted overKilogram = .error (.arithmetic .overflow)) ∧
    ¬ ((∀ a b : Weight, a.isGreaterThan b = .ok true ↔ a.exceedsConverted b = .ok true) ∧
      (∀ outer inner : Dimensions,
        outer.canContain inner = .ok true ↔ outer.containsConverted inner = .ok true) ∧
      ∀ (c : Carton) (i : Item) (w m : Weight), i.weight = .known w → c.maxWeight = .known m →
        (w.isGreaterThan m = .ok true ↔ (Package.ofCarton c).overloads i = .ok true)) := by
  refine ⟨⟨kilogram_isGreaterThan, kilogram_exceedsConverted⟩,
    ⟨inchBox_canContain, inchBox_containsConverted⟩, eq_ok_of_toOption (by decide),
    ⟨eq_ok_of_toOption (by decide), eq_ok_of_toOption (by decide)⟩,
    ⟨rfl, eq_ok_of_toOption (by decide)⟩, ⟨eq_ok_of_toOption (by decide), rfl⟩, fun h => ?_⟩
  cases kilogram_exceedsConverted.symm.trans ((h.1 _ _).1 kilogram_isGreaterThan)

end Stowage
