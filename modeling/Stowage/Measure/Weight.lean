import Stowage.Measure.Amount
import Stowage.Measure.Unit

/-!
# Weights

A positive weight and its unit. Weights in different units are compared in the unit of the first.
-/

namespace Stowage

/-- A weight. -/
structure Weight where
  value : Amount
  /-- The unit of the value. -/
  unit : WeightUnit
  deriving DecidableEq

namespace Weight

/-- Value and unit from raw values, a fault in the value before one in the unit. -/
def ofRaw (value unit : Json) : Fallible Weight := do
  let value ← Amount.ofRaw .weight value
  let unit ← WeightUnit.ofRaw unit
  return ⟨value, unit⟩

/-- A weight from a decimal. -/
def ofDecimal (value : Decimal) (unit : WeightUnit) : Fallible Weight := do
  let value ← Amount.ofDecimal .weight value
  return ⟨value, unit⟩

/-- The same weight in another unit. -/
def convertTo (w : Weight) (unit : WeightUnit) : Fallible Weight :=
  if unit = w.unit then .ok w
  else do
    let value ← Fallible.ofDecimal (w.value.value.mul (w.unit.factor unit))
    ofDecimal value unit

/-- Whether the first weight is above the second. -/
def isGreaterThan (w other : Weight) : Fallible Bool := do
  let other ← other.convertTo w.unit
  return other.value.value.lt w.value.value

/-- The weight of several pieces. -/
def times (w : Weight) (count : Int) : Fallible Weight := do
  let value ← Fallible.ofDecimal (w.value.value.mul (Decimal.ofInt count))
  ofDecimal value w.unit

/-- Whether the value is not above zero. -/
def isNonPositive (w : Weight) : Bool := w.value.value.le .zero

/-- Whether two weights have the same value in the same unit. -/
def sameAs (a b : Weight) : Bool :=
  a.value.value.sameValue b.value.value && a.unit == b.unit

/-- The value as a binary floating point number, and the unit. -/
def toJson (w : Weight) : Json :=
  .object [("value", .float w.value.toBinary), ("unit", .text w.unit.name)]

end Weight

end Stowage
