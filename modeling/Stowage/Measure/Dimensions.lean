import Stowage.Measure.Amount
import Stowage.Measure.Unit

/-!
# Dimensions

The three sides of a box and their unit. A box fits into another when its sides in order of size
fit one by one, which is to say in some orientation along the axes.
-/

namespace Stowage

/-- The sides of a box. -/
structure Dimensions where
  length : Amount
  width : Amount
  height : Amount
  /-- The unit of the three sides. -/
  unit : LengthUnit
  deriving DecidableEq

namespace Dimensions

/-- Sides and unit from raw values, the first fault in the order length, width, height, unit. -/
def ofRaw (length width height unit : Json) : Fallible Dimensions := do
  let length ← Amount.ofRaw .length length
  let width ← Amount.ofRaw .width width
  let height ← Amount.ofRaw .height height
  let unit ← LengthUnit.ofRaw unit
  return ⟨length, width, height, unit⟩

/-- Sides from decimals. -/
def ofDecimals (length width height : Decimal) (unit : LengthUnit) : Fallible Dimensions := do
  let length ← Amount.ofDecimal .length length
  let width ← Amount.ofDecimal .width width
  let height ← Amount.ofDecimal .height height
  return ⟨length, width, height, unit⟩

/-- The product of the sides, with two places, a half rounded up. -/
def volume (d : Dimensions) : Except Decimal.Signal Decimal := do
  let area ← d.length.value.mul d.width.value
  let product ← area.mul d.height.value
  product.quantize (-2)

/-- The largest side; of equal ones the first. -/
def largestSide (d : Dimensions) : Decimal :=
  Decimal.largest d.length.value d.width.value d.height.value

/-- The sides in increasing order; equal ones keep their order. -/
def sortedSides (d : Dimensions) : List Decimal :=
  [d.length.value, d.width.value, d.height.value].mergeSort Decimal.le

/-- Whether some side is not above zero. -/
def hasNonPositive (d : Dimensions) : Bool :=
  (Decimal.smallest d.length.value d.width.value d.height.value).le .zero

/-- The same box measured in another unit. -/
def convertTo (d : Dimensions) (unit : LengthUnit) : Fallible Dimensions :=
  if unit = d.unit then .ok d
  else do
    let factor := d.unit.factor unit
    let length ← Fallible.ofDecimal (d.length.value.mul factor)
    let width ← Fallible.ofDecimal (d.width.value.mul factor)
    let height ← Fallible.ofDecimal (d.height.value.mul factor)
    ofDecimals length width height unit

/-- Whether the inner sides, one by one, are at most the outer ones. -/
def fitsWithin : List Decimal → List Decimal → Bool
  | i :: inner, o :: outer => i.le o && fitsWithin inner outer
  | _, _ => true

/-- Whether the second box fits into the first in some orientation along the axes. -/
def canContain (outer inner : Dimensions) : Fallible Bool := do
  let inner ← inner.convertTo outer.unit
  return fitsWithin inner.sortedSides outer.sortedSides

/-- Whether two boxes have the same sides in the same unit. -/
def sameAs (a b : Dimensions) : Bool :=
  a.length.value.sameValue b.length.value && a.width.value.sameValue b.width.value &&
    a.height.value.sameValue b.height.value && a.unit == b.unit

/-- The volume by which boxes are put in order: in cubic centimetres, whatever the unit. -/
def sortVolume (d : Dimensions) : Fallible Decimal := do
  let d ← d.convertTo .centimeters
  Fallible.ofDecimal d.volume

/-- The sides as binary floating point numbers, and the unit. -/
def toJson (d : Dimensions) : Json :=
  .object [("length", .float d.length.toBinary), ("width", .float d.width.toBinary),
    ("height", .float d.height.toBinary), ("unit", .text d.unit.name)]

end Dimensions

end Stowage
