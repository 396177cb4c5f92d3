import Stowage.Item.Attribute
import Stowage.Item.Quantity

/-!
# Items

An order line says how many pieces of a stock keeping unit are wanted. An item is such a line with
the attributes of one piece. Order lines are checked when they are made; items are not, and it is
for the validation of a request to say whether an item is usable.
-/

namespace Stowage

/-- Whether a raw value is a text with something in it. -/
def Json.isWritten : Json → Bool
  | .text s => !s.isBlank
  | _ => false

/-- An order line. -/
structure OrderLine where
  sku : RawText
  quantity : Nat
  /-- The stock keeping unit is named. -/
  named : sku.isBlank = false
  /-- Something is ordered. -/
  positive : 0 < quantity

/-- An order line from raw values. -/
def OrderLine.ofRaw (sku quantity : Json) : Fallible OrderLine :=
  match sku, quantity with
  | .text s, .int q =>
    if hs : s.isBlank = false then
      if hq : 0 < q.toNat then .ok ⟨s, q.toNat, hs, hq⟩
      else .refuse (.invalidRequest .quantity)
    else .refuse (.invalidRequest .blankSku)
  | sku, _ => .refuse (.invalidRequest (if sku.isWritten then .quantity else .blankSku))

/-- An order line from an object. -/
def OrderLine.ofObject (raw : Json) : Fallible OrderLine :=
  OrderLine.ofRaw (raw.field "sku") (raw.field "quantity")

/-- The category of items that have none. -/
def unknownCategory : Json := .text "UNKNOWN"

/-- A line of a request with the attributes of a single piece. -/
structure Item where
  sku : Json
  quantity : Json
  dimensions : Attribute Dimensions
  weight : Attribute Weight
  category : Json
  fragile : Bool

namespace Item

/-- An item from an object. The dimensions are read before the weight; a line without a quantity is
a single piece. -/
def ofObject (raw : Json) : Fallible Item := do
  let dimensions ← Attribute.ofRaw Dimensions.ofObject (raw.field "dimensions")
  let weight ← Attribute.ofRaw Weight.ofObject (raw.field "weight")
  let fragile := match raw.field "fragile" with
    | .bool true => true
    | _ => false
  return ⟨raw.field "sku", (raw.field? "quantity").getD (.int 1), dimensions, weight,
    (raw.field? "category").getD unknownCategory, fragile⟩

/-- An item from a raw value, of which null is none. -/
def ofRaw? : Json → Fallible (Option Item)
  | .null => .ok none
  | raw => (ofObject raw).map some

/-- The volume of all pieces. -/
def totalVolume (i : Item) : Fallible Decimal := do
  let d ← i.dimensions.get
  let volume ← Fallible.ofDecimal d.volume
  let count ← Quantity.factor i.quantity
  Fallible.ofDecimal (volume.mul (Decimal.ofInt count))

/-- The weight of all pieces. -/
def totalWeight (i : Item) : Fallible Weight := do
  let w ← i.weight.get
  let count ← Quantity.factor i.quantity
  w.times count

/-- The same item as a single piece. -/
def single (i : Item) : Item := { i with quantity := .int 1 }

/-- The line as single pieces. A line of one is left as it is. -/
def units (i : Item) : Fallible (List Item) :=
  if Quantity.isOne i.quantity then .ok [i]
  else do
    let n ← Quantity.unitCount i.quantity
    return List.replicate n i.single

/-- The volume by which an item is put in order. -/
def sortVolume (i : Item) : Fallible Decimal := do
  let d ← i.dimensions.get
  d.sortVolume

/-- The item in a listing. -/
def toJson (i : Item) : Fallible Json := do
  let dimensions ← i.dimensions.toJson Dimensions.toJson
  let weight ← i.weight.toJson Weight.toJson
  return .object [("sku", i.sku), ("quantity", i.quantity), ("dimensions", dimensions),
    ("weight", weight), ("category", i.category), ("fragile", .bool i.fragile)]

end Item

end Stowage
