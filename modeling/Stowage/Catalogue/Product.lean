import Stowage.Item.Basic

/-!
# Products

What the catalogue knows of a product. An entry must name the product, its dimensions and its
weight; a name or category that counts as nothing is made good, and every other member is taken as
it is.
-/

namespace Stowage

/-- A member that has to be there. -/
def Json.required (value : Json) (name : String) : Fallible Json :=
  match value with
  | .object members =>
    match Json.member? members name with
    | some v => .ok v
    | none => .error .missingMember
  | _ => .error .wrongKind

/-- The value itself when it counts as true, and another one otherwise. -/
def Json.orElse (value other : Json) : Json := if value.truthy then value else other

/-- A product of the catalogue. -/
structure Product where
  sku : Json
  name : Json
  dimensions : Dimensions
  weight : Weight
  category : Json
  fragile : Bool
  active : Bool
  description : Json
  barcode : Json

namespace Product

/-- Dimensions of which every part has to be there. -/
def dimensionsOf (raw : Json) : Fallible Dimensions := do
  let length ← raw.required "length"
  let width ← raw.required "width"
  let height ← raw.required "height"
  let unit ← raw.required "unit"
  Dimensions.ofRaw length width height unit

/-- A weight of which every part has to be there. -/
def weightOf (raw : Json) : Fallible Weight := do
  let value ← raw.required "value"
  let unit ← raw.required "unit"
  Weight.ofRaw value unit

/-- The product that an entry describes. -/
def ofJson (entry : Json) : Fallible Product := do
  let dimensions ← entry.required "dimensions"
  let weight ← entry.required "weight"
  let sku ← entry.required "sku"
  let dimensions ← dimensionsOf dimensions
  let weight ← weightOf weight
  return {
    sku := sku
    name := (entry.field "name").orElse sku
    dimensions := dimensions
    weight := weight
    category := (entry.field "category").orElse unknownCategory
    fragile := ((entry.field? "fragile").getD (.bool false)).truthy
    active := ((entry.field? "active").getD (.bool true)).truthy
    description := entry.field "description"
    barcode := entry.field "barcode" }

/-- So many pieces of the product as an item. -/
def toItem (p : Product) (quantity : Json) : Item :=
  ⟨p.sku, quantity, .known p.dimensions, .known p.weight, p.category, p.fragile⟩

end Product

end Stowage
