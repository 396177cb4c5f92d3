import Stowage.Carton.Basic
import Stowage.Packing.Policy

/-!
# Packages

A package is a carton and the items put into it. Only the total weight and volume are kept, in the
units of the carton, and not where the items lie. Items are only ever added, and only while the
package accepts them.
-/

namespace Stowage

/-- A quotient with four places, a half rounded away from zero. -/
def Decimal.ratio (numerator denominator : Decimal) : Except Signal Decimal := do
  let q ← numerator.div denominator
  q.quantize (-4)

/-- A quotient of numerals with four places, a half rounded away from zero. -/
def Numeral.ratio (numerator denominator : Numeral) : Except Decimal.Signal Numeral := do
  let q ← numerator.div denominator
  q.quantize (-4)

/-- A carton that is being filled. -/
structure Package where
  carton : Carton
  /-- The items, in the order in which they were put in. -/
  items : List Item
  /-- The weight of the items, in the unit of the carton. -/
  currentWeight : Decimal
  /-- The volume of the items, in the unit of the carton. -/
  usedVolume : Decimal

namespace Package

/-- An empty package. -/
def ofCarton (carton : Carton) : Package := ⟨carton, [], .zero, .zero⟩

/-- The volume of the carton. -/
def cartonVolume (p : Package) : Fallible Decimal := do
  let d ← p.carton.dimensions.get
  Fallible.ofDecimal d.volume

/-- The weight of one piece of an item, in the unit of the carton. -/
def itemWeight (p : Package) (i : Item) : Fallible Decimal := do
  let w ← i.weight.get
  let maxWeight ← p.carton.maxWeight.get
  let w ← w.convertTo maxWeight.unit
  return w.value.value

/-- The volume of one piece of an item, in the unit of the carton. -/
def itemVolume (p : Package) (i : Item) : Fallible Decimal := do
  let d ← i.dimensions.get
  let outer ← p.carton.dimensions.get
  let d ← d.convertTo outer.unit
  Fallible.ofDecimal d.volume

/-- The weight the package would have with one more item. -/
def weightWith (p : Package) (i : Item) : Fallible Decimal := do
  let w ← p.itemWeight i
  Fallible.ofDecimal (p.currentWeight.add w)

/-- The volume in use with one more item. -/
def volumeWith (p : Package) (i : Item) : Fallible Decimal := do
  let v ← p.itemVolume i
  Fallible.ofDecimal (p.usedVolume.add v)

/-- Whether the policy lets an item lie next to those in the package. -/
def allowsBeside (p : Package) (i : Item) (policy : Policy) : Bool :=
  (!policy.separateFragile || p.items.all fun other => other.fragile == i.fragile) &&
    (policy.mixedCategories || p.items.all fun other => other.category.same i.category)

/-- Whether the package accepts an item: it fits into the carton, the weight stays within what the
carton carries, the volume within the threshold, and the policy lets it lie with the others. -/
def accepts (p : Package) (i : Item) (policy : Policy) : Fallible Bool := do
  if !(← p.carton.canFit i.dimensions i.weight) then return false
  else
    let weight ← p.weightWith i
    let maxWeight ← p.carton.maxWeight.get
    if maxWeight.value.value.lt weight then return false
    else
      let cartonVolume ← p.cartonVolume
      if cartonVolume.le .zero then return false
      else
        let used ← p.volumeWith i
        let filled ← Fallible.ofDecimal (used.ratio cartonVolume)
        if ← Fallible.ofDecimal (Numeral.exceeds filled policy.threshold) then return false
        else return p.allowsBeside i policy

/-- Puts an item into the package, if the package accepts it. -/
def add (p : Package) (i : Item) (policy : Policy) : Fallible Package := do
  if ← p.accepts i policy then
    let weight ← p.weightWith i
    let used ← p.volumeWith i
    return { p with items := p.items ++ [i], currentWeight := weight, usedVolume := used }
  else Fallible.refuseShowing i.sku (.constraint i.sku)

/-- The part of the carton's volume in use. -/
def utilization (p : Package) : Fallible Decimal := do
  let volume ← p.cartonVolume
  if volume.isZero then return .zero
  else Fallible.ofDecimal (p.usedVolume.ratio volume)

/-- The volume that is left. -/
def remainingVolume (p : Package) : Fallible Decimal := do
  let volume ← p.cartonVolume
  Fallible.ofDecimal (volume.sub p.usedVolume)

/-- The weight that can still be added. -/
def remainingWeight (p : Package) : Fallible Decimal := do
  let maxWeight ← p.carton.maxWeight.get
  Fallible.ofDecimal (maxWeight.value.value.sub p.currentWeight)

/-- The weight in a unit of choice. -/
def weightIn (p : Package) (unit : WeightUnit) : Fallible Decimal := do
  let maxWeight ← p.carton.maxWeight.get
  Fallible.ofDecimal (p.currentWeight.mul (maxWeight.unit.factor unit))

/-- A volume of the package in a unit of choice. -/
def volumeIn (p : Package) (volume : Decimal) (unit : LengthUnit) : Fallible Decimal := do
  let d ← p.carton.dimensions.get
  Fallible.ofDecimal (LengthUnit.convertVolume volume d.unit unit)

/-- The volume in use, in a unit of choice. -/
def usedVolumeIn (p : Package) (unit : LengthUnit) : Fallible Decimal :=
  p.volumeIn p.usedVolume unit

/-- The volume of the carton, in a unit of choice. -/
def cartonVolumeIn (p : Package) (unit : LengthUnit) : Fallible Decimal := do
  let volume ← p.cartonVolume
  p.volumeIn volume unit

/-- The volume that is left, in a unit of choice. -/
def remainingVolumeIn (p : Package) (unit : LengthUnit) : Fallible Decimal := do
  let volume ← p.remainingVolume
  p.volumeIn volume unit

/-- Whether nothing has been put in. -/
def isEmpty (p : Package) : Bool := p.items.isEmpty

/-- How many pieces are in the package. -/
def itemCount (p : Package) : Fallible Json := Quantity.total (p.items.map (·.quantity))

/-- Whether some item is fragile. -/
def isFragile (p : Package) : Bool := p.items.any (·.fragile)

/-- A merged line: the first item of a stock keeping unit and the quantity of all of them. -/
structure Group where
  item : Item
  quantity : Json

/-- The groups with one more item. -/
def addToGroups (i : Item) : List Group → Fallible (List Group)
  | [] => do
    let quantity ← Quantity.plus (.int 0) i.quantity
    return [⟨i, quantity⟩]
  | g :: rest =>
    if g.item.sku.same i.sku then do
      let quantity ← Quantity.plus g.quantity i.quantity
      return { g with quantity } :: rest
    else do
      let rest ← addToGroups i rest
      return g :: rest

/-- The groups after one more item, whose stock keeping unit must be a scalar. -/
def groupStep (groups : List Group) (i : Item) : Fallible (List Group) :=
  if i.sku.isScalar then addToGroups i groups else .error .wrongKind

/-- The items merged by stock keeping unit, in the order in which each first came. -/
def groups (p : Package) : Fallible (List Group) := p.items.foldlM groupStep []

/-- The package in one line. -/
def summary (p : Package) : Fallible String := do
  let count ← p.itemCount
  let utilization ← p.utilization
  return "Package(carton=" ++ p.carton.name.literal ++ ", items=" ++ count.literal ++
    ", utilization=" ++ utilization.text ++ ")"

end Package

end Stowage
