import Stowage.Package.Basic

/-!
# Orders of items and cartons

Items are packed from the largest single piece to the smallest, and cartons are tried from the
smallest to the largest. Both orders go by volume in cubic centimetres and leave equal volumes in
the order in which they were given.
-/

namespace Stowage.Packing

/-- Things beside the volume they are ordered by. -/
abbrev Keyed (α : Type) := List (Decimal × α)

/-- Things beside their volumes. -/
def keyed {α : Type} (volume : α → Fallible Decimal) (xs : List α) : Fallible (Keyed α) :=
  xs.mapM fun x => do
    let v ← volume x
    return (v, x)

/-- The single pieces of all items. -/
def allUnits : List Item → Fallible (List Item)
  | [] => .ok []
  | i :: rest => do
    let units ← i.units
    let others ← allUnits rest
    return units ++ others

/-- The single pieces of all items, the largest first. -/
def sortItems (items : List Item) : Fallible (List Item) := do
  let units ← allUnits items
  let units ← keyed Item.sortVolume units
  return (units.mergeSort fun a b => b.1.le a.1).map (·.2)

/-- The volume by which a carton is put in order. -/
def cartonVolume (c : Carton) : Fallible Decimal := do
  let d ← c.dimensions.get
  d.sortVolume

/-- The active cartons, the smallest first. -/
def sortCartons (cartons : List Carton) : Fallible (List Carton) := do
  let cartons ← keyed cartonVolume (cartons.filter Carton.isActive)
  return (cartons.mergeSort fun a b => a.1.le b.1).map (·.2)

end Stowage.Packing
