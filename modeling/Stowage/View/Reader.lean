import Stowage.View.Json

/-!
# Reading views

How the view of a solution is read back from its JSON form. Every member has to be of the kind that
views are written with, and nothing is converted; a text that may be absent is null then.
-/

namespace Stowage

namespace Json

/-- The number, when the value is in binary floating point. -/
def float? : Json → Option Binary64
  | .float x => some x
  | _ => none

/-- The truth value, when the value is one. -/
def bool? : Json → Option Bool
  | .bool b => some b
  | _ => none

/-- The text, when the value is one of characters. -/
def wholeText? (raw : Json) : Option String := raw.text?.bind RawText.whole?

/-- The text, or nothing for null. -/
def optionalText? : Json → Option (Option RawText)
  | .null => some none
  | .text s => some (some s)
  | _ => none

/-- The time that a text stands for. -/
def time? (raw : Json) : Option Timestamp := raw.wholeText?.bind Timestamp.ofText?

/-- The items of an array, each read in the same way. -/
def itemsOf? {α : Type} (read : Json → Option α) (raw : Json) : Option (List α) :=
  raw.items?.bind fun items => items.mapM read

end Json

/-- Reads a merged line. -/
def PackedItemView.ofJson? (raw : Json) : Option PackedItemView := do
  let sku ← (raw.field "sku").text?
  let quantity ← (raw.field "quantity").int?
  let category ← (raw.field "category").text?
  let fragile ← (raw.field "fragile").bool?
  return ⟨sku, quantity, category, fragile⟩

/-- Reads a package. -/
def PackageView.ofJson? (raw : Json) : Option PackageView := do
  let cartonId ← (raw.field "cartonId").wholeText?
  let cartonName ← (raw.field "cartonName").text?
  let items ← (raw.field "items").itemsOf? PackedItemView.ofJson?
  let itemCount ← (raw.field "itemCount").int?
  let currentWeight ← (raw.field "currentWeight").float?
  let weightUnit ← (raw.field "weightUnit").wholeText?
  let dimensionUnit ← (raw.field "dimensionUnit").wholeText?
  let usedVolume ← (raw.field "usedVolume").float?
  let cartonVolume ← (raw.field "cartonVolume").float?
  let utilization ← (raw.field "utilization").float?
  return ⟨cartonId, cartonName, items, itemCount, currentWeight, weightUnit, dimensionUnit,
    usedVolume, cartonVolume, utilization⟩

/-- Reads a solution. -/
def SolutionView.ofJson? (raw : Json) : Option SolutionView := do
  let solutionId ← (raw.field "solutionId").wholeText?
  let requestId ← (raw.field "requestId").optionalText?
  let orderId ← (raw.field "orderId").optionalText?
  let createdAt ← (raw.field "createdAt").time?
  let totalPackages ← (raw.field "totalPackages").int?
  let totalItems ← (raw.field "totalItems").int?
  let totalWeight ← (raw.field "totalWeight").float?
  let weightUnit ← (raw.field "weightUnit").wholeText?
  let totalVolume ← (raw.field "totalVolume").float?
  let usedVolume ← (raw.field "usedVolume").float?
  let dimensionUnit ← (raw.field "dimensionUnit").wholeText?
  let averageUtilization ← (raw.field "averageUtilization").float?
  let packages ← (raw.field "packages").itemsOf? PackageView.ofJson?
  return ⟨solutionId, requestId, orderId, createdAt, totalPackages, totalItems, totalWeight,
    weightUnit, totalVolume, usedVolume, dimensionUnit, averageUtilization, packages⟩

end Stowage
