import Stowage.View.Basic

/-!
# Views as JSON

The JSON form of the views, with member names in camel case and times that end in `Z`.
-/

namespace Stowage

/-- The dimensions of a view as JSON. -/
def DimensionsView.toJson (v : DimensionsView) : Json :=
  .object [("length", .float v.length), ("width", .float v.width), ("height", .float v.height),
    ("unit", .text v.unit)]

/-- A carton's view as JSON. -/
def CartonView.toJson (v : CartonView) : Json :=
  .object [("id", .text v.id), ("name", .text v.name), ("dimensions", v.dimensions.toJson),
    ("maxWeight", .object [("value", .float v.maxWeight), ("unit", .text v.weightUnit)]),
    ("volume", .float v.volume), ("status", .text v.status),
    ("createdAt", .text v.createdAt.viewText), ("updatedAt", .text v.updatedAt.viewText)]

/-- A merged line's view as JSON. -/
def PackedItemView.toJson (v : PackedItemView) : Json :=
  .object [("sku", .text v.sku), ("quantity", .int v.quantity), ("category", .text v.category),
    ("fragile", .bool v.fragile)]

/-- A package's view as JSON. -/
def PackageView.toJson (v : PackageView) : Json :=
  .object [("cartonId", .text v.cartonId), ("cartonName", .text v.cartonName),
    ("items", .array (v.items.map PackedItemView.toJson)), ("itemCount", .int v.itemCount),
    ("currentWeight", .float v.currentWeight), ("weightUnit", .text v.weightUnit),
    ("dimensionUnit", .text v.dimensionUnit), ("usedVolume", .float v.usedVolume),
    ("cartonVolume", .float v.cartonVolume), ("utilization", .float v.utilization)]

/-- A text that may be absent, as JSON. -/
def Json.ofOption : Option RawText → Json
  | some s => .text s
  | none => .null

/-- A solution's view as JSON. -/
def SolutionView.toJson (v : SolutionView) : Json :=
  .object [("solutionId", .text v.solutionId), ("requestId", .ofOption v.requestId),
    ("orderId", .ofOption v.orderId), ("createdAt", .text v.createdAt.viewText),
    ("totalPackages", .int v.totalPackages), ("totalItems", .int v.totalItems),
    ("totalWeight", .float v.totalWeight), ("weightUnit", .text v.weightUnit),
    ("totalVolume", .float v.totalVolume), ("usedVolume", .float v.usedVolume),
    ("dimensionUnit", .text v.dimensionUnit),
    ("averageUtilization", .float v.averageUtilization),
    ("packages", .array (v.packages.map PackageView.toJson))]

end Stowage
