import Stowage.Failure.Checked
import Stowage.Solution.Basic

/-!
# Views

What clients see of cartons, packages and solutions. A view has fields of fixed kinds: text where
the domain may hold any value, and binary floating point where it computes with decimals. Making a
view first works out every figure and then checks the kinds; a value of the wrong kind is reported
with the name of its field.
-/

namespace Stowage

/-- The dimensions in a view. -/
structure DimensionsView where
  length : Binary64
  width : Binary64
  height : Binary64
  unit : String
  deriving DecidableEq

/-- A carton as clients see it. -/
structure CartonView where
  id : String
  name : RawText
  dimensions : DimensionsView
  maxWeight : Binary64
  weightUnit : String
  volume : Binary64
  status : String
  createdAt : Timestamp
  updatedAt : Timestamp
  deriving DecidableEq

/-- A merged line of a package as clients see it. -/
structure PackedItemView where
  sku : RawText
  quantity : Int
  category : RawText
  fragile : Bool
  deriving DecidableEq

/-- A package as clients see it. -/
structure PackageView where
  cartonId : String
  cartonName : RawText
  items : List PackedItemView
  itemCount : Int
  currentWeight : Binary64
  weightUnit : String
  dimensionUnit : String
  usedVolume : Binary64
  cartonVolume : Binary64
  utilization : Binary64
  deriving DecidableEq

/-- A solution as clients see it. -/
structure SolutionView where
  solutionId : String
  requestId : Option RawText
  orderId : Option RawText
  createdAt : Timestamp
  totalPackages : Int
  totalItems : Int
  totalWeight : Binary64
  weightUnit : String
  totalVolume : Binary64
  usedVolume : Binary64
  dimensionUnit : String
  averageUtilization : Binary64
  packages : List PackageView
  deriving DecidableEq

namespace View

/-- A problem with the field of a name. -/
def problem {α : Type} (field : String) (p : Problem) : Checked α :=
  (Checked.refuse p).under (.member field)

/-- A field that has to be text. -/
def text (field : String) : Json → Checked RawText
  | .text s => .ok s
  | _ => problem field .stringType

/-- A field that may be null and otherwise has to be text. -/
def optionalText (field : String) : Json → Checked (Option RawText)
  | .null => .ok none
  | raw => (text field raw).map some

/-- A field that has to be a whole number. -/
def whole (field : String) (raw : Json) : Checked Int :=
  match raw with
  | .float x =>
    match x.toInt? with
    | some i => .ok i
    | none => problem field (if x.isFinite then .intFromFloat else .finiteNumber)
  | raw =>
    match raw.wholeValue? with
    | some i => .ok i
    | none => problem field .intType

/-- A decimal in a view. -/
def figure (d : Decimal) : Binary64 := Binary64.ofDecimal d

end View

/-- Dimensions as clients see them. -/
def Dimensions.view (d : Dimensions) : DimensionsView :=
  ⟨d.length.toBinary, d.width.toBinary, d.height.toBinary, d.unit.name⟩

/-- A carton as clients see it. -/
def Carton.view (c : Carton) : Fallible CartonView := do
  let dimensions ← c.dimensions.get
  let maxWeight ← c.maxWeight.get
  let volume ← Fallible.ofDecimal dimensions.volume
  let name ← Checked.settle (View.text "name" c.name)
  return {
    id := c.id
    name := name
    dimensions := dimensions.view
    maxWeight := maxWeight.value.toBinary
    weightUnit := maxWeight.unit.name
    volume := View.figure volume
    status := c.status.name
    createdAt := c.createdAt
    updatedAt := c.updatedAt }

/-- A merged line as clients see it. -/
def Package.Group.view (g : Package.Group) : Fallible PackedItemView := do
  let (sku, quantity, category) ← Checked.settle (Checked.both (View.text "sku" g.item.sku)
    (Checked.both (View.whole "quantity" g.quantity) (View.text "category" g.item.category)))
  return ⟨sku, quantity, category, g.item.fragile⟩

/-- A package as clients see it. -/
def Package.view (p : Package) : Fallible PackageView := do
  let groups ← p.groups
  let items ← groups.mapM Package.Group.view
  let count ← p.itemCount
  let maxWeight ← p.carton.maxWeight.get
  let dimensions ← p.carton.dimensions.get
  let cartonVolume ← p.cartonVolume
  let utilization ← p.utilization
  let (name, count) ← Checked.settle (Checked.both (View.text "carton_name" p.carton.name)
    (View.whole "item_count" count))
  return {
    cartonId := p.carton.id
    cartonName := name
    items := items
    itemCount := count
    currentWeight := View.figure p.currentWeight
    weightUnit := maxWeight.unit.name
    dimensionUnit := dimensions.unit.name
    usedVolume := View.figure p.usedVolume
    cartonVolume := View.figure cartonVolume
    utilization := View.figure utilization }

/-- A solution as clients see it. -/
def Solution.view (s : Solution) : Fallible SolutionView := do
  let totalItems ← s.totalItems
  let totalWeight ← s.totalWeight
  let totalVolume ← s.totalVolume
  let usedVolume ← s.usedVolume
  let averageUtilization ← s.averageUtilization
  let packages ← s.packages.mapM Package.view
  let (requestId, orderId, totalItems) ← Checked.settle (Checked.both
    (View.optionalText "request_id" s.requestId)
    (Checked.both (View.optionalText "order_id" s.orderId) (View.whole "total_items" totalItems)))
  return {
    solutionId := s.id
    requestId := requestId
    orderId := orderId
    createdAt := s.createdAt
    totalPackages := s.totalPackages
    totalItems := totalItems
    totalWeight := View.figure totalWeight
    weightUnit := reportWeightUnit.name
    totalVolume := View.figure totalVolume
    usedVolume := View.figure usedVolume
    dimensionUnit := reportLengthUnit.name
    averageUtilization := View.figure averageUtilization
    packages := packages }

end Stowage
