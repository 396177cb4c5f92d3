import Stowage.Package.Basic

/-!
# Validation of requests

A request is checked as a whole before anything is packed. Every item must have its attributes,
stay within the limits of size and weight, and the request within a number of units; categories
and fragility are checked across the whole request.
-/

namespace Stowage.Validation

/-- The largest side an item may have, in its own unit. -/
def maxSide : Decimal := Decimal.ofNat 1000

/-- The largest weight an item may have, in its own unit. -/
def maxWeight : Decimal := Decimal.ofNat 1000

/-- The largest number of units of a request. -/
def maxUnits : Int := 5000

/-- Whether dimensions are known and positive. -/
def hasDimensions (i : Item) : Bool :=
  match i.dimensions with
  | .known d => !d.hasNonPositive
  | _ => false

/-- Whether the weight is known and positive. -/
def hasWeight (i : Item) : Bool :=
  match i.weight with
  | .known w => !w.isNonPositive
  | _ => false

/-- Whether an item is there and has everything that packing needs. -/
def isUsable : Option Item → Bool
  | none => false
  | some i => i.sku.isWritten && Quantity.isOrderable i.quantity && hasDimensions i && hasWeight i

/-- Checks one item and gives the units it adds. An item that is not usable is named, which fails
when its stock keeping unit cannot be shown. -/
def checkItem (entry : Option Item) : Fallible Int :=
  match entry with
  | none => Fallible.refuse (.invalidRequest (.item .null))
  | some i =>
    if isUsable entry then do
      let d ← i.dimensions.get
      if maxSide.lt d.largestSide then Fallible.refuse (.invalidRequest (.tooLarge i.sku))
      else
        let w ← i.weight.get
        if maxWeight.lt w.value.value then Fallible.refuse (.invalidRequest (.tooHeavy i.sku))
        else Quantity.factor i.quantity
    else Fallible.refuseShowing i.sku (.invalidRequest (.item i.sku))

/-- Checks the items one after the other and gives the units of all. -/
def checkItems (entries : List (Option Item)) : Fallible Int :=
  entries.foldlM (fun units entry => do
    let n ← checkItem entry
    return units + n) 0

/-- Whether all values of a list agree with the first. -/
def allSame {α : Type} (same : α → α → Bool) : List α → Bool
  | [] => true
  | x :: rest => rest.all (same x)

/-- Checks what items have to have in common. Categories are compared as members of a set, which
arrays and objects cannot be. -/
def checkCompatibility (items : List Item) (policy : Policy) : Fallible Unit := do
  if !policy.mixedCategories then
    let categories := items.map (·.category)
    if !categories.all Json.isScalar then throw .wrongKind
    if !allSame Json.same categories then
      Fallible.refuse (.invalidRequest .mixedCategories)
  if policy.separateFragile && !allSame (· == ·) (items.map (·.fragile)) then
    Fallible.refuse (.invalidRequest .mixedFragility)

/-- Checks that a threshold lies above zero and is at most one. -/
def checkThreshold (threshold : Numeral) : Fallible Unit := do
  let positive ← Fallible.ofDecimal (threshold.exceeds Decimal.zero)
  let tooLarge ← Fallible.ofDecimal (threshold.exceeds (Decimal.ofNat 1))
  if !positive || tooLarge then Fallible.refuse (.invalidRequest .threshold)

/-- Checks a request. When there are too many units, it is told how many there are, which fails when
they are too many to be written. -/
def check (items : Option (List (Option Item))) (policy : Option Policy) : Fallible Unit :=
  match items with
  | none | some [] => Fallible.refuse (.invalidRequest .noItems)
  | some entries =>
    match policy with
    | none => Fallible.refuse (.invalidRequest .noPolicy)
    | some policy => do
      checkThreshold policy.threshold
      let units ← checkItems entries
      if maxUnits < units then
        Fallible.refuseShowing (.int units) (.invalidRequest (.tooManyUnits units maxUnits))
      checkCompatibility (entries.filterMap id) policy

/-- Whether two items may share a package as far as the policy goes. An item that is not there
matters only where the policy asks for something of it. -/
def canPackTogether (first second : Option Item) (policy : Policy) : Fallible Bool :=
  if policy.mixedCategories && !policy.separateFragile then .ok true
  else
    match first, second with
    | some first, some second =>
      .ok ((policy.mixedCategories || first.category.same second.category) &&
        (!policy.separateFragile || first.fragile == second.fragile))
    | _, _ => .error .absentValue

/-- Whether the part in use of a total is above a threshold. It is when one of them is not known or
the total is zero. -/
def exceedsThreshold (used total threshold : Option Numeral) : Fallible Bool :=
  match used, total, threshold with
  | some used, some total, some threshold => do
    if ← Fallible.ofDecimal (total.sameValue Decimal.zero) then return true
    else
      let filled ← Fallible.ofDecimal (used.ratio total)
      Fallible.ofDecimal (filled.exceeds threshold)
  | _, _, _ => .ok true

end Stowage.Validation
