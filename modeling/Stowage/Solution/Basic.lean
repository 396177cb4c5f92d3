import Stowage.Packing.Placement

/-!
# Solutions

A solution is the packages of one calculation with an identity and a time. Its figures are derived
from the packages, and those that add up several packages are in pounds and inches whatever the
cartons use.
-/

namespace Stowage

/-- The unit of a solution's weight. -/
def reportWeightUnit : WeightUnit := .pounds

/-- The unit of a solution's volumes. -/
def reportLengthUnit : LengthUnit := .inches

/-- The packages of one calculation. -/
structure Solution where
  id : String
  packages : List Package
  createdAt : Timestamp
  requestId : Json
  orderId : Json

namespace Solution

/-- Makes a solution, with a new identifier unless one is given. -/
def create (packages : List Package) (id : Option String) (supply : Supply) : Solution × Supply :=
  let (id, supply) := match id with
    | some id => (id, supply)
    | none =>
      let (serial, supply) := supply.newId
      ("sol-" ++ Supply.serial serial, supply)
  let (now, supply) := supply.now
  (⟨id, packages, now, .null, .null⟩, supply)

/-- The sum of a figure over the packages, from zero and from left to right. -/
def sumOver (s : Solution) (figure : Package → Fallible Decimal) : Fallible Decimal :=
  s.packages.foldlM (fun total p => do
    let x ← figure p
    Fallible.ofDecimal (total.add x)) .zero

/-- How many packages there are. -/
def totalPackages (s : Solution) : Nat := s.packages.length

/-- How many pieces are packed. -/
def totalItems (s : Solution) : Fallible Json := do
  let counts ← s.packages.mapM Package.itemCount
  Quantity.total counts

/-- The weight of all packages. -/
def totalWeight (s : Solution) : Fallible Decimal := s.sumOver (·.weightIn reportWeightUnit)

/-- The volume of all cartons. -/
def totalVolume (s : Solution) : Fallible Decimal := s.sumOver (·.cartonVolumeIn reportLengthUnit)

/-- The volume in use in all cartons. -/
def usedVolume (s : Solution) : Fallible Decimal := s.sumOver (·.usedVolumeIn reportLengthUnit)

/-- The mean utilization of the packages, zero when there are none. -/
def averageUtilization (s : Solution) : Fallible Decimal :=
  if s.packages.isEmpty then .ok .zero
  else do
    let total ← s.sumOver Package.utilization
    Fallible.ofDecimal (total.ratio (Decimal.ofNat s.packages.length))

/-- All items, package by package. -/
def allItems (s : Solution) : List Item := s.packages.flatMap (·.items)

/-- Whether every package is empty. -/
def isEmpty (s : Solution) : Bool := s.packages.all Package.isEmpty

/-- What is told of the solution when it has been calculated. -/
def calculatedEvent (s : Solution) : Fallible Event := do
  let totalWeight ← s.totalWeight
  let averageUtilization ← s.averageUtilization
  return .solutionCalculated
    { solutionId := .text s.id
      requestId := s.requestId
      orderId := s.orderId
      packageCount := .int s.totalPackages
      totalWeight := totalWeight
      weightUnit := .text reportWeightUnit.name
      averageUtilization := averageUtilization
      occurredOn := s.createdAt }

/-- The solution in one line. -/
def summary (s : Solution) : String :=
  "PackingSolution(id=" ++ Text.quoted s.id ++ ", packages=" ++ toString s.totalPackages ++ ")"

end Solution

/-- Packs items into cartons. A failure to pack leaves the supply as it was; once the packages are
made, the solution has taken its identifier and time even if its figures turn out to have no
value. -/
def pack (items : List Item) (cartons : List Carton) (policy : Policy) (supply : Supply) :
    Fallible Solution × Supply :=
  match Packing.packages items cartons policy with
  | .error f => (.error f, supply)
  | .ok packages =>
    let (solution, supply) := Solution.create packages none supply
    (solution.averageUtilization.map fun _ => solution, supply)

end Stowage
