import Stowage.Settings
import Stowage.Warehouse.Basic

/-!
# Opening a warehouse

A warehouse without cartons is given three usual ones when it is opened, of which no one is told.
-/

namespace Stowage

namespace Warehouse

/-- The usual cartons: a name, sides in inches and a weight in pounds. -/
def usualCartons : List (String × (Nat × Nat × Nat) × Nat) :=
  [("Small Box", (8, 6, 4), 10), ("Medium Box", (12, 10, 8), 25), ("Large Box", (18, 14, 12), 40)]

/-- Adds one of the usual cartons. -/
def addUsual (w : Warehouse) (entry : String × (Nat × Nat × Nat) × Nat) : Fallible Warehouse := do
  let (name, (length, width, height), weight) := entry
  let dimensions ← Dimensions.ofDecimals (.ofNat length) (.ofNat width) (.ofNat height) .inches
  let maxWeight ← Weight.ofDecimal (.ofNat weight) .pounds
  let change ← Carton.create (.text name) (.known dimensions) (.known maxWeight) w.supply
  let row ← StoredCarton.ofCarton change.carton
  return { w with cartons := w.cartons.put row, supply := change.supply }

/-- The warehouse as it is after the program has started. -/
def opened (w : Warehouse) (settings : Settings) : Fallible Warehouse :=
  if settings.seedCartons && w.cartons.count false == 0 then usualCartons.foldlM addUsual w
  else .ok w

end Warehouse

end Stowage
