import Stowage.Packing.Order

/-!
# Placement

Single pieces are placed one after the other. Each goes into an open package that accepts it, and
into a new one when there is none. Among the open packages either the oldest that accepts the item
is taken or the one with the least volume left, of equal ones the older.
-/

namespace Stowage.Packing

/-- The position of the first package that accepts an item. -/
def firstAccepting (policy : Policy) (item : Item) : List Package → Fallible (Option Nat)
  | [] => .ok none
  | p :: rest => do
    if ← p.accepts item policy then return some 0
    else
      let found ← firstAccepting policy item rest
      return found.map (· + 1)

/-- A package that accepts an item: its position and the volume it has left. -/
structure Candidate where
  position : Nat
  remaining : Decimal

/-- The better of the best candidate so far and a new one. -/
def Candidate.better (best : Option Candidate) (c : Candidate) : Candidate :=
  match best with
  | some b => if c.remaining.lt b.remaining then c else b
  | none => c

/-- The best candidate among packages, of which the first is at `position`. -/
def tightestFrom (policy : Policy) (item : Item) :
    (position : Nat) → Option Candidate → List Package → Fallible (Option Candidate)
  | _, best, [] => .ok best
  | position, best, p :: rest => do
    if ← p.accepts item policy then
      let remaining ← p.remainingVolumeIn .centimeters
      tightestFrom policy item (position + 1) (some (Candidate.better best ⟨position, remaining⟩))
        rest
    else tightestFrom policy item (position + 1) best rest

/-- The position of the package that accepts an item and has the least volume left. -/
def tightestAccepting (policy : Policy) (item : Item) (packages : List Package) :
    Fallible (Option Nat) := do
  let best ← tightestFrom policy item 0 none packages
  return best.map (·.position)

/-- The position of the open package for an item. -/
def choose (policy : Policy) (item : Item) (packages : List Package) : Fallible (Option Nat) :=
  if policy.tightest then tightestAccepting policy item packages
  else firstAccepting policy item packages

/-- Opens a package for an item from the first carton that takes it on its own. -/
def openPackage (policy : Policy) (item : Item) : List Carton → Fallible Package
  | [] => Fallible.refuseShowing item.sku (.infeasible item.sku)
  | c :: rest => do
    if ← c.canFit item.dimensions item.weight then
      if ← (Package.ofCarton c).accepts item policy then return Package.ofCarton c
      else openPackage policy item rest
    else openPackage policy item rest

/-- Adds an item to the package at a position. -/
def addAt (policy : Policy) (item : Item) : Nat → List Package → Fallible (List Package)
  | _, [] => .ok []
  | 0, p :: rest => do
    let p ← p.add item policy
    return p :: rest
  | n + 1, p :: rest => do
    let rest ← addAt policy item n rest
    return p :: rest

/-- Places one item. -/
def place (policy : Policy) (cartons : List Carton) (packages : List Package) (item : Item) :
    Fallible (List Package) := do
  match ← choose policy item packages with
  | some position => addAt policy item position packages
  | none =>
    let fresh ← openPackage policy item cartons
    let filled ← fresh.add item policy
    return packages ++ [filled]

/-- Places items one after the other. -/
def placeAll (policy : Policy) (cartons : List Carton) (items : List Item) :
    Fallible (List Package) :=
  items.foldlM (place policy cartons) []

/-- The packages for a request: its single pieces, the largest first, in active cartons, the
smallest first. -/
def packages (items : List Item) (cartons : List Carton) (policy : Policy) :
    Fallible (List Package) := do
  let units ← sortItems items
  let cartons ← sortCartons cartons
  placeAll policy cartons units

end Stowage.Packing
