import Stowage.Carton.Basic

/-!
# Stored cartons

The table of cartons. Sides and weights are stored in binary floating point and come back as
decimals with four places, so a carton that is fetched may differ a little from the one that was
put in, and one whose amounts vanish in four places cannot be fetched any more.
-/

namespace Stowage

/-- A carton as it is stored. -/
structure StoredCarton where
  id : String
  name : Json
  length : Binary64
  width : Binary64
  height : Binary64
  lengthUnit : LengthUnit
  maxWeight : Binary64
  weightUnit : WeightUnit
  status : CartonStatus
  createdAt : Timestamp
  updatedAt : Timestamp
  /-- The name has octets. -/
  encodable : name.isBroken = false

namespace StoredCarton

/-- The stored form of a carton, which needs its dimensions and its weight, and a name that has
octets. -/
def ofCarton (c : Carton) : Fallible StoredCarton := do
  let dimensions ← c.dimensions.get
  let maxWeight ← c.maxWeight.get
  if encodable : c.name.isBroken = false then
    return {
      id := c.id
      name := c.name
      length := dimensions.length.toBinary
      width := dimensions.width.toBinary
      height := dimensions.height.toBinary
      lengthUnit := dimensions.unit
      maxWeight := maxWeight.value.toBinary
      weightUnit := maxWeight.unit
      status := c.status
      createdAt := c.createdAt
      updatedAt := c.updatedAt
      encodable }
  else throw .unencodable

/-- A stored amount with four places. -/
def amount (what : Measured) (x : Binary64) : Fallible Amount := Amount.ofNumeral what x.fourPlaces

/-- The dimensions of a stored carton. -/
def dimensions (r : StoredCarton) : Fallible Dimensions := do
  let length ← amount .length r.length
  let width ← amount .width r.width
  let height ← amount .height r.height
  return ⟨length, width, height, r.lengthUnit⟩

/-- The weight that a stored carton carries. -/
def weight (r : StoredCarton) : Fallible Weight := do
  let value ← amount .weight r.maxWeight
  return ⟨value, r.weightUnit⟩

/-- The carton of a stored form. -/
def toCarton (r : StoredCarton) : Fallible Carton := do
  let dimensions ← r.dimensions
  let maxWeight ← r.weight
  return Carton.restore r.id r.name (.known dimensions) (.known maxWeight) r.status r.createdAt
    r.updatedAt

/-- Whether the carton may be packed into. -/
def isActive (r : StoredCarton) : Bool := r.status == .active

end StoredCarton

/-- The stored cartons, no two with the same id. -/
structure CartonTable where
  rows : List StoredCarton

namespace CartonTable

/-- A table without cartons. -/
def empty : CartonTable := ⟨[]⟩

/-- The stored carton with an id. -/
def row? (t : CartonTable) (id : String) : Option StoredCarton := t.rows.find? fun r => r.id == id

/-- The carton with an id, if there is one. -/
def find? (t : CartonTable) (id : String) : Fallible (Option Carton) :=
  match t.row? id with
  | some r => r.toCarton.map some
  | none => .ok none

/-- The table with a row written: in place of the one with its id, or as a new one. -/
def put (t : CartonTable) (r : StoredCarton) : CartonTable :=
  if (t.row? r.id).isSome then ⟨t.rows.map fun old => if old.id == r.id then r else old⟩
  else ⟨t.rows ++ [r]⟩

/-- Rows in the order in which their cartons were made. -/
def byAge (rows : List StoredCarton) : List StoredCarton :=
  rows.mergeSort fun a b => a.createdAt.micros ≤ b.createdAt.micros

/-- The rows of all cartons or of the active ones. -/
def select (t : CartonTable) (activeOnly : Bool) : List StoredCarton :=
  if activeOnly then t.rows.filter StoredCarton.isActive else t.rows

/-- The cartons, or the active ones, in the order in which they were made. -/
def list (t : CartonTable) (activeOnly : Bool) : Fallible (List Carton) :=
  (byAge (t.select activeOnly)).mapM StoredCarton.toCarton

/-- How many cartons there are, or how many active ones. -/
def count (t : CartonTable) (activeOnly : Bool) : Nat := (t.select activeOnly).length

end CartonTable

end Stowage
