import Stowage.Event.Basic
import Stowage.Item.Basic
import Stowage.Time.Supply

/-!
# Cartons

A carton is a kind of box that packages are opened from. A new carton is checked; one that is
brought back from a store is taken as it is. Every change that takes effect reads the clock, and
all but an activation leave an event with the carton until the events are pulled.
-/

namespace Stowage

/-- Whether packages may be opened from a carton. -/
inductive CartonStatus where
  | active
  | inactive
  deriving DecidableEq

/-- The name of a status. -/
def CartonStatus.name : CartonStatus → String
  | .active => "ACTIVE"
  | .inactive => "INACTIVE"

/-- The status that a raw value names. -/
def CartonStatus.ofRaw (raw : Json) : Fallible CartonStatus :=
  match raw with
  | .text (.whole "ACTIVE") => .ok .active
  | .text (.whole "INACTIVE") => .ok .inactive
  | _ => .error (.unknownStatus raw)

/-- A carton. -/
structure Carton where
  id : String
  name : Json
  /-- The inner sides. -/
  dimensions : Attribute Dimensions
  /-- The weight it carries. -/
  maxWeight : Attribute Weight
  status : CartonStatus
  createdAt : Timestamp
  updatedAt : Timestamp
  /-- Events not yet pulled, the oldest first. -/
  pending : List Event

/-- What is noted when a carton changes, or does not. -/
inductive CartonNote where
  | created
  | activated
  | alreadyActive
  | deactivated
  | alreadyInactive
  | dimensionsUpdated
  | nameUpdated
  | maxWeightUpdated
  | updated
  deriving DecidableEq

/-- The line of a note about the carton with an id. -/
def CartonNote.line (id : String) : CartonNote → String
  | .created => "INFO Created new carton with ID: " ++ id
  | .activated => "INFO Activated carton: " ++ id
  | .alreadyActive => "WARNING Carton " ++ id ++ " is already active"
  | .deactivated => "INFO Deactivated carton: " ++ id
  | .alreadyInactive => "WARNING Carton " ++ id ++ " is already inactive"
  | .dimensionsUpdated => "INFO Updated dimensions for carton: " ++ id
  | .nameUpdated => "INFO Updated name for carton: " ++ id
  | .maxWeightUpdated => "INFO Updated max weight for carton: " ++ id
  | .updated => "INFO Updated carton: " ++ id

namespace Carton

/-- A carton after a change, what is left of the supply, and the note of it. -/
structure Change where
  carton : Carton
  supply : Supply
  note : CartonNote

/-- A usable name: what is displayed of a raw value, without blanks around it. -/
def checkName (raw : Json) : Fallible RawText :=
  if raw.hasLongNumber then .error .longNumber
  else if raw.isNull || raw.display.isBlank then .refuse (.invalidCarton .name)
  else .ok raw.display.strip

/-- Usable dimensions. -/
def checkDimensions : Attribute Dimensions → Fallible Dimensions
  | .known d => if d.hasNonPositive then .refuse (.invalidCarton .dimensions) else .ok d
  | _ => .refuse (.invalidCarton .dimensions)

/-- A usable weight. -/
def checkMaxWeight : Attribute Weight → Fallible Weight
  | .known w => if w.isNonPositive then .refuse (.invalidCarton .maxWeight) else .ok w
  | _ => .refuse (.invalidCarton .maxWeight)

/-- Whether packages may be opened from the carton. -/
def isActive (c : Carton) : Bool := c.status == .active

/-- The carton as an event shows it. -/
def snapshot (c : Carton) : CartonSnapshot :=
  { cartonId := .text c.id
    name := c.name
    dimensions := c.dimensions
    maxWeight := c.maxWeight
    occurredOn := c.updatedAt }

/-- Makes a new, active carton. The first unusable part in the order name, dimensions, weight is
refused. -/
def create (name : Json) (dimensions : Attribute Dimensions) (maxWeight : Attribute Weight)
    (supply : Supply) : Fallible Change := do
  let name ← checkName name
  let dimensions ← checkDimensions dimensions
  let maxWeight ← checkMaxWeight maxWeight
  let (serial, supply) := supply.newId
  let (now, supply) := supply.now
  let carton : Carton :=
    { id := Supply.uuid serial
      name := .text name
      dimensions := .known dimensions
      maxWeight := .known maxWeight
      status := .active
      createdAt := now
      updatedAt := now
      pending := [] }
  return ⟨{ carton with pending := [.cartonCreated carton.snapshot] }, supply, .created⟩

/-- Brings a carton back with the identity and state it had; nothing is checked and nothing
happens. -/
def restore (id : String) (name : Json) (dimensions : Attribute Dimensions)
    (maxWeight : Attribute Weight) (status : CartonStatus) (createdAt updatedAt : Timestamp) :
    Carton :=
  { id, name, dimensions, maxWeight, status, createdAt, updatedAt, pending := [] }

/-- A carton from an object, brought back as it was at a time. The dimensions are read first, the
status last; without one the carton is active. -/
def ofObject (raw : Json) (time : Timestamp) : Fallible Carton := do
  let dimensions ← Attribute.ofRaw Dimensions.ofObject (raw.field "dimensions")
  let maxWeight ← Attribute.ofRaw Weight.ofObject (raw.field "max_weight")
  let status ← CartonStatus.ofRaw ((raw.field? "status").getD (.text CartonStatus.active.name))
  match (raw.field "id").display with
  | .whole id => return restore id (raw.field "name") dimensions maxWeight status time time
  | .broken _ => throw .unencodable

/-- Whether an item fits into the carton on its own. The weight is looked at first. -/
def canFit (c : Carton) (dimensions : Attribute Dimensions) (weight : Attribute Weight) :
    Fallible Bool := do
  let weight ← weight.get
  let maxWeight ← c.maxWeight.get
  if ← weight.isGreaterThan maxWeight then return false
  else
    let outer ← c.dimensions.get
    let inner ← dimensions.get
    outer.canContain inner

/-- Makes the carton active. -/
def activate (c : Carton) (supply : Supply) : Change :=
  if c.isActive then ⟨c, supply, .alreadyActive⟩
  else
    let (now, supply) := supply.now
    ⟨{ c with status := .active, updatedAt := now }, supply, .activated⟩

/-- Takes the carton out of use. -/
def deactivate (c : Carton) (supply : Supply) : Change :=
  if c.isActive then
    let (now, supply) := supply.now
    let event : Event := .cartonDeactivated (.text c.id) now
    ⟨{ c with status := .inactive, updatedAt := now, pending := c.pending ++ [event] }, supply,
      .deactivated⟩
  else ⟨c, supply, .alreadyInactive⟩

/-- Marks the carton as updated now. -/
def touch (c : Carton) (supply : Supply) (note : CartonNote) : Change :=
  let (now, supply) := supply.now
  let c := { c with updatedAt := now }
  ⟨{ c with pending := c.pending ++ [.cartonUpdated c.snapshot] }, supply, note⟩

/-- Changes the dimensions. -/
def updateDimensions (c : Carton) (dimensions : Attribute Dimensions) (supply : Supply) :
    Fallible Change := do
  let dimensions ← checkDimensions dimensions
  return { c with dimensions := .known dimensions }.touch supply .dimensionsUpdated

/-- Changes the name. -/
def updateName (c : Carton) (name : Json) (supply : Supply) : Fallible Change := do
  let name ← checkName name
  return { c with name := .text name }.touch supply .nameUpdated

/-- Changes the weight it carries. -/
def updateMaxWeight (c : Carton) (maxWeight : Attribute Weight) (supply : Supply) :
    Fallible Change := do
  let maxWeight ← checkMaxWeight maxWeight
  return { c with maxWeight := .known maxWeight }.touch supply .maxWeightUpdated

/-- Changes name, dimensions and weight together, or nothing when one of them is unusable. -/
def update (c : Carton) (name : Json) (dimensions : Attribute Dimensions)
    (maxWeight : Attribute Weight) (supply : Supply) : Fallible Change := do
  let name ← checkName name
  let dimensions ← checkDimensions dimensions
  let maxWeight ← checkMaxWeight maxWeight
  let c := { c with
    name := .text name, dimensions := .known dimensions, maxWeight := .known maxWeight }
  return c.touch supply .updated

/-- Takes the pending events away from the carton. -/
def pullEvents (c : Carton) : List Event × Carton := (c.pending, { c with pending := [] })

/-- The carton in one line. -/
def summary (c : Carton) : String :=
  "Carton(id=" ++ Text.quoted c.id ++ ", name=" ++ c.name.literal ++ ", status=" ++
    c.status.name ++ ")"

end Carton

end Stowage
