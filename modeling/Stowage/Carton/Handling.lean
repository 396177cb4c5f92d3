import Stowage.Carton.Basic

/-!
# Cartons changed in place

Whoever holds a carton changes it part by part: an action checks what it is given, sets the parts of
the carton, reads the clock and records an event, one after the other. When an action fails on the
way, what it has done by then is not undone.
-/

namespace Stowage.Carton

/-- A carton in someone's hands, with the supply that times are read from. -/
structure Held where
  carton : Carton
  supply : Supply

/-- Work on a carton that is held. What was done is kept when the work fails. -/
abbrev Handling := ExceptT Failure (StateM Held)

namespace Handling

/-- Goes on with a value only if a check lets it pass. -/
def require {α : Type} : Fallible α → Handling α
  | .ok a => pure a
  | .error f => throw f

/-- Sets a part of the carton. -/
def edit (change : Carton → Carton) : Handling Unit :=
  modify fun h => { h with carton := change h.carton }

/-- Marks the carton as updated now. -/
def stamp : Handling Unit :=
  modify fun h => ⟨{ h.carton with updatedAt := h.supply.now.1 }, h.supply.now.2⟩

/-- Records an event about the carton as it is now. -/
def record (event : Carton → Event) : Handling Unit :=
  edit fun c => { c with pending := c.pending ++ [event c] }

/-- Marks the carton as updated now and records that it was. -/
def touch (note : CartonNote) : Handling CartonNote := do
  stamp
  record fun c => .cartonUpdated c.snapshot
  return note

/-- Makes the carton active. -/
def activate : Handling CartonNote := do
  if (← get).carton.isActive then return .alreadyActive
  edit fun c => { c with status := .active }
  stamp
  return .activated

/-- Takes the carton out of use. -/
def deactivate : Handling CartonNote := do
  if !(← get).carton.isActive then return .alreadyInactive
  edit fun c => { c with status := .inactive }
  stamp
  record fun c => .cartonDeactivated (.text c.id) c.updatedAt
  return .deactivated

/-- Changes the name. -/
def updateName (name : Json) : Handling CartonNote := do
  let name ← require (checkName name)
  edit fun c => { c with name := .text name }
  touch .nameUpdated

/-- Changes the dimensions. -/
def updateDimensions (dimensions : Attribute Dimensions) : Handling CartonNote := do
  let dimensions ← require (checkDimensions dimensions)
  edit fun c => { c with dimensions := .known dimensions }
  touch .dimensionsUpdated

/-- Changes the weight it carries. -/
def updateMaxWeight (maxWeight : Attribute Weight) : Handling CartonNote := do
  let maxWeight ← require (checkMaxWeight maxWeight)
  edit fun c => { c with maxWeight := .known maxWeight }
  touch .maxWeightUpdated

/-- Changes name, dimensions and weight together. -/
def update (name : Json) (dimensions : Attribute Dimensions) (maxWeight : Attribute Weight) :
    Handling CartonNote := do
  let name ← require (checkName name)
  let dimensions ← require (checkDimensions dimensions)
  let maxWeight ← require (checkMaxWeight maxWeight)
  edit fun c => { c with name := .text name }
  edit fun c => { c with dimensions := .known dimensions }
  edit fun c => { c with maxWeight := .known maxWeight }
  touch .updated

/-- Takes the pending events away from the carton. -/
def pullEvents : Handling (List Event) := do
  let events := (← get).carton.pending
  edit fun c => { c with pending := [] }
  return events

end Handling

/-! ## Actions -/

/-- Something that is done with a carton. -/
inductive Action where
  | activate
  | deactivate
  | updateName (name : Json)
  | updateDimensions (dimensions : Attribute Dimensions)
  | updateMaxWeight (maxWeight : Attribute Weight)
  | update (name : Json) (dimensions : Attribute Dimensions) (maxWeight : Attribute Weight)
  | pullEvents

/-- What an action gives back. -/
structure Yield where
  /-- The note of what was done. -/
  note : Option CartonNote
  /-- The events that were taken away. -/
  events : List Event

namespace Action

/-- The work of an action. -/
def work : Action → Handling Yield
  | .activate => return ⟨some (← Handling.activate), []⟩
  | .deactivate => return ⟨some (← Handling.deactivate), []⟩
  | .updateName name => return ⟨some (← Handling.updateName name), []⟩
  | .updateDimensions dimensions => return ⟨some (← Handling.updateDimensions dimensions), []⟩
  | .updateMaxWeight maxWeight => return ⟨some (← Handling.updateMaxWeight maxWeight), []⟩
  | .update name dimensions maxWeight =>
    return ⟨some (← Handling.update name dimensions maxWeight), []⟩
  | .pullEvents => return ⟨none, ← Handling.pullEvents⟩

/-- Takes an action: what it gives back or how it fails, and what is held then. -/
def take (a : Action) (h : Held) : Fallible Yield × Held := a.work.run.run h

/-- Takes actions one after the other, whether they fail or not. -/
def takeAll : List Action → Held → List (Fallible Yield) × Held
  | [], h => ([], h)
  | a :: rest, h =>
    let (outcome, h) := a.take h
    let (outcomes, h) := takeAll rest h
    (outcome :: outcomes, h)

end Action

end Stowage.Carton
