import Stowage.Item.Attribute
import Stowage.Time.Timestamp

/-!
# Events

What happens to cartons and solutions, as others are told of it. The payload of an event is made
when the event is published, and making it can fail when the event is about something unusable.
-/

namespace Stowage

/-- A carton at the moment of a change. -/
structure CartonSnapshot where
  cartonId : Json
  name : Json
  dimensions : Attribute Dimensions
  maxWeight : Attribute Weight
  occurredOn : Timestamp

/-- The figures of a solution at the moment of its calculation. -/
structure SolutionSummary where
  solutionId : Json
  requestId : Json
  orderId : Json
  packageCount : Json
  totalWeight : Numeral
  weightUnit : Json
  averageUtilization : Numeral
  occurredOn : Timestamp

/-- An event. -/
inductive Event where
  | cartonCreated (carton : CartonSnapshot)
  | cartonUpdated (carton : CartonSnapshot)
  | cartonDeactivated (cartonId : Json) (occurredOn : Timestamp)
  | solutionCalculated (solution : SolutionSummary)
  /-- An event of no particular kind, which has no payload. -/
  | unspecified

namespace Event

/-- The name of an event's kind. -/
def kind : Event → String
  | .cartonCreated _ => "carton.created"
  | .cartonUpdated _ => "carton.updated"
  | .cartonDeactivated _ _ => "carton.deactivated"
  | .solutionCalculated _ => "packing-solution.calculated"
  | .unspecified => "domain.event"

/-- The payload of an event about a carton and what it looks like. -/
def snapshotPayload (kind : String) (c : CartonSnapshot) : Fallible Json := do
  let dimensions ← c.dimensions.get
  let maxWeight ← c.maxWeight.get
  return .object [("type", .text kind), ("cartonId", c.cartonId), ("name", c.name),
    ("dimensions", dimensions.toJson), ("maxWeight", maxWeight.toJson),
    ("occurredOn", .text c.occurredOn.text)]

/-- A figure of a solution in a payload. A signaling `nan` is no figure. -/
def figure : Numeral → Fallible Json
  | .nan _ true _ => .error .signalingNan
  | n => .ok (.float (Binary64.ofNumeral n))

/-- The payload of an event. -/
def payload (e : Event) : Fallible Json :=
  match e with
  | .cartonCreated c | .cartonUpdated c => snapshotPayload e.kind c
  | .cartonDeactivated id occurredOn =>
    .ok (.object [("type", .text e.kind), ("cartonId", id), ("occurredOn", .text occurredOn.text)])
  | .solutionCalculated s => do
    let totalWeight ← figure s.totalWeight
    let averageUtilization ← figure s.averageUtilization
    return .object [("type", .text e.kind), ("solutionId", s.solutionId),
      ("requestId", s.requestId), ("orderId", s.orderId), ("packageCount", s.packageCount),
      ("totalWeight", totalWeight), ("weightUnit", s.weightUnit),
      ("averageUtilization", averageUtilization), ("occurredOn", .text s.occurredOn.text)]
  | .unspecified => .error .abstractEvent

/-! ## Reading -/

/-- The time that a raw value stands for, the start of 1970 when it is none. -/
def timeOf : Json → Timestamp
  | .text (.whole s) => (Timestamp.ofText? s).getD Timestamp.epoch
  | _ => Timestamp.epoch

/-- A carton at the moment of a change, from an object. -/
def snapshotOf (raw : Json) : Fallible CartonSnapshot := do
  let dimensions ← Attribute.ofRaw Dimensions.ofObject (raw.field "dimensions")
  let maxWeight ← Attribute.ofRaw Weight.ofObject (raw.field "max_weight")
  return ⟨raw.field "carton_id", raw.field "name", dimensions, maxWeight,
    timeOf (raw.field "occurred_on")⟩

/-- A figure of a solution, which has to be there. -/
def figureOf (raw : Json) : Fallible Numeral := do
  match ← raw.numeral? with
  | some n => return n
  | none => .error .wrongKind

/-- The figures of a solution, from an object. -/
def summaryOf (raw : Json) : Fallible SolutionSummary := do
  let totalWeight ← figureOf (raw.field "total_weight")
  let averageUtilization ← figureOf (raw.field "average_utilization")
  return ⟨raw.field "solution_id", raw.field "request_id", raw.field "order_id",
    raw.field "package_count", totalWeight, raw.field "weight_unit", averageUtilization,
    timeOf (raw.field "occurred_on")⟩

/-- An event from an object that names its kind. -/
def ofObject (raw : Json) : Fallible Event :=
  match raw.field "type" with
  | .text (.whole "carton.created") => (snapshotOf raw).map .cartonCreated
  | .text (.whole "carton.updated") => (snapshotOf raw).map .cartonUpdated
  | .text (.whole "carton.deactivated") =>
    .ok (.cartonDeactivated (raw.field "carton_id") (timeOf (raw.field "occurred_on")))
  | .text (.whole "packing-solution.calculated") => (summaryOf raw).map .solutionCalculated
  | _ => .ok .unspecified

end Event

end Stowage
