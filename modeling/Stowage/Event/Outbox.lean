import Stowage.Event.Basic

/-!
# Outbox

Published events wait in an outbox until they are taken out. An outbox holds a bounded number of
events and drops the oldest to make room for a new one.
-/

namespace Stowage

/-- An event on its way out. -/
structure OutboundEvent where
  topic : Json
  key : Json
  payload : Json

/-- The event as it is shown. -/
def OutboundEvent.toJson (e : OutboundEvent) : Json :=
  .object [("topic", e.topic), ("key", e.key), ("payload", e.payload)]

/-- Published events, the oldest first. -/
structure Outbox where
  /-- The largest number of events held. -/
  bound : Nat
  events : List OutboundEvent

namespace Outbox

/-- The bound of an outbox for which none is stated. -/
def usualBound : Nat := 1000

/-- An outbox without events. -/
def empty (bound : Nat) : Outbox := ⟨bound, []⟩

/-- An outbox with a bound that may be negative, which none can have. -/
def ofBound (bound : Int) : Fallible Outbox :=
  if bound < 0 then .error .negativeBound else .ok (empty bound.toNat)

/-- The outbox with one more event, without the oldest when there is no room for them all. -/
def push (o : Outbox) (e : OutboundEvent) : Outbox :=
  let events := o.events ++ [e]
  { o with events := events.drop (events.length - o.bound) }

/-- Publishes an event. An event without a payload is not published. -/
def publish (o : Outbox) (topic key : Json) (e : Event) : Fallible (OutboundEvent × Outbox) := do
  let payload ← e.payload
  let out : OutboundEvent := ⟨topic, key, payload⟩
  return (out, o.push out)

/-- Publishes events one by one up to the first that cannot be. Gives how many there were, or the
failure, and the outbox as it is then. -/
def publishAll (o : Outbox) (topic key : Json) : List Event → Fallible Nat × Outbox
  | [] => (.ok 0, o)
  | e :: rest =>
    match o.publish topic key e with
    | .error f => (.error f, o)
    | .ok (_, o) =>
      let (count, o) := publishAll o topic key rest
      (count.map (· + 1), o)

/-- Takes all events out. -/
def drain (o : Outbox) : List OutboundEvent × Outbox := (o.events, { o with events := [] })

end Outbox

end Stowage
