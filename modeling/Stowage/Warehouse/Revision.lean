import Stowage.Warehouse.Basic

/-!
# Revisions of cartons

A carton is revised in four steps: it is fetched, changed, written back, and its events are
published. The steps of several revisions may come in any order, and each sees the warehouse as it
is at that moment. A new carton goes through the last two steps only. Nothing is written unless the
change succeeds, and nothing is published unless it is written.
-/

namespace Stowage

/-- A change of a carton. -/
abbrev CartonEdit := Carton → Supply → Fallible Carton.Change

namespace CartonEdit

/-- Changes everything that can be said of a carton. -/
def update (name : Json) (dimensions : Attribute Dimensions) (maxWeight : Attribute Weight) :
    CartonEdit :=
  fun c supply => c.update name dimensions maxWeight supply

/-- Makes a carton active. -/
def activate : CartonEdit := fun c supply => .ok (c.activate supply)

/-- Takes a carton out of use. -/
def deactivate : CartonEdit := fun c supply => .ok (c.deactivate supply)

end CartonEdit

/-- How far a revision has come. -/
inductive Revision where
  /-- Nothing has been done yet. -/
  | asked (id : String) (edit : CartonEdit)
  /-- The carton has been fetched. -/
  | fetched (carton : Carton) (edit : CartonEdit)
  /-- The carton has been changed, but not where it is stored. -/
  | changed (carton : Carton)
  /-- The carton has been stored as it is now. -/
  | written (carton : Carton)
  /-- The revision is over. -/
  | done (outcome : Fallible Carton)

namespace Revision

/-- Writes a carton where it is stored. -/
def write (w : Warehouse) (c : Carton) : Fallible Warehouse := do
  let row ← StoredCarton.ofCarton c
  return { w with cartons := w.cartons.put row }

/-- Publishes the events of a carton. -/
def publish (w : Warehouse) (c : Carton) : Fallible Carton × Warehouse :=
  let (events, c) := c.pullEvents
  let (count, outbox) := w.outbox.publishAll Warehouse.cartonTopic (.text c.id) events
  (count.map fun _ => c, { w with outbox })

/-- The next step. -/
def step (w : Warehouse) : Revision → Revision × Warehouse
  | .asked id edit =>
    match w.getCarton id with
    | .ok c => (.fetched c edit, w)
    | .error f => (.done (.error f), w)
  | .fetched c edit =>
    match edit c w.supply with
    | .ok change => (.changed change.carton, { w with supply := change.supply })
    | .error f => (.done (.error f), w)
  | .changed c =>
    match write w c with
    | .ok w => (.written c, w)
    | .error f => (.done (.error f), w)
  | .written c =>
    let (outcome, w) := publish w c
    (.done outcome, w)
  | .done outcome => (.done outcome, w)

/-- The outcome of a revision that is over. -/
def outcome? : Revision → Option (Fallible Carton)
  | .done outcome => some outcome
  | _ => none

/-- How many steps there are left at most. -/
def left : Revision → Nat
  | .asked _ _ => 4
  | .fetched _ _ => 3
  | .changed _ => 2
  | .written _ => 1
  | .done _ => 0

/-- Every step of a revision that is not over brings it nearer to its end. -/
theorem left_step_lt (w : Warehouse) (r : Revision) (h : r.outcome? = none) :
    (r.step w).1.left < r.left := by
  cases r with
  | asked => simp only [step]; split <;> simp [left]
  | fetched => simp only [step]; split <;> simp [left]
  | changed => simp only [step]; split <;> simp [left]
  | written => simp [step, left]
  | done => exact absurd h (by simp [outcome?])

/-- Takes all steps that are left, with nothing in between. -/
def run (w : Warehouse) (r : Revision) : Fallible Carton × Warehouse :=
  match _ : r.outcome? with
  | some outcome => (outcome, w)
  | none => run (r.step w).2 (r.step w).1
termination_by r.left
decreasing_by exact left_step_lt w r (by assumption)

/-- A revision that is over has its outcome and changes nothing more. -/
theorem run_done (w : Warehouse) (outcome : Fallible Carton) :
    run w (.done outcome) = (outcome, w) := by
  rw [run]
  split
  · next h => cases h; rfl
  · next h => cases h

/-- A revision that is not over goes on after its next step. -/
theorem run_step (w : Warehouse) (r : Revision) (h : r.outcome? = none) :
    run w r = run (r.step w).2 (r.step w).1 := by
  rw [run]
  split
  · next h' => rw [h] at h'; cases h'
  · rfl

end Revision

namespace Warehouse

/-- Revises the carton with an id. -/
def revise (w : Warehouse) (id : String) (edit : CartonEdit) : Fallible Carton × Warehouse :=
  Revision.run w (.asked id edit)

/-- Makes a new carton and stores it. -/
def createCarton (w : Warehouse) (name : Json) (dimensions : Attribute Dimensions)
    (maxWeight : Attribute Weight) : Fallible Carton × Warehouse :=
  match Carton.create name dimensions maxWeight w.supply with
  | .error f => (.error f, w)
  | .ok change => Revision.run { w with supply := change.supply } (.changed change.carton)

end Warehouse

end Stowage
