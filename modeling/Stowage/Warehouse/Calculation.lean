import Stowage.Catalogue.Enrichment
import Stowage.Packing.Validation
import Stowage.Settings
import Stowage.Warehouse.Basic

/-!
# Calculations

A packing order is answered in steps: a solution is looked up by the name of the request, the
active cartons are fetched, the order lines are enriched, validated and packed, the solution is
stored, and its event is published. The steps of several calculations may come in any order. When
another calculation has stored a solution for the same request in the meantime, that solution is the
answer and nothing is published.
-/

namespace Stowage

/-- An order to pack. -/
structure PackingOrder where
  /-- The name of the request. -/
  requestId : Json
  orderId : Json
  lines : List OrderLine
  /-- Look for the tightest fit. -/
  tightest : Bool
  /-- Let items of different categories share a package. -/
  mixedCategories : Bool

/-- An order from an object. -/
def PackingOrder.ofObject (raw : Json) : Fallible PackingOrder := do
  let lines ← ((raw.field "items").items?.getD []).mapM OrderLine.ofObject
  return ⟨raw.field "request_id", raw.field "order_id", lines,
    Policy.flag (raw.field "optimize_for_minimum_boxes"),
    Policy.flag (raw.field "allow_mixed_categories")⟩

/-- The policy of an order, to which the settings add what an order does not say. -/
def PackingOrder.policy (order : PackingOrder) (settings : Settings) : Policy :=
  ⟨order.tightest, order.mixedCategories, settings.separateFragile, settings.threshold⟩

/-- How far a calculation has come. -/
inductive Calculation where
  /-- Nothing has been done yet. -/
  | asked
  /-- There is no solution for the request yet. -/
  | unanswered
  /-- The cartons to pack into have been fetched. -/
  | supplied (cartons : List Carton)
  /-- The items have been packed. -/
  | packed (solution : Solution)
  /-- Another solution was in the way when this one was to be stored. -/
  | overtaken
  /-- The solution has been stored. -/
  | stored (solution : Solution) (view : SolutionView)
  /-- The calculation is over. -/
  | done (outcome : Fallible SolutionView)

namespace Calculation

/-- What calculations are made with. -/
structure Desk where
  settings : Settings
  client : CatalogueClient

/-- The items of an order, as far as they may be packed. -/
def prepare (desk : Desk) (order : PackingOrder) : Dialogue (List Item) := do
  let items ← Enrichment.enrich desk.client desk.settings.useDefaults order.lines
  Dialogue.ofFallible (Validation.check (some (items.map some))
    (some (order.policy desk.settings)))
  return items

/-- Packs the items of an order into cartons. -/
def packOrder (desk : Desk) (order : PackingOrder) (cartons : List Carton) (w : Warehouse) :
    Fallible Solution × Warehouse :=
  let (items, log) := (prepare desk order).run.run w.asked
  let w := { w with asked := log }
  match items with
  | .error f => (.error f, w)
  | .ok items =>
    let (solution, supply) := pack items cartons (order.policy desk.settings) w.supply
    (solution.map fun s => { s with requestId := order.requestId, orderId := order.orderId },
      { w with supply })

/-- Stores a solution. -/
def store (w : Warehouse) (s : Solution) : Calculation × Warehouse :=
  match s.view with
  | .error f => (.done (.error f), w)
  | .ok view =>
    match w.solutions.insert view with
    | .ok solutions => (.stored s view, { w with solutions })
    | .error .duplicateRequest => (.overtaken, w)
    | .error f => (.done (.error f), w)

/-- Publishes that a solution was calculated. -/
def publish (w : Warehouse) (s : Solution) : Fallible Unit × Warehouse :=
  let published := do
    let event ← s.calculatedEvent
    w.outbox.publish Warehouse.solutionTopic (.text s.id) event
  match published with
  | .ok (_, outbox) => (.ok (), { w with outbox })
  | .error f => (.error f, w)

/-- The next step in the calculation for an order. -/
def step (desk : Desk) (order : PackingOrder) (w : Warehouse) :
    Calculation → Calculation × Warehouse
  | .asked =>
    if order.requestId.isBroken then (.done (.error .unencodable), w)
    else
      match w.solutions.answerTo? order.requestId with
      | some view => (.done (.ok view), w)
      | none => (.unanswered, w)
  | .unanswered =>
    match w.cartons.list true with
    | .error f => (.done (.error f), w)
    | .ok [] => (.done (Fallible.refuse .noActiveCartons), w)
    | .ok cartons => (.supplied cartons, w)
  | .supplied cartons =>
    match packOrder desk order cartons w with
    | (.ok s, w) => (.packed s, w)
    | (.error f, w) => (.done (.error f), w)
  | .packed s => store w s
  | .overtaken =>
    match w.solutions.answerTo? order.requestId with
    | some view => (.done (.ok view), w)
    | none => (.done (.error .duplicateRequest), w)
  | .stored s view =>
    let (published, w) := publish w s
    (.done (published.map fun _ => view), w)
  | .done outcome => (.done outcome, w)

/-- So many steps, with nothing in between. -/
def advance (desk : Desk) (order : PackingOrder) :
    Nat → Calculation × Warehouse → Calculation × Warehouse
  | 0, now => now
  | n + 1, (c, w) => advance desk order n (step desk order w c)

/-- The outcome of a calculation that is over. -/
def outcome? : Calculation → Option (Fallible SolutionView)
  | .done outcome => some outcome
  | _ => none

/-- How many steps there are left at most. -/
def left : Calculation → Nat
  | .asked => 5
  | .unanswered => 4
  | .supplied _ => 3
  | .packed _ => 2
  | .overtaken => 1
  | .stored _ _ => 1
  | .done _ => 0

/-- Every step of a calculation that is not over brings it nearer to its end. -/
theorem left_step_lt (desk : Desk) (order : PackingOrder) (w : Warehouse) (c : Calculation)
    (h : c.outcome? = none) : (c.step desk order w).1.left < c.left := by
  cases c with
  | asked =>
    simp only [step]
    split
    · simp [left]
    · split <;> simp [left]
  | unanswered => simp only [step]; split <;> simp [left]
  | supplied => simp only [step]; split <;> simp [left]
  | packed =>
    simp only [step, store]
    split
    · simp [left]
    · split <;> simp [left]
  | overtaken => simp only [step]; split <;> simp [left]
  | stored => simp [step, left]
  | done => exact absurd h (by simp [outcome?])

/-- Takes all steps that are left, with nothing in between. -/
def run (desk : Desk) (order : PackingOrder) (w : Warehouse) (c : Calculation) :
    Fallible SolutionView × Warehouse :=
  match _ : c.outcome? with
  | some outcome => (outcome, w)
  | none => run desk order (c.step desk order w).2 (c.step desk order w).1
termination_by c.left
decreasing_by exact left_step_lt desk order w c (by assumption)

/-- A calculation that is over has its outcome and changes nothing more. -/
theorem run_done (desk : Desk) (order : PackingOrder) (w : Warehouse)
    (outcome : Fallible SolutionView) : run desk order w (.done outcome) = (outcome, w) := by
  rw [run]
  split
  · next h => cases h; rfl
  · next h => cases h

/-- A calculation that is not over goes on after its next step. -/
theorem run_step (desk : Desk) (order : PackingOrder) (w : Warehouse) (c : Calculation)
    (h : c.outcome? = none) :
    run desk order w c = run desk order (c.step desk order w).2 (c.step desk order w).1 := by
  rw [run]
  split
  · next h' => rw [h] at h'; cases h'
  · rfl

end Calculation

namespace Warehouse

/-- Answers a packing order. -/
def calculate (w : Warehouse) (desk : Calculation.Desk) (order : PackingOrder) :
    Fallible SolutionView × Warehouse :=
  Calculation.run desk order w .asked

end Warehouse

end Stowage
