import Stowage.Catalogue.Client
import Stowage.Event.Outbox
import Stowage.Store.Cartons
import Stowage.Store.Solutions

/-!
# Warehouses

A warehouse is everything that outlasts a single call: the stored cartons and solutions, the events
on their way out, the supply of times and identifiers, and the log of what the catalogue was asked.
-/

namespace Stowage

/-- What outlasts a call. -/
structure Warehouse where
  cartons : CartonTable
  solutions : SolutionTable
  outbox : Outbox
  supply : Supply
  /-- The requests to the catalogue, the first one first. -/
  asked : List CatalogueRequest

namespace Warehouse

/-- A warehouse with nothing in it. -/
def empty : Warehouse := ⟨.empty, .empty, .empty Outbox.usualBound, .start, []⟩

/-- The topic of events about cartons. -/
def cartonTopic : Json := .text "cartonization.carton.events"

/-- The topic of events about solutions. -/
def solutionTopic : Json := .text "cartonization.packing-solution.calculated"

/-- Fetches the carton with an id. -/
def getCarton (w : Warehouse) (id : String) : Fallible Carton := do
  match ← w.cartons.find? id with
  | some c => return c
  | none => Fallible.refuse (.cartonNotFound (.text id))

/-- Fetches the solution with an id. -/
def getSolution (w : Warehouse) (id : String) : Fallible SolutionView :=
  match w.solutions.find? id with
  | some v => .ok v
  | none => Fallible.refuse (.solutionNotFound (.text id))

/-- Takes all events out of the outbox. -/
def drain (w : Warehouse) : List OutboundEvent × Warehouse :=
  let (events, outbox) := w.outbox.drain
  (events, { w with outbox })

end Warehouse

end Stowage
