import Mathlib.Tactic
import Stowage.Proofs.Time.Written
import Stowage.Store.Payload

/-!
# Views that are read back

The view of a solution is read back from its JSON form (`SolutionView.ofJson?_toJson`), if its time
is one of universal time in the years 1 to 9999. Then the row of a view is read as that view
(`SolutionTable.load?_of_find?`, `SolutionTable.loadFor?_of_forRequest?`).
-/

namespace Stowage

/-! ## Views -/

/-- The members of an array are read back when each of them is. -/
theorem Json.itemsOf?_map {α : Type} {read : Json → Option α} {write : α → Json}
    (h : ∀ a, read (write a) = some a) (l : List α) :
    Json.itemsOf? read (.array (l.map write)) = some l := by
  have hread : l.mapM (read ∘ write) = some l := by
    rw [show read ∘ write = pure from funext h, List.mapM_pure, List.map_id']
    rfl
  rw [itemsOf?, items?, Option.bind_some, List.mapM_map]
  exact hread

theorem Json.optionalText?_ofOption (s : Option RawText) :
    (Json.ofOption s).optionalText? = some s := by
  cases s <;> rfl

theorem Json.time?_viewText {t : Timestamp} (h : t.offset = some 0) (ht : t.InCalendar) :
    (Json.text t.viewText).time? = some t :=
  Timestamp.ofText?_viewText h ht

theorem PackedItemView.ofJson?_toJson (v : PackedItemView) : ofJson? v.toJson = some v := rfl

theorem PackageView.ofJson?_toJson (v : PackageView) : ofJson? v.toJson = some v := by
  have hitems := Json.itemsOf?_map PackedItemView.ofJson?_toJson v.items
  change (Json.itemsOf? PackedItemView.ofJson? (.array (v.items.map PackedItemView.toJson))).bind
    (fun items => some { v with items := items }) = some v
  rw [hitems, Option.bind_some]

/-- **The view of a solution is read back** from its JSON form. -/
theorem SolutionView.ofJson?_toJson {v : SolutionView} (h : v.createdAt.offset = some 0)
    (ht : v.createdAt.InCalendar) : ofJson? v.toJson = some v := by
  have htime := Json.time?_viewText h ht
  have hpackages := Json.itemsOf?_map PackageView.ofJson?_toJson v.packages
  change ((Json.ofOption v.requestId).optionalText?.bind fun requestId =>
    (Json.ofOption v.orderId).optionalText?.bind fun orderId =>
      (Json.text v.createdAt.viewText).time?.bind fun createdAt =>
        (Json.itemsOf? PackageView.ofJson? (.array (v.packages.map PackageView.toJson))).bind
          fun packages => some { v with requestId, orderId, createdAt, packages }) = some v
  rw [Json.optionalText?_ofOption, Json.optionalText?_ofOption, htime, hpackages]
  rfl

/-! ## Rows -/

namespace SolutionTable

variable {t : SolutionTable} {v : SolutionView}

/-- The first row of a kind is read as the first view whose row is of that kind. -/
theorem loadFirst?_of_find? {p : StoredSolution → Bool}
    (hv : t.views.find? (fun u => p (.ofView u)) = some v) (h : v.createdAt.offset = some 0)
    (ht : v.createdAt.InCalendar) : t.loadFirst? p = some (some v) := by
  have hrow : t.rows.find? p = some (.ofView v) := by
    rw [rows, List.find?_map]
    exact congrArg (Option.map StoredSolution.ofView) hv
  rw [loadFirst?, hrow]
  exact congrArg some (SolutionView.ofJson?_toJson h ht)

/-- The row with an id is read as the view with that id. -/
theorem load?_of_find? {id : String} (hv : t.find? id = some v)
    (h : v.createdAt.offset = some 0) (ht : v.createdAt.InCalendar) :
    t.load? id = some (some v) :=
  loadFirst?_of_find? hv h ht

/-- The row for a request is read as the view for that request. -/
theorem loadFor?_of_forRequest? {request : String} (hv : t.forRequest? request = some v)
    (h : v.createdAt.offset = some 0) (ht : v.createdAt.InCalendar) :
    t.loadFor? request = some (some v) :=
  loadFirst?_of_find? hv h ht

end SolutionTable

end Stowage
