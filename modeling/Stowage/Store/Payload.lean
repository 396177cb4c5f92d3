import Stowage.Store.Solutions
import Stowage.View.Reader

/-!
# Rows of solutions

The row of a solution has its name and its request in columns of their own, for looking it up, and
holds all of its view as JSON, from which it is read back. A row that is found may have a payload
that cannot be read.
-/

namespace Stowage

/-- A row of the table of solutions. -/
structure StoredSolution where
  solutionId : String
  requestId : Option RawText
  /-- The view. -/
  payload : Json

namespace StoredSolution

/-- The row of a view. -/
def ofView (v : SolutionView) : StoredSolution := ⟨v.solutionId, v.requestId, v.toJson⟩

/-- The view that a row holds. -/
def view? (r : StoredSolution) : Option SolutionView := SolutionView.ofJson? r.payload

end StoredSolution

namespace SolutionTable

/-- The rows of the table. -/
def rows (t : SolutionTable) : List StoredSolution := t.views.map .ofView

/-- What the first row of a kind is read as, when there is one. -/
def loadFirst? (t : SolutionTable) (p : StoredSolution → Bool) : Option (Option SolutionView) :=
  (t.rows.find? p).map StoredSolution.view?

/-- What the row with an id is read as. -/
def load? (t : SolutionTable) (id : String) : Option (Option SolutionView) :=
  t.loadFirst? fun r => r.solutionId == id

/-- What the row for a request is read as. -/
def loadFor? (t : SolutionTable) (request : String) : Option (Option SolutionView) :=
  t.loadFirst? fun r => r.requestId == some (.whole request)

end SolutionTable

end Stowage
