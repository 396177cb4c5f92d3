import Stowage.View.Basic

/-!
# Stored solutions

The table of solutions. A solution is stored as its view at the time of its calculation, since its
cartons may change afterwards. No two stored solutions answer the same request; those that answer
none in particular do not get in each other's way. The names of the request and the order are stored
beside the view, so they must have octets.
-/

namespace Stowage

/-- The stored solutions, the oldest first. -/
structure SolutionTable where
  views : List SolutionView

namespace SolutionTable

/-- A table without solutions. -/
def empty : SolutionTable := ⟨[]⟩

/-- The solution with an id. -/
def find? (t : SolutionTable) (id : String) : Option SolutionView :=
  t.views.find? fun v => v.solutionId == id

/-- The solution stored for a request. -/
def forRequest? (t : SolutionTable) (request : String) : Option SolutionView :=
  t.views.find? fun v => v.requestId == some (.whole request)

/-- The solution that answers a request again. Requests without a name are never looked up. -/
def answerTo? (t : SolutionTable) (request : Json) : Option SolutionView :=
  match request with
  | .text (.whole s) => if s.isEmpty then none else t.forRequest? s
  | _ => none

/-- Whether a solution cannot be stored beside those in the table. -/
def clashes (t : SolutionTable) (v : SolutionView) : Bool :=
  (t.find? v.solutionId).isSome ||
    (match v.requestId with
      | some (.whole request) => (t.forRequest? request).isSome
      | _ => false)

/-- Whether the names of the request and the order can be stored. -/
def isStorable (v : SolutionView) : Bool :=
  v.requestId.all RawText.isWhole && v.orderId.all RawText.isWhole

/-- The table with one more solution. -/
def insert (t : SolutionTable) (v : SolutionView) : Fallible SolutionTable :=
  if !isStorable v then .error .unencodable
  else if t.clashes v then .error .duplicateRequest else .ok ⟨t.views ++ [v]⟩

end SolutionTable

end Stowage
