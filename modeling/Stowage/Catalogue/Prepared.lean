import Stowage.Catalogue.Client
import Stowage.Json.Printer

/-!
# Prepared catalogues

Catalogues whose answers are known beforehand: either the replies in the order in which they are
given, or a table of entries from which every question is answered.
-/

namespace Stowage

/-- An answer with a status and a text. -/
def CatalogueReply.ofText (status : Int) (text : String) : CatalogueReply :=
  .answer status (Text.Utf8.encode text)

/-- A reply from an object: a failure, or an answer with a status and a text or a document. -/
def CatalogueReply.ofObject (raw : Json) : CatalogueReply :=
  match raw.field? "raise" with
  | some _ => .failure
  | none =>
    let status := ((raw.field "status").int?).getD 200
    match raw.field "text", raw.field "json" with
    | .text (.whole s), _ => .ofText status s
    | _, .null => .answer status []
    | _, v => .ofText status v.print

namespace Catalogue

/-- The catalogue that gives prepared replies one after the other, and has nothing when they are
used up. -/
def inTurn (replies : List CatalogueReply) : Catalogue := fun n _ =>
  replies.getD n (.answer 404 [])

/-- The last segment of a path. -/
def lastSegment (path : String) : String :=
  String.ofList ((path.toList.reverse.takeWhile (· != '/')).reverse)

/-- The catalogue that answers from a table of entries. What is asked at the path of batches gets
the entries that there are, or none at all where batches are not answered. -/
def ofTable (entries : Json) (batches : Bool) : Catalogue := fun _ request =>
  let path := request.address.plainPath
  if lastSegment path == "batch" then
    let asked := if batches then (request.skus.getD "").splitOn "," else []
    .ofText 200 (Json.array (asked.filterMap fun sku => entries.field? sku)).print
  else
    match entries.field? (lastSegment path) with
    | some v => .ofText 200 v.print
    | none => .answer 404 []

/-- A prepared catalogue from an object. -/
def ofObject (raw : Json) : Catalogue :=
  match raw.field? "products" with
  | some entries => ofTable entries (((raw.field? "batch").map Json.truthy).getD true)
  | none => inTurn (((raw.field "responses").items?.getD []).map CatalogueReply.ofObject)

end Catalogue

/-- How deep arrays and objects may be nested in the answers of prepared catalogues. -/
def CatalogueClient.usualDepth : Nat := 900

/-- A client of no catalogue. -/
def CatalogueClient.none : CatalogueClient := .ofAddress "" (fun _ _ => .failure) 0

/-- A client of the prepared catalogue in an object. -/
def CatalogueClient.ofObject (raw : Json) : CatalogueClient :=
  let base := match raw.field "base_url" with
    | .text (.whole s) => s
    | _ => "http://catalog.test"
  .ofAddress base (Catalogue.ofObject raw) usualDepth

end Stowage
