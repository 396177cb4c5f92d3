import Stowage.Json.Display

/-!
# Domain errors

The reasons for which a packing request or a change of a carton is refused. Each error has a kind,
which fixes its code and its status towards a web client, and a message.
-/

namespace Stowage

/-- The kinds of domain error. -/
inductive ErrorKind where
  | general
  | nonPositive
  | validation
  | infeasible
  | constraint
  | cartonState
  | cartonNotFound
  | solutionNotFound
  | noActiveCartons
  | enrichment
  | catalogUnavailable
  deriving DecidableEq

namespace ErrorKind

/-- The code under which clients know the kind. -/
def code : ErrorKind → String
  | .general => "cartonization_error"
  | .nonPositive => "non_positive_value"
  | .validation => "validation_failed"
  | .infeasible => "infeasible_item"
  | .constraint => "constraint_violation"
  | .cartonState => "invalid_carton"
  | .cartonNotFound => "carton_not_found"
  | .solutionNotFound => "solution_not_found"
  | .noActiveCartons => "no_active_cartons"
  | .enrichment => "enrichment_failed"
  | .catalogUnavailable => "catalog_unavailable"

/-- The status of a web answer that reports the kind. -/
def status : ErrorKind → Nat
  | .validation | .nonPositive | .cartonState => 400
  | .cartonNotFound | .solutionNotFound => 404
  | .infeasible | .noActiveCartons | .enrichment => 422
  | .catalogUnavailable => 502
  | .general | .constraint => 500

/-- Whether the kind lays the fault on a single value that was given. -/
def blamesValue : ErrorKind → Bool
  | .nonPositive | .cartonState => true
  | _ => false

end ErrorKind

/-- The amounts that have to be positive. -/
inductive Measured where
  | length
  | width
  | height
  | weight
  deriving DecidableEq

/-- The name of an amount in messages. -/
def Measured.text : Measured → String
  | .length => "Length"
  | .width => "Width"
  | .height => "Height"
  | .weight => "Weight value"

/-- Why a request is refused before packing. -/
inductive InvalidRequest where
  /-- An order line without a stock keeping unit. -/
  | blankSku
  /-- An order line whose quantity is no positive integer. -/
  | quantity
  /-- No items at all. -/
  | noItems
  /-- No policy. -/
  | noPolicy
  /-- A utilization threshold outside the half-open interval from zero to one. -/
  | threshold
  /-- An item with an unusable attribute. -/
  | item (sku : Json)
  /-- An item with a side above the limit. -/
  | tooLarge (sku : Json)
  /-- An item with a weight above the limit. -/
  | tooHeavy (sku : Json)
  /-- More units than one request may ask for. -/
  | tooManyUnits (units limit : Int)
  /-- Several categories where one is required. -/
  | mixedCategories
  /-- Fragile and other items where they must be apart. -/
  | mixedFragility

/-- The message of a refused request. -/
def InvalidRequest.message : InvalidRequest → RawText
  | .blankSku => "SKU cannot be null or empty"
  | .quantity => "Quantity must be positive"
  | .noItems => "Packing request must contain at least one item"
  | .noPolicy => "Packing rules cannot be null"
  | .threshold => "Max utilization threshold must be between 0 and 1"
  | .item sku => RawText.whole ("Invalid item in packing request: " ++ sku.literal)
  | .tooLarge sku => "Item dimensions exceed maximum allowed size: " ++ sku.display
  | .tooHeavy sku => "Item weight exceeds maximum allowed weight: " ++ sku.display
  | .tooManyUnits units limit =>
    RawText.whole
      ("Too many units in one request (" ++ toString units ++ " > " ++ toString limit ++ ")")
  | .mixedCategories => "Mixed categories not allowed according to packing rules"
  | .mixedFragility =>
    "Fragile and non-fragile items cannot be packed together according to packing rules"

/-- Which part of a carton is unusable. -/
inductive InvalidCarton where
  | name
  | dimensions
  | maxWeight
  deriving DecidableEq

/-- The message of a refused carton. -/
def InvalidCarton.message : InvalidCarton → String
  | .name => "Carton name cannot be empty"
  | .dimensions => "Invalid carton dimensions"
  | .maxWeight => "Invalid carton weight capacity"

/-- What went wrong between this program and the product catalogue. -/
inductive CatalogueFault where
  /-- No answer to a question about one product. -/
  | unreachable
  /-- No answer to a question about several products. -/
  | batchUnreachable
  /-- An answer with an unexpected status to a question about one product. -/
  | status (code : Int)
  /-- An answer with an unexpected status to a question about several products. -/
  | batchStatus (code : Int)
  /-- An entry that describes no product. -/
  | malformed
  /-- A fault in words. -/
  | stated (message : RawText)

/-- The message of a fault that concerns a product. -/
def CatalogueFault.message (sku : Json) : CatalogueFault → RawText
  | .unreachable => "Product catalog unavailable for SKU: " ++ sku.display
  | .batchUnreachable => "Product catalog unavailable"
  | .status code =>
    RawText.whole ("Product catalog returned " ++ toString code ++ " for SKU: ") ++ sku.display
  | .batchStatus code => RawText.whole ("Product catalog returned " ++ toString code)
  | .malformed => "Malformed catalog entry for SKU: " ++ sku.display
  | .stated message => message

/-- A domain error. -/
inductive DomainError where
  /-- An error of some kind, in words. -/
  | stated (kind : ErrorKind) (message : RawText)
  /-- An amount that is not positive. -/
  | notPositive (what : Measured)
  /-- A request refused before packing; nothing was computed. -/
  | invalidRequest (why : InvalidRequest)
  /-- An item that no active carton takes, not even alone. -/
  | infeasible (sku : Json)
  /-- An item put into a package that does not take it. -/
  | constraint (sku : Json)
  /-- A carton with an unusable part. -/
  | invalidCarton (why : InvalidCarton)
  /-- No carton has the id. -/
  | cartonNotFound (id : Json)
  /-- No solution has the id. -/
  | solutionNotFound (id : Json)
  /-- There is no active carton to pack into. -/
  | noActiveCartons
  /-- The attributes of a product could not be found, with a message in place of the usual one. -/
  | enrichment (sku : Json) (message : Option RawText)
  /-- The catalogue did not answer as it should. -/
  | catalogue (sku : Json) (fault : CatalogueFault)

namespace DomainError

/-- The kind of an error. -/
def kind : DomainError → ErrorKind
  | .stated kind _ => kind
  | .notPositive _ => .nonPositive
  | .invalidRequest _ => .validation
  | .infeasible _ => .infeasible
  | .constraint _ => .constraint
  | .invalidCarton _ => .cartonState
  | .cartonNotFound _ => .cartonNotFound
  | .solutionNotFound _ => .solutionNotFound
  | .noActiveCartons => .noActiveCartons
  | .enrichment _ _ => .enrichment
  | .catalogue _ _ => .catalogUnavailable

/-- The message for a product that the catalogue does not have. -/
def productNotFound (sku : Json) : RawText := "Product not found for SKU: " ++ sku.display

/-- The message of an error. -/
def message : DomainError → RawText
  | .stated _ message => message
  | .notPositive what => RawText.whole (what.text ++ " must be positive")
  | .invalidRequest why => why.message
  | .infeasible sku => "Cannot pack item: " ++ sku.display
  | .constraint sku => "Cannot add item to package: " ++ sku.display
  | .invalidCarton why => why.message
  | .cartonNotFound id => "Carton not found: " ++ id.display
  | .solutionNotFound id => "Packing solution not found: " ++ id.display
  | .noActiveCartons => "No active cartons available"
  | .enrichment sku message => message.getD (productNotFound sku)
  | .catalogue sku fault => fault.message sku

/-- The stock keeping unit that an error is about. -/
def sku? : DomainError → Option Json
  | .infeasible sku | .enrichment sku _ | .catalogue sku _ => some sku
  | _ => none

/-- The carton that an error is about. -/
def cartonId? : DomainError → Option Json
  | .cartonNotFound id => some id
  | _ => none

/-- The solution that an error is about. -/
def solutionId? : DomainError → Option Json
  | .solutionNotFound id => some id
  | _ => none

end DomainError

end Stowage
