import Stowage.Catalogue.Address
import Stowage.Catalogue.Product

/-!
# Asking the catalogue

The questions that are put to a product catalogue and what becomes of its answers. A catalogue is
any function from the requests it has had so far to replies, so that it may answer the same
question differently from one time to the next. Every request is logged.
-/

namespace Stowage

/-- A request to the catalogue. -/
structure CatalogueRequest where
  address : Address
  /-- The stock keeping units of a batch, separated by commas. -/
  skus : Option String

/-- The request as it is read by people. -/
def CatalogueRequest.display (r : CatalogueRequest) : String :=
  match r.skus with
  | some skus => r.address.display ++ "?skus=" ++ skus
  | none => r.address.display

/-- What comes back from the catalogue. -/
inductive CatalogueReply where
  /-- An answer with a status and the octets of a document. -/
  | answer (status : Int) (body : List UInt8)
  /-- No answer: the connection failed. -/
  | failure

/-- A catalogue: the reply to a request, given how many there have been. -/
abbrev Catalogue := Nat → CatalogueRequest → CatalogueReply

/-- A conversation with the catalogue. The log holds the requests, the first one first, and is kept
when the conversation fails. -/
abbrev Dialogue := ExceptT Failure (StateM (List CatalogueRequest))

/-- A part of a conversation that puts no question. -/
def Dialogue.ofFallible {α : Type} : Fallible α → Dialogue α
  | .ok a => pure a
  | .error f => throw f

/-- A client of a catalogue at an address, or of none when the address is empty. -/
structure CatalogueClient where
  baseAddress : String
  catalogue : Catalogue
  /-- How deep arrays and objects may be nested in the body of an answer. -/
  depth : Nat

namespace CatalogueClient

/-- A client of the catalogue at an address, of which slashes at the end do not count. -/
def ofAddress (address : String) (catalogue : Catalogue) (depth : Nat) : CatalogueClient :=
  ⟨String.ofList ((address.toList.reverse.dropWhile (· == '/')).reverse), catalogue, depth⟩

/-- Whether there is a catalogue to ask. -/
def enabled (c : CatalogueClient) : Bool := !c.baseAddress.isEmpty

/-- The path to single products. -/
def productPath : String := "/api/v1/products/"

/-- The path to many products at a time. -/
def batchPath : String := "/api/v1/products/batch"

/-- The address for a single product. -/
def productAddress (base : String) (sku : RawText) : Fallible Address := do
  let base ← Address.ofText base
  match sku with
  | .whole s => base.append (productPath ++ s)
  | .broken t => .error (Address.faultOfBroken (Text.points productPath ++ t.points))

/-- Stock keeping units separated by commas, if there are octets for all of them. -/
def joined? (skus : List RawText) : Option String :=
  (skus.mapM RawText.whole?).map (String.intercalate ",")

/-- The address for many products at a time, with the units asked for. -/
def batchAddress (base : String) (skus : List RawText) : Fallible Address := do
  let base ← Address.ofText base
  let address ← base.append batchPath
  match joined? skus with
  | some skus =>
    if Address.maxLength < 5 + Address.formLength skus then .error .invalidAddress
    else return address
  | none => .error .unencodable

/-- Puts a request to the catalogue. -/
def ask (c : CatalogueClient) (request : CatalogueRequest) : Dialogue CatalogueReply := do
  let log ← getThe (List CatalogueRequest)
  set (log ++ [request])
  return c.catalogue log.length request

/-- The document in the body of an answer. -/
def readBody (depth : Nat) (body : List UInt8) : Fallible Json :=
  (Json.ofOctets? depth body).mapError .unreadable

/-- A refusal because of the catalogue. -/
def refuse {α : Type} (sku : Json) (fault : CatalogueFault) : Fallible α :=
  Fallible.refuse (.catalogue sku fault)

/-- The product of an entry; whatever is wrong with the entry, it is malformed. -/
def parse (sku entry : Json) : Fallible Product :=
  match Product.ofJson entry with
  | .ok p => .ok p
  | .error _ => refuse sku .malformed

/-- What a reply says about a single product. -/
def readProduct (depth : Nat) (sku : RawText) : CatalogueReply → Fallible (Option Product)
  | .failure => refuse (.text sku) .unreachable
  | .answer status body =>
    if status = 404 then .ok none
    else if status ≠ 200 then refuse (.text sku) (.status status)
    else do
      let document ← readBody depth body
      let product ← parse (.text sku) document
      return some product

/-- The product of an entry in a batch, which must be an object. -/
def parseEntry (entry : Json) : Fallible Product :=
  match entry with
  | .object _ => parse ((entry.field? "sku").getD (.text "?")) entry
  | _ => .error .absentValue

/-- The products of a batch. Only lists have entries; of an object or a text the names or
characters are gone through, and none of them is one. -/
def parseBatch : Json → Fallible (List Product)
  | .array entries => entries.mapM parseEntry
  | .object members => if members.isEmpty then .ok [] else .error .absentValue
  | .text s => if s.isEmpty then .ok [] else .error .absentValue
  | _ => .error .wrongKind

/-- What a reply says about a batch of products, of which `first` was asked for first. -/
def readProducts (depth : Nat) (first : RawText) : CatalogueReply → Fallible (List Product)
  | .failure => refuse (.text first) .batchUnreachable
  | .answer status body =>
    if status = 404 then .ok []
    else if status ≠ 200 then refuse (.text first) (.batchStatus status)
    else do
      let document ← readBody depth body
      parseBatch document

/-- Asks for one product. -/
def getProduct (c : CatalogueClient) (sku : RawText) : Dialogue (Option Product) := do
  if c.enabled then
    let address ← Dialogue.ofFallible (productAddress c.baseAddress sku)
    let reply ← c.ask ⟨address, none⟩
    Dialogue.ofFallible (readProduct c.depth sku reply)
  else return none

/-- Asks for several products at once. -/
def getProducts (c : CatalogueClient) (skus : List RawText) : Dialogue (List Product) :=
  match skus with
  | [] => pure []
  | first :: _ =>
    if c.enabled then do
      let address ← Dialogue.ofFallible (batchAddress c.baseAddress skus)
      let reply ← c.ask ⟨address, joined? skus⟩
      Dialogue.ofFallible (readProducts c.depth first reply)
    else pure []

end CatalogueClient

end Stowage
