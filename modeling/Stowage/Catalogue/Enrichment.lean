import Stowage.Catalogue.Client

/-!
# Enrichment

Order lines become items by what the catalogue knows of their products. All products are asked for
at once, each of those that the answer leaves out once more by itself, and what cannot be found is
given usual attributes where the settings allow it.
-/

namespace Stowage.Enrichment

/-- The dimensions of a product that is not known. -/
def usualDimensions : Dimensions :=
  let side : Amount := ⟨Decimal.ofNat 5, by decide⟩
  ⟨side, side, side, .inches⟩

/-- The weight of a product that is not known. -/
def usualWeight : Weight := ⟨⟨Decimal.ofNat 1, by decide⟩, .pounds⟩

/-- An item for an order line about a product that is not known. -/
def usualItem (line : OrderLine) : Item :=
  ⟨.text line.sku, .int line.quantity, .known usualDimensions, .known usualWeight,
    unknownCategory, false⟩

/-- Products beside the stock keeping units they are known under; a later one counts before an
earlier one. -/
abbrev Known := List (Json × Product)

/-- The product known under a stock keeping unit. -/
def find? (known : Known) (sku : RawText) : Option Product :=
  (known.find? fun entry => entry.1.same (.text sku)).map (·.2)

/-- The products of a batch, known under the names they give themselves, which must be scalars. -/
def knownOf (products : List Product) : Fallible Known :=
  if products.all fun p => p.sku.isScalar then .ok (products.map fun p => (p.sku, p)).reverse
  else .error .wrongKind

/-- The stock keeping units of order lines, each once, in the order in which they first come. -/
def distinctSkus (lines : List OrderLine) : List RawText :=
  (lines.map (·.sku)).eraseDups

/-- The item for an order line, given the product if it was found. -/
def resolve (useDefaults : Bool) (line : OrderLine) : Option Product → Fallible Item
  | some p => .ok (p.toItem (.int line.quantity))
  | none =>
    if useDefaults then .ok (usualItem line)
    else Fallible.refuse (.enrichment (.text line.sku) none)

/-- The product of an order line, and what is known once it has been asked for. -/
def lookUp (client : CatalogueClient) (known : Known) (line : OrderLine) :
    Dialogue (Option Product × Known) := do
  match find? known line.sku with
  | some p => return (some p, known)
  | none =>
    if client.enabled then
      match ← client.getProduct line.sku with
      | some p => return (some p, (.text line.sku, p) :: known)
      | none => return (none, known)
    else return (none, known)

/-- The items for order lines, one after the other. -/
def enrichFrom (client : CatalogueClient) (useDefaults : Bool) :
    Known → List OrderLine → Dialogue (List Item)
  | _, [] => pure []
  | known, line :: rest => do
    let (product, known) ← lookUp client known line
    let item ← Dialogue.ofFallible (resolve useDefaults line product)
    let items ← enrichFrom client useDefaults known rest
    return item :: items

/-- The items for order lines, in their order. -/
def enrich (client : CatalogueClient) (useDefaults : Bool) (lines : List OrderLine) :
    Dialogue (List Item) := do
  let products ← client.getProducts (distinctSkus lines)
  let known ← Dialogue.ofFallible (knownOf products)
  enrichFrom client useDefaults known lines

end Stowage.Enrichment
