import Stowage.Proofs.Catalogue.Failure
import Stowage.Proofs.Packing.Compatibility

/-!
# The categories of products

A product has the category of its entry, whatever kind of value that is, unless it counts as nothing
(`Product.hasTextCategory_iff`). The items of an order come from entries that the catalogue gave, or
have the usual attributes (`described_of_enrich`); so their categories are texts as long as those
of all entries are (`hasTextCategory_of_enrich`).
-/

namespace Stowage

/-! ## Entries -/

/-- The category of an entry is a text, if it counts as something. -/
def Json.Labelled (entry : Json) : Prop :=
  (entry.field "category").truthy = true → ∃ s, entry.field "category" = .text s

namespace Product

variable {entry : Json} {p : Product}

/-- **The pieces of a product have a category that is a text exactly if its entry has one**, or one
that counts as nothing. -/
theorem hasTextCategory_iff (h : ofJson entry = .ok p) (quantity : Json) :
    (p.toItem quantity).HasTextCategory ↔ entry.Labelled := by
  have hcategory : (p.toItem quantity).category =
      (entry.field "category").orElse unknownCategory := (Enrichment.fields_of_ofJson h).2
  rw [Item.HasTextCategory, hcategory, Json.orElse, Json.Labelled]
  split_ifs with htruthy
  · exact (imp_iff_right htruthy).symm
  · exact iff_of_true ⟨_, rfl⟩ fun h => absurd h htruthy

end Product

/-! ## What a catalogue gives -/

namespace CatalogueClient

variable {c : CatalogueClient} {sku : RawText} {skus : List RawText} {reply : CatalogueReply}
  {log log' : List CatalogueRequest} {p : Product}

/-- The catalogue may give the entry, by itself or in a list. -/
def Gives (c : CatalogueClient) (entry : Json) : Prop :=
  ∃ n request status body document, c.catalogue n request = .answer status body ∧
    readBody c.depth body = .ok document ∧
      (document = entry ∨ ∃ entries, document = .array entries ∧ entry ∈ entries)

/-- The product is that of an entry which the catalogue may give. -/
def Describes (c : CatalogueClient) (p : Product) : Prop :=
  ∃ entry, c.Gives entry ∧ Product.ofJson entry = .ok p

/-- All entries that the catalogue may give are labelled. -/
def Labels (c : CatalogueClient) : Prop := ∀ entry, c.Gives entry → entry.Labelled

theorem entry_of_readProduct {depth : ℕ} (h : readProduct depth sku reply = .ok (some p)) :
    ∃ body entry, reply = .answer 200 body ∧ readBody depth body = .ok entry ∧
      Product.ofJson entry = .ok p := by
  cases reply with
  | failure => cases h
  | answer status body =>
    simp only [readProduct] at h
    split_ifs at h with hmissing hstatus
    · cases h
    · cases h
    · obtain rfl : status = 200 := by simpa using hstatus
      obtain ⟨entry, hbody, h⟩ := bind_eq_ok.1 h
      obtain ⟨product, hparse, h⟩ := bind_eq_ok.1 h
      cases pure_eq_ok.1 h
      exact ⟨body, entry, rfl, hbody, ofJson_of_parse hparse⟩

theorem describes_of_getProduct (h : (c.getProduct sku).run.run log = (.ok (some p), log')) :
    c.Describes p := by
  rcases getProduct_cases h with ⟨-, hr, -⟩ | ⟨_, -, hr, -⟩ | ⟨address, -, hr, -⟩
  · nomatch hr
  · nomatch hr
  · obtain ⟨body, entry, hreply, hbody, hentry⟩ := entry_of_readProduct hr.symm
    exact ⟨entry, ⟨_, _, _, body, entry, hreply, hbody, .inl rfl⟩, hentry⟩

theorem describes_of_getProducts {products : List Product}
    (h : (c.getProducts skus).run.run log = (.ok products, log')) (hp : p ∈ products) :
    c.Describes p := by
  obtain ⟨address, body, entries, -, hreply, hbody, entry, hmem, hentry⟩ :=
    entry_of_getProducts h hp
  exact ⟨entry, ⟨_, _, _, body, _, hreply, hbody, .inr ⟨entries, rfl, hmem⟩⟩, hentry⟩

end CatalogueClient

namespace Enrichment

variable {c : CatalogueClient} {useDefaults : Bool} {known known' : Known} {line : OrderLine}
  {lines : List OrderLine} {product : Option Product} {item : Item} {items : List Item}
  {log log' : List CatalogueRequest}

/-- An item with the usual attributes, or one of a product that the catalogue describes. -/
inductive Described (c : CatalogueClient) : Item → Prop
  | usual (line : OrderLine) : Described c (usualItem line)
  | product {p : Product} (h : c.Describes p) (quantity : Json) : Described c (p.toItem quantity)

/-- Looking up a product adds to what is known only what the catalogue describes. -/
theorem describes_of_lookUp (h : ∀ entry ∈ known, c.Describes entry.2)
    (hlook : (lookUp c known line).run.run log = (.ok (product, known'), log')) :
    (∀ entry ∈ known', c.Describes entry.2) ∧ ∀ p, product = some p → c.Describes p := by
  rcases lookUp_cases hlook with ⟨p, hfind, hr, -⟩ | ⟨-, answer, hget, hr⟩
  · cases hr
    obtain ⟨entry, hentry, rfl⟩ := Option.map_eq_some_iff.1 hfind
    refine ⟨h, ?_⟩
    rintro _ ⟨⟩
    exact h entry (List.mem_of_find?_eq_some hentry)
  · cases answer with
    | error e => nomatch hr
    | ok answer =>
      cases hr
      cases product with
      | none => exact ⟨h, nofun⟩
      | some p =>
        have hp := CatalogueClient.describes_of_getProduct hget
        refine ⟨List.forall_mem_cons.2 ⟨hp, h⟩, ?_⟩
        rintro _ ⟨⟩
        exact hp

theorem described_of_resolve (hproduct : ∀ p, product = some p → c.Describes p)
    (h : resolve useDefaults line product = .ok item) : Described c item := by
  cases product with
  | some p =>
    cases h
    exact .product (hproduct p rfl) _
  | none =>
    simp only [resolve] at h
    split_ifs at h
    · cases h
      exact .usual line
    · cases h

theorem described_of_enrichFrom (h : ∀ entry ∈ known, c.Describes entry.2)
    (hrun : (enrichFrom c useDefaults known lines).run.run log = (.ok items, log')) :
    ∀ i ∈ items, Described c i := by
  induction lines generalizing known log log' items with
  | nil =>
    obtain ⟨⟨⟩, -⟩ := Prod.mk.inj hrun
    simp
  | cons line lines ih =>
    obtain ⟨⟨product, known'⟩, between, hlook, hrun⟩ := Dialogue.bind_eq_ok.1 hrun
    obtain ⟨hknown, hproduct⟩ := describes_of_lookUp h hlook
    obtain ⟨item, hitem, hrun⟩ := Dialogue.ofFallible_bind_eq_ok.1 hrun
    obtain ⟨rest, _, hrest, hrun⟩ := Dialogue.bind_eq_ok.1 hrun
    obtain ⟨⟨⟩, -⟩ := Prod.mk.inj hrun
    exact List.forall_mem_cons.2 ⟨described_of_resolve hproduct hitem, ih hknown hrest⟩

/-- **Every item comes from an entry that the catalogue may give**, or has the usual attributes. -/
theorem described_of_enrich (h : (enrich c useDefaults lines).run.run log = (.ok items, log')) :
    ∀ i ∈ items, Described c i := by
  obtain ⟨products, between, hproducts, h⟩ := Dialogue.bind_eq_ok.1 h
  obtain ⟨known, hknown, h⟩ := Dialogue.ofFallible_bind_eq_ok.1 h
  refine described_of_enrichFrom (fun entry hentry => ?_) h
  unfold knownOf at hknown
  split_ifs at hknown
  cases hknown
  obtain ⟨p, hp, rfl⟩ := List.mem_map.1 (List.mem_reverse.1 hentry)
  exact CatalogueClient.describes_of_getProducts hproducts hp

/-- Categories are texts as long as the catalogue labels its entries. -/
theorem hasTextCategory_of_enrich (hc : c.Labels)
    (h : (enrich c useDefaults lines).run.run log = (.ok items, log')) :
    ∀ i ∈ items, i.HasTextCategory := by
  intro i hi
  cases described_of_enrich h i hi with
  | usual line => exact ⟨_, rfl⟩
  | product hp quantity =>
    obtain ⟨entry, hgives, hentry⟩ := hp
    exact (Product.hasTextCategory_iff hentry quantity).2 (hc entry hgives)

end Enrichment

end Stowage
