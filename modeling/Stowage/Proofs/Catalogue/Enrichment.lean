import Mathlib
import Stowage.Catalogue.Enrichment
import Stowage.Catalogue.Prepared
import Stowage.Proofs.Catalogue.Conversation
import Stowage.Proofs.Package.Report

/-!
# What order lines become

An item has the quantity of its line and comes from one of three places: the usual attributes, a
product that names the stock keeping unit of the line, or the product with which the catalogue
answered a question about that unit alone (`FromLine`). The products of a batch are found by the
names they give themselves. That of a single answer is taken whatever it calls itself, and the item
has its name; it is known under the name that was asked for from then on, so what is known is kept
apart by what it answers (`Known.Sound`).
-/

namespace Stowage

namespace CatalogueClient

variable {c : CatalogueClient} {start : ℕ} {log log' : List CatalogueRequest} {sku : RawText}
  {p : Product}

/-- Since `start` requests, the catalogue answered a question about the stock keeping unit alone
with the product. -/
def Offered (c : CatalogueClient) (start : ℕ) (log : List CatalogueRequest) (sku : RawText)
    (p : Product) : Prop :=
  ∃ address reply, productAddress c.baseAddress sku = .ok address ∧
    c.Replied start log ⟨address, .none⟩ reply ∧ readProduct c.depth sku reply = .ok (some p)

theorem Offered.mono (h : c.Offered start log sku p) (hlog : log <+: log') :
    c.Offered start log' sku p := by
  obtain ⟨address, reply, haddress, hreplied, hread⟩ := h
  exact ⟨address, reply, haddress, hreplied.mono hlog, hread⟩

theorem offered_of_getProduct (hstart : start ≤ log.length)
    (h : (c.getProduct sku).run.run log = (.ok (some p), log')) : c.Offered start log' sku p := by
  rcases getProduct_cases h with ⟨-, hr, -⟩ | ⟨_, -, hr, -⟩ | ⟨address, haddress, hr, rfl⟩
  · nomatch hr
  · nomatch hr
  · exact ⟨address, _, haddress, c.replied_concat _ hstart, hr.symm⟩

/-- The product stands for the stock keeping unit: it bears the name, or the catalogue gave it in
answer to the name. -/
def StandsFor (c : CatalogueClient) (start : ℕ) (log : List CatalogueRequest) (sku : RawText)
    (p : Product) : Prop :=
  p.sku = .text sku ∨ c.Offered start log sku p

theorem StandsFor.mono (h : c.StandsFor start log sku p) (hlog : log <+: log') :
    c.StandsFor start log' sku p :=
  h.imp_right fun h => h.mono hlog

end CatalogueClient

namespace Enrichment

variable {c : CatalogueClient} {useDefaults : Bool} {start : ℕ}
  {log log' : List CatalogueRequest} {line : OrderLine} {lines : List OrderLine} {item : Item}
  {items : List Item} {product : Option Product}

/-! ## What is known -/

/-- Every product that is known stands for each text it is known under. -/
def Known.Sound (c : CatalogueClient) (start : ℕ) (log : List CatalogueRequest) (known : Known) :
    Prop :=
  ∀ entry ∈ known, ∀ sku : RawText, entry.1 = .text sku → c.StandsFor start log sku entry.2

variable {known known' : Known}

theorem Known.Sound.mono (h : Known.Sound c start log known) (hlog : log <+: log') :
    Known.Sound c start log' known :=
  fun entry hentry sku hsku => (h entry hentry sku hsku).mono hlog

theorem Known.Sound.cons {sku : RawText} {p : Product} (h : Known.Sound c start log known)
    (hp : c.StandsFor start log sku p) : Known.Sound c start log ((.text sku, p) :: known) := by
  intro entry hentry s hs
  rcases List.mem_cons.1 hentry with rfl | hentry
  · cases hs
    exact hp
  · exact h entry hentry s hs

/-- The products of a batch are known under their own names. -/
theorem sound_of_knownOf {products : List Product} (h : knownOf products = .ok known) :
    Known.Sound c start log known := by
  unfold knownOf at h
  split at h
  · cases h
    intro entry hentry sku hsku
    obtain ⟨p, -, rfl⟩ := List.mem_map.1 (List.mem_reverse.1 hentry)
    exact .inl hsku
  · nomatch h

theorem Known.Sound.of_find? {sku : RawText} {p : Product} (h : Known.Sound c start log known)
    (hfind : find? known sku = some p) : c.StandsFor start log sku p := by
  obtain ⟨entry, hentry, rfl⟩ := Option.map_eq_some_iff.1 hfind
  have hsame : entry.1.same (.text sku) = true := by simpa using List.find?_some hentry
  exact h entry (List.mem_of_find?_eq_some hentry) sku (Json.same_text_iff.1 hsame)

/-! ## One line -/

/-- Looking up the product of a line keeps what is known sound and gives a product for the line. -/
theorem Known.Sound.lookUp (h : Known.Sound c start log known) (hstart : start ≤ log.length)
    (hlook : (Enrichment.lookUp c known line).run.run log = (.ok (product, known'), log')) :
    Known.Sound c start log' known' ∧
      ∀ p, product = some p → c.StandsFor start log' line.sku p := by
  have hlog := lookUp_log hlook
  rcases lookUp_cases hlook with ⟨p, hfind, hr, rfl⟩ | ⟨-, answer, hget, hr⟩
  · cases hr
    refine ⟨h, ?_⟩
    rintro _ ⟨⟩
    exact h.of_find? hfind
  · cases answer with
    | error e => nomatch hr
    | ok answer =>
      cases hr
      cases product with
      | none => exact ⟨h.mono hlog, nofun⟩
      | some p =>
        -- the answer is taken whatever its name, and known under the name asked for
        have hp : c.StandsFor start log' line.sku p :=
          .inr (CatalogueClient.offered_of_getProduct hstart hget)
        refine ⟨(h.mono hlog).cons hp, ?_⟩
        rintro _ ⟨⟩
        exact hp

/-- An item as it may come from a line. -/
inductive FromLine (c : CatalogueClient) (useDefaults : Bool) (start : ℕ)
    (log : List CatalogueRequest) (line : OrderLine) : Item → Prop
  /-- The product is not known, and the settings allow for that. -/
  | usual (h : useDefaults = true) : FromLine c useDefaults start log line (usualItem line)
  /-- There is a product that stands for the stock keeping unit of the line. -/
  | product (p : Product) (h : c.StandsFor start log line.sku p) :
    FromLine c useDefaults start log line (p.toItem (.int line.quantity))

theorem fromLine_of_resolve
    (hproduct : ∀ p, product = some p → c.StandsFor start log line.sku p)
    (h : resolve useDefaults line product = .ok item) :
    FromLine c useDefaults start log line item := by
  cases product with
  | some p =>
    cases h
    exact .product p (hproduct p rfl)
  | none =>
    simp only [resolve] at h
    split at h
    · cases h
      exact .usual ‹_›
    · nomatch h

theorem FromLine.mono (h : FromLine c useDefaults start log line item) (hlog : log <+: log') :
    FromLine c useDefaults start log' line item := by
  cases h with
  | usual h => exact .usual h
  | product p h => exact .product p (h.mono hlog)

theorem FromLine.quantity_eq (h : FromLine c useDefaults start log line item) :
    item.quantity = .int line.quantity := by
  cases h <;> rfl

theorem FromLine.sku_eq (h : FromLine c useDefaults start log line item) :
    item.sku = .text line.sku ∨ ∃ p, c.Offered start log line.sku p ∧ item.sku = p.sku := by
  cases h with
  | usual => exact .inl rfl
  | product p h => exact h.imp id fun h => ⟨p, h, rfl⟩

/-! ## All lines -/

/-- Line by line, items come from the lines. -/
theorem forall₂_fromLine (h : Known.Sound c start log known) (hstart : start ≤ log.length)
    (hrun : (enrichFrom c useDefaults known lines).run.run log = (.ok items, log')) :
    log <+: log' ∧ List.Forall₂ (FromLine c useDefaults start log') lines items := by
  induction lines generalizing known log items with
  | nil =>
    obtain ⟨⟨⟩, rfl⟩ := Prod.mk.inj hrun
    exact ⟨List.prefix_rfl, .nil⟩
  | cons line lines ih =>
    obtain ⟨⟨product, known'⟩, between, hlook, hrun⟩ := Dialogue.bind_eq_ok.1 hrun
    obtain ⟨hsound, hproduct⟩ := h.lookUp hstart hlook
    obtain ⟨item, hitem, hrun⟩ := Dialogue.ofFallible_bind_eq_ok.1 hrun
    obtain ⟨rest, _, hrest, hrun⟩ := Dialogue.bind_eq_ok.1 hrun
    obtain ⟨⟨⟩, rfl⟩ := Prod.mk.inj hrun
    have hlog := lookUp_log hlook
    obtain ⟨hlater, hitems⟩ := ih hsound (hstart.trans hlog.length_le) hrest
    have hfirst := (fromLine_of_resolve hproduct hitem).mono hlater
    exact ⟨hlog.trans hlater, .cons hfirst hitems⟩

theorem fromLine_of_enrich (h : (enrich c useDefaults lines).run.run log = (.ok items, log')) :
    List.Forall₂ (FromLine c useDefaults log.length log') lines items := by
  obtain ⟨products, between, hproducts, h⟩ := Dialogue.bind_eq_ok.1 h
  obtain ⟨known, hknown, h⟩ := Dialogue.ofFallible_bind_eq_ok.1 h
  have hlog := CatalogueClient.getProducts_log hproducts
  exact (forall₂_fromLine (sound_of_knownOf hknown) hlog.length_le h).2

/-- **Enriched items answer their order lines one by one**, whatever the catalogue says. There are
as many items as lines, and each has the quantity of its line. It has the stock keeping unit of its
line too, unless the catalogue was asked about that unit alone since enrichment began and answered
with a product, whose name the item then bears whatever it is. -/
theorem enriched_items_answer_lines
    (h : (enrich c useDefaults lines).run.run log = (.ok items, log')) :
    List.Forall₂ (fun line item => item.quantity = .int line.quantity ∧
      (item.sku = .text line.sku ∨
        ∃ p, c.Offered log.length log' line.sku p ∧ item.sku = p.sku)) lines items :=
  (fromLine_of_enrich h).imp fun _ _ h => ⟨h.quantity_eq, h.sku_eq⟩

/-! ## A catalogue that has only nuts -/

open CatalogueClient

/-- The entry of a nut. -/
def nutEntry : Json :=
  .object [("sku", .text "NUT"),
    ("dimensions", .object [("length", .int 1), ("width", .int 1), ("height", .int 1),
      ("unit", .text "IN")]),
    ("weight", .object [("value", .int 1), ("unit", .text "LB")])]

/-- A nut. -/
def nut : Product :=
  let one : Amount := ⟨Decimal.ofNat 1, Eq.refl true⟩
  { sku := .text "NUT"
    name := .text "NUT"
    dimensions := ⟨one, one, one, .inches⟩
    weight := ⟨one, .pounds⟩
    category := unknownCategory
    fragile := false
    active := true
    description := .null
    barcode := .null }

/-- A client of a catalogue that has no batches, and a nut for everything. -/
def nutClient : CatalogueClient where
  baseAddress := "http://catalog.test"
  catalogue _ request :=
    match request.skus with
    | some _ => .answer 404 []
    | .none => .ofText 200 nutEntry.print
  depth := usualDepth

def twoBolts : OrderLine := ⟨"BOLT", 2, by decide, by decide⟩

def batchOfBolts : CatalogueRequest :=
  ⟨⟨"http", "catalog.test", "/api/v1/products/batch", .none⟩, some "BOLT"⟩

def singleBolt : CatalogueRequest := ⟨boltAddress, .none⟩

theorem getProducts_bolt (log : List CatalogueRequest) :
    (nutClient.getProducts ["BOLT"]).run.run log = (.ok [], log ++ [batchOfBolts]) := by
  have hjoined : joined? ["BOLT"] = some "BOLT" := by decide
  have haddress : batchAddress nutClient.baseAddress ["BOLT"] = .ok batchOfBolts.address :=
    eq_ok_of_toOption (by decide)
  rw [run_getProducts rfl haddress, hjoined]
  rfl

theorem readProduct_nut (sku : RawText) :
    readProduct usualDepth sku (.ofText 200 nutEntry.print) = .ok (some nut) := by
  have hread : readBody usualDepth (Text.Utf8.encode nutEntry.print) = .ok nutEntry := by cbv
  have hparse : parse (.text sku) nutEntry = .ok nut := rfl
  simp only [CatalogueReply.ofText, readProduct, hread, hparse, ok_bind]
  rfl

theorem getProduct_bolt (log : List CatalogueRequest) :
    (nutClient.getProduct "BOLT").run.run log = (.ok (some nut), log ++ [singleBolt]) := by
  have hreply : nutClient.catalogue log.length singleBolt = .ofText 200 nutEntry.print := by
    simp only [nutClient, singleBolt]
  rw [← readProduct_nut "BOLT", ← hreply]
  exact run_getProduct rfl productAddress_bolt

theorem enrich_twoBolts :
    (enrich nutClient true [twoBolts]).run.run [] =
      (.ok [nut.toItem (.int 2)], [batchOfBolts, singleBolt]) := by
  have hlook : (lookUp nutClient [] twoBolts).run.run [batchOfBolts] =
      (.ok (some nut, [(.text "BOLT", nut)]), [batchOfBolts, singleBolt]) :=
    Dialogue.run_bind (getProduct_bolt [batchOfBolts])
  have hrest : (enrichFrom nutClient true [] [twoBolts]).run.run [batchOfBolts] =
      (.ok [nut.toItem (.int 2)], [batchOfBolts, singleBolt]) :=
    Dialogue.bind_eq_ok.2 ⟨_, _, hlook, Dialogue.ofFallible_bind_eq_ok.2
      ⟨_, rfl, Dialogue.bind_eq_ok.2 ⟨[], _, rfl, rfl⟩⟩⟩
  exact Dialogue.bind_eq_ok.2 ⟨[], _, getProducts_bolt [],
    Dialogue.ofFallible_bind_eq_ok.2 ⟨[], rfl, hrest⟩⟩

/-- An order for bolts is answered with as many nuts, which is what the catalogue has for them. -/
theorem enriched_items_answer_lines_bolts :
    (enrich nutClient true [twoBolts]).run.run [] =
        (.ok [nut.toItem (.int 2)], [batchOfBolts, singleBolt]) ∧
      (nut.toItem (.int 2)).quantity = .int twoBolts.quantity ∧
      ∃ p, nutClient.Offered 0 [batchOfBolts, singleBolt] "BOLT" p ∧ p.sku = .text "NUT" := by
  have hitems := enriched_items_answer_lines enrich_twoBolts
  obtain ⟨⟨hquantity, hsku⟩, -⟩ := List.forall₂_cons.1 hitems
  refine ⟨enrich_twoBolts, hquantity, ?_⟩
  rcases hsku with hsku | ⟨p, hp, hsku⟩
  · simp [Product.toItem, nut, twoBolts] at hsku
  · exact ⟨p, hp, hsku.symm⟩

/-- Enriched items need not have the stock keeping units of their lines. -/
theorem bolts_become_nuts :
    ¬ ∀ (c : CatalogueClient) (useDefaults : Bool) (lines : List OrderLine) (items : List Item)
        (log : List CatalogueRequest), (enrich c useDefaults lines).run.run [] = (.ok items, log) →
      List.Forall₂ (fun line item => item.quantity = .int line.quantity ∧
        item.sku = .text line.sku) lines items := by
  intro h
  have hitems := h nutClient true [twoBolts] _ _ enrich_twoBolts
  obtain ⟨⟨-, hsku⟩, -⟩ := List.forall₂_cons.1 hitems
  simp [Product.toItem, nut, twoBolts] at hsku

end Enrichment

end Stowage
