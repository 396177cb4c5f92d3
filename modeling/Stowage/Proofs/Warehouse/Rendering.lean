import Mathlib
import Stowage.Proofs.Catalogue.Category
import Stowage.Proofs.Solution.View
import Stowage.Proofs.Store.Cartons
import Stowage.Proofs.Warehouse.Answer
import Stowage.Proofs.Warehouse.Interleaving

/-!
# Calculations after packing

Once the items of an order have been packed, its calculation can only fail because of a category,
or because the name of the order has no octets: the catalogue may give any value for a category,
validation does not look at it, and the view of a solution has texts. With texts the solution is
stored and told of; otherwise the form that was to be shown is rejected and nothing is kept
(`calculate_after_packing`). A number is enough for that (`numbered_category_is_rejected`).
-/

namespace Stowage

theorem Json.ofOption_eq_text {name : Option RawText} {r : RawText} :
    Json.ofOption name = .text r ↔ name = some r := by
  cases name <;> simp [ofOption]

namespace Calculation

variable {desk : Desk} {order : PackingOrder} {w w' : Warehouse} {cartons cs : List Carton}
  {c : Carton} {s : Solution} {request orderId : Option RawText} {items : List Item}
  {log log' : List CatalogueRequest}

/-! ## Packing -/

/-- Items that were prepared have been enriched and have passed validation. -/
theorem prepare_eq_ok (h : (prepare desk order).run.run log = (.ok items, log')) :
    (Enrichment.enrich desk.client desk.settings.useDefaults order.lines).run.run log =
        (.ok items, log') ∧
      Validation.check (some (items.map some)) (some (order.policy desk.settings)) = .ok () := by
  obtain ⟨found, between, hfound, h⟩ := Dialogue.bind_eq_ok.1 h
  obtain ⟨_, hcheck, h⟩ := Dialogue.ofFallible_bind_eq_ok.1 h
  obtain ⟨⟨⟩, rfl⟩ := Prod.mk.inj h
  exact ⟨hfound, hcheck⟩

/-- **A packed solution is shown if the categories that it shows are texts**, and rejected
otherwise. -/
theorem shows_view_of_packOrder (hcartons : ∀ c ∈ cartons, ∃ t, c.name = .text t)
    (hrequest : order.requestId = .ofOption request) (horder : order.orderId = .ofOption orderId)
    (h : packOrder desk order cartons w = (.ok s, w')) : Shows s.view s.Legible := by
  obtain ⟨-, items, log, made, hprepare, hmade, rfl⟩ := packOrder_eq_ok h
  rw [hrequest, horder]
  exact shows_view_of_pack (prepare_eq_ok hprepare).2 hcartons hmade request orderId

/-- It shows texts as long as the catalogue labels its entries. -/
theorem legible_of_packOrder (hlabels : desk.client.Labels)
    (h : packOrder desk order cartons w = (.ok s, w')) : s.Legible := by
  obtain ⟨-, items, log, made, hprepare, hmade, rfl⟩ := packOrder_eq_ok h
  obtain ⟨henrich, hcheck⟩ := prepare_eq_ok hprepare
  have hlegible : made.Legible :=
    legible_of_pack hcheck hmade (Enrichment.hasTextCategory_of_enrich hlabels henrich)
  exact hlegible

/-! ## After packing -/

/-- **What a calculation comes to once its items have been packed**, when the name of the solution
is new and the request was not made before. If the categories that the solution shows are texts, and
the names of the request and the order have octets, it is stored and told of. If a category is none,
it is rejected and the records stay as they are, and they also do so if there are no octets for a
name. The categories are texts as long as those of all entries are that the catalogue may give, for
a product has a category that is a text exactly if its entry has one, or one that counts as
nothing. -/
theorem calculate_after_packing (hnamed : w.cartons.Named)
    (hlist : w.cartons.list true = .ok (c :: cs)) (hrequest : order.requestId = .ofOption request)
    (horder : order.orderId = .ofOption orderId)
    (hpacked : packOrder desk order (c :: cs) w = (.ok s, w'))
    (hid : ∀ u ∈ w.solutions.views, u.solutionId ≠ s.id)
    (hunused : ∀ r, request = some r → w.solutions.answers r = []) :
    (s.Legible → order.requestId.isBroken = false → order.orderId.isBroken = false →
      ∃ v e, s.view = .ok v ∧ s.announcement = .ok e ∧
        w.calculate desk order = (.ok v, { w' with
          solutions := ⟨w.solutions.views ++ [v]⟩
          outbox := w.outbox.push e })) ∧
    (¬ s.Legible → order.requestId.isBroken = false → w.SameRecords w' ∧
      ∃ details, w.calculate desk order = (.error (.rejected details), w')) ∧
    (order.requestId.isBroken = true ∨ s.Legible ∧ order.orderId.isBroken = true →
      (w.calculate desk order).1 = .error .unencodable ∧
        w.SameRecords (w.calculate desk order).2) ∧
    (desk.client.Labels → s.Legible) ∧
    ∀ entry p, Product.ofJson entry = .ok p →
      ∀ quantity, (p.toItem quantity).HasTextCategory ↔ entry.Labelled := by
  have hshows := shows_view_of_packOrder (hnamed.exists_name hlist) hrequest horder hpacked
  obtain ⟨hsame, -, -, made, -, -, hs⟩ := packOrder_eq_ok hpacked
  have hunused' : ∀ r, order.requestId = .text r → w.solutions.answers r = [] := by
    intro r hr
    rw [hrequest, Json.ofOption_eq_text] at hr
    exact hunused r hr
  have hrun (hwhole : order.requestId.isBroken = false) := calculate_eq_run_packed hwhole
    (SolutionTable.answerTo?_eq_none hunused') hlist hpacked
  have hstorable {v : SolutionView} (hview : s.view = .ok v) : SolutionTable.isStorable v =
      (!order.requestId.isBroken && !order.orderId.isBroken) := by
    rw [Solution.isStorable_of_view hview, hs]
  refine ⟨fun hlegible hwhole hcalled => ?_, fun hillegible hwhole => ⟨hsame, ?_⟩,
    fun hbroken => ?_, fun hlabels => legible_of_packOrder hlabels hpacked,
    fun entry p hp quantity => Product.hasTextCategory_iff hp quantity⟩
  · obtain ⟨v, hview⟩ := hshows.shown hlegible
    have hstored : SolutionTable.isStorable v = true := by simp [hstorable hview, hwhole, hcalled]
    obtain ⟨hname, hanswers, -⟩ := Solution.view_eq_ok hview
    have hclash : w'.solutions.clashes v = false := by
      rw [hsame.solutions]
      refine SolutionTable.clashes_eq_false_iff.2 ⟨hname ▸ hid, fun r hr => hunused' _ ?_⟩
      rw [← (hanswers r).1 hr, hs]
    obtain ⟨e, he, hrest⟩ := @run_packed_of_shown desk order w' s v hview hstored hclash
    refine ⟨v, e, hview, he, ?_⟩
    rw [hrun hwhole, hrest, hsame.solutions, hsame.outbox]
  · obtain ⟨details, hview⟩ := hshows.rejected hillegible
    exact ⟨details, (hrun hwhole).trans (run_packed_of_error hview)⟩
  · cases hwhole : order.requestId.isBroken with
    | true =>
      rw [calculate_of_broken hwhole]
      exact ⟨rfl, .refl w⟩
    | false =>
      obtain ⟨hlegible, hcalled⟩ := hbroken.resolve_left (by simp [hwhole])
      obtain ⟨v, hview⟩ := hshows.shown hlegible
      have hunstored : SolutionTable.isStorable v = false := by simp [hstorable hview, hcalled]
      rw [hrun hwhole, run_packed_of_unstorable hview hunstored]
      exact ⟨rfl, hsame⟩

/-! ## The odd item -/

theorem requestId_odd : oddOrder.requestId = .ofOption (some "R") := rfl

theorem orderId_odd : oddOrder.orderId = .ofOption none := rfl

theorem named_room : (room 0 []).cartons.Named := List.forall_mem_singleton.2 ⟨_, rfl⟩

/-- Without a catalogue there are no entries. -/
theorem labels_counter : counter.client.Labels := by
  rintro entry ⟨n, request, status, body, document, hreply, -⟩
  nomatch hreply

/-- The odd item is packed, shown and stored. -/
theorem calculate_after_packing_odd : (room 0 []).cartons.list true = .ok [binCarton] ∧
    packOrder counter oddOrder [binCarton] (room 0 []) = (.ok (oddSolution ⟨0, 0⟩), room 1 []) ∧
    ∃ v e, (oddSolution ⟨0, 0⟩).view = .ok v ∧ (oddSolution ⟨0, 0⟩).announcement = .ok e ∧
      (room 0 []).calculate counter oddOrder =
        (.ok v, { room 1 [v] with outbox := (room 0 []).outbox.push e }) := by
  obtain ⟨hshown, -, -, hlegible, -⟩ := calculate_after_packing named_room list_bin requestId_odd
    orderId_odd (packOrder_odd 0 []) (by simp [room]) (by simp [room, SolutionTable.answers])
  obtain ⟨v, e, hview, he, hcalculate⟩ := hshown (hlegible labels_counter) rfl rfl
  exact ⟨list_bin, packOrder_odd 0 [], v, e, hview, he, hcalculate⟩

/-! ### A number for a category -/

open CatalogueClient Enrichment Packing Package

/-- The entry of an odd item with a number for its category. -/
def numberedEntry : Json :=
  .object [("sku", .text "ODD"),
    ("dimensions", .object [("length", .int 5), ("width", .int 5), ("height", .int 5),
      ("unit", .text "IN")]),
    ("weight", .object [("value", .int 1), ("unit", .text "LB")]),
    ("category", .int 5)]

/-- The product of that entry. -/
def numbered : Product where
  sku := .text "ODD"
  name := .text "ODD"
  dimensions := usualDimensions
  weight := usualWeight
  category := .int 5
  fragile := false
  active := true
  description := .null
  barcode := .null

/-- One piece of it. -/
def numberedItem : Item := numbered.toItem (.int 1)

/-- A counter with a catalogue that answers every question with the entry in a list. -/
def numberedCounter : Desk where
  settings := .usual
  client := ⟨"http://catalog.test", fun _ _ => .ofText 200 (Json.array [numberedEntry]).print,
    usualDepth⟩

def batchOfOdd : CatalogueRequest :=
  ⟨⟨"http", "catalog.test", "/api/v1/products/batch", .none⟩, some "ODD"⟩

theorem getProducts_numbered (log : List CatalogueRequest) :
    (numberedCounter.client.getProducts ["ODD"]).run.run log =
      (.ok [numbered], log ++ [batchOfOdd]) := by
  have hjoined : joined? ["ODD"] = some "ODD" := by decide
  have haddress : batchAddress numberedCounter.client.baseAddress ["ODD"] =
      .ok batchOfOdd.address := eq_ok_of_toOption (by decide)
  have hread : readBody numberedCounter.client.depth
      (Text.Utf8.encode (Json.array [numberedEntry]).print) = .ok (.array [numberedEntry]) := by cbv
  have hparse : parseBatch (.array [numberedEntry]) = .ok [numbered] := rfl
  have hreply : readProducts numberedCounter.client.depth "ODD"
      (.ofText 200 (Json.array [numberedEntry]).print) = .ok [numbered] := by
    simp [CatalogueReply.ofText, readProducts, hread, hparse]
  rw [run_getProducts rfl haddress, hjoined, ← hreply]
  rfl

-- so that roundings of given decimals can be computed
attribute [local semireducible] digitCount

theorem prepare_numbered (log : List CatalogueRequest) :
    (prepare numberedCounter oddOrder).run.run log = (.ok [numberedItem], log ++ [batchOfOdd]) := by
  have henrich : (enrich numberedCounter.client numberedCounter.settings.useDefaults
      oddOrder.lines).run.run log = (.ok [numberedItem], log ++ [batchOfOdd]) :=
    Dialogue.bind_eq_ok.2 ⟨_, _, getProducts_numbered log,
      Dialogue.ofFallible_bind_eq_ok.2 ⟨_, rfl, rfl⟩⟩
  have hcheck : Validation.check (some ([numberedItem].map some))
      (some (oddOrder.policy numberedCounter.settings)) = .ok () := eq_ok_of_toOption (by decide)
  rw [prepare, Dialogue.run_bind henrich, hcheck]
  rfl

/-- The bin with the numbered item in it. -/
def binOfNumbered : Package := { binOfOdd with items := [numberedItem] }

theorem add_numbered : (ofCarton binCarton).add numberedItem .usual = .ok binOfNumbered :=
  add_eq_ok_iff.2 ⟨bind_eq_ok_of_toOption odd_fits (by decide), _, _,
    eq_ok_of_toOption (by decide), eq_ok_of_toOption (by decide), rfl⟩

theorem packages_numbered :
    Packing.packages [numberedItem] [binCarton] .usual = .ok [binOfNumbered] := by
  have hitem : numberedItem.sortVolume = .ok ⟨false, 204838, -2⟩ := eq_ok_of_toOption (by decide)
  have hcarton : cartonVolume binCarton = .ok ⟨false, 353961, -2⟩ := eq_ok_of_toOption (by decide)
  exact packages_singleton rfl hitem rfl hcarton odd_fits add_numbered

/-- The solution for the numbered item. -/
def numberedSolution : Solution :=
  { (Solution.create [binOfNumbered] none ⟨0, 0⟩).1 with requestId := .text "R" }

theorem packOrder_numbered : packOrder numberedCounter oddOrder [binCarton] (room 0 []) =
    (.ok numberedSolution, { room 1 [] with asked := [batchOfOdd] }) := by
  have hmean : (Solution.create [binOfNumbered] none ⟨0, 0⟩).1.averageUtilization =
      .ok ⟨false, 5787, -4⟩ := eq_ok_of_toOption (by decide)
  have hpolicy : oddOrder.policy numberedCounter.settings = .usual := rfl
  have hpack : pack [numberedItem] [binCarton] .usual (room 0 []).supply =
      (.ok (Solution.create [binOfNumbered] none ⟨0, 0⟩).1,
        (Solution.create [binOfNumbered] none ⟨0, 0⟩).2) := by
    rw [pack, packages_numbered]
    simp [room, hmean, Except.map]
  rw [packOrder, prepare_numbered]
  simp only [hpolicy, hpack]
  rfl

theorem not_legible_numbered : ¬ numberedSolution.Legible := by
  intro h
  obtain ⟨s, hs⟩ := h binOfNumbered List.mem_cons_self [⟨numberedItem, .int 1⟩] rfl _
    List.mem_cons_self
  nomatch hs

/-- **A calculation may fail after packing.** It does when the category of a product is a number,
which the catalogue may give and which passes validation. -/
theorem numbered_category_is_rejected : ¬ ∀ (desk : Desk) (order : PackingOrder) (w w' : Warehouse)
    (c : Carton) (cs : List Carton) (s : Solution) (request orderId : Option RawText),
    w.cartons.Named → w.cartons.list true = .ok (c :: cs) →
    order.requestId = .ofOption request → order.orderId = .ofOption orderId →
    packOrder desk order (c :: cs) w = (.ok s, w') →
    (∀ u ∈ w.solutions.views, u.solutionId ≠ s.id) →
    (∀ r, request = some r → w.solutions.answers r = []) →
    order.requestId.isBroken = false → order.orderId.isBroken = false →
    ∃ v, (w.calculate desk order).1 = .ok v := by
  intro h
  obtain ⟨v, hv⟩ := h numberedCounter oddOrder (room 0 []) _ binCarton [] _ (some "R") none
    named_room list_bin requestId_odd orderId_odd packOrder_numbered (by simp [room])
    (by simp [room, SolutionTable.answers]) rfl rfl
  have hshows := shows_view_of_packOrder (named_room.exists_name list_bin) requestId_odd
    orderId_odd packOrder_numbered
  obtain ⟨details, hview⟩ := hshows.rejected not_legible_numbered
  have hrun := calculate_eq_run_packed rfl (by rfl) list_bin packOrder_numbered
  rw [hrun, run_packed_of_error hview] at hv
  cases hv

end Calculation

end Stowage
