import Stowage.Catalogue.Prepared
import Stowage.Proofs.Catalogue.Address
import Stowage.Proofs.Catalogue.Conversation

/-!
# Which product is asked for

The stock keeping unit of a single product is written into the address as it is, and a hash sign, a
percent sign or a segment of dots in it keep the meaning that they have in addresses. So two units
may come to one address, and a unit to the address for batches. Of units that have none of these
(`Literal`) each has an address of its own, and only one that reads `batch` has the path of the
other question. A unit that is no text of characters is not asked for (`Asks.exists_whole`).
-/

namespace Stowage

/-! ## Appended references -/

namespace Address

variable {base a : Address}

theorem onHost_eq_ok {scheme host : String} {target : List Char}
    (h : onHost scheme host target = .ok a) :
    a = ⟨scheme, host, String.ofList (encodeWith isPathSafe (normalizePath (cutWritten target).1)),
      (cutWritten target).2.map fun q => String.ofList (encodeWith isQuerySafe q)⟩ := by
  unfold onHost at h
  split at h
  split at h
  · simp_all
  · cases h

/-- The path of an address that was read has no question mark. -/
theorem question_not_mem_path {s : String} (h : ofText s = .ok a) : '?' ∉ a.path.toList := by
  have hhost : ∃ scheme host target, onHost scheme host target = .ok a := by
    simp only [ofText] at h
    split at h
    · cases h
    · exact ⟨_, _, _, h⟩
  obtain ⟨scheme, host, target, h⟩ := hhost
  rw [onHost_eq_ok h, String.toList_ofList]
  exact question_not_mem

theorem append_eq_ok {reference : String} (h : base.append reference = .ok a) :
    onHost base.scheme base.host (base.targetWithSlash ++
      (written (encodeWith isPathSafe (cutReference reference.toList).1)
        ((cutReference reference.toList).2.map (encodeWith isQuerySafe))).dropWhile (· == '/')) =
      .ok a := by
  simp only [append] at h
  split at h
  · cases h
  · exact h

/-- A stock keeping unit as a part of an address: its characters before a question mark and those
after it, encoded. -/
def encodedPath (sku : String) : List Char := encodeWith isPathSafe (cutReference sku.toList).1

def encodedQuery (sku : String) : Option (List Char) :=
  (cutReference sku.toList).2.map (encodeWith isQuerySafe)

end Address

namespace CatalogueClient

open Address

/-- The path to single products, without the slashes around it. -/
def stem : List Char := "api/v1/products".toList

theorem toList_productPath : productPath.toList = '/' :: (stem ++ ['/']) := by decide

theorem onHost_of_append {base a : Address} {sku : String}
    (h : base.append (productPath ++ sku) = .ok a) :
    onHost base.scheme base.host (base.targetWithSlash ++ stem ++
      '/' :: written (encodedPath sku) (encodedQuery sku)) = .ok a := by
  have hcut : cutReference (productPath ++ sku).toList =
      (productPath.toList ++ (cutReference sku.toList).1, (cutReference sku.toList).2) := by
    rw [String.toList_append]
    exact cutReference_append (by decide) (by decide)
  have hsafe : encodeWith isPathSafe productPath.toList = productPath.toList :=
    encodeWith_of_safe (List.all_eq_true.1 (by decide))
  have happend := append_eq_ok h
  rw [hcut, encodeWith_append, hsafe, written_append, toList_productPath] at happend
  rw [List.append_assoc]
  exact happend

/-! ## Units that stand for themselves -/

/-- A stock keeping unit without hash and percent signs, and without segments of dots before its
first question mark. -/
structure Literal (sku : String) : Prop where
  fragment : '#' ∉ sku.toList
  percent : '%' ∉ sku.toList
  plain : IsPlain (cutReference sku.toList).1

variable {sku sku' : String} {base a a' : Address}

theorem Literal.percent_not_mem (h : Literal sku) : '%' ∉ (cutReference sku.toList).1 ∧
    ∀ q, (cutReference sku.toList).2 = some q → '%' ∉ q := by
  have hpercent := h.percent
  rw [← written_cutReference h.fragment] at hpercent
  cases hquery : (cutReference sku.toList).2 with
  | none =>
    rw [hquery] at hpercent
    exact ⟨hpercent, nofun⟩
  | some q =>
    rw [hquery, written, List.mem_append, not_or, List.mem_cons, not_or] at hpercent
    refine ⟨hpercent.1, ?_⟩
    rintro _ ⟨⟩
    exact hpercent.2.2

/-- A literal unit can be told from its encoded parts. -/
theorem Literal.eq_of_encoded (h : Literal sku) (h' : Literal sku')
    (hpath : encodedPath sku = encodedPath sku') (hquery : encodedQuery sku = encodedQuery sku') :
    sku = sku' := by
  obtain ⟨hpercent, hpercentQuery⟩ := h.percent_not_mem
  obtain ⟨hpercent', hpercentQuery'⟩ := h'.percent_not_mem
  have hfirst := encodeWith_injective hpercent hpercent' hpath
  have hsecond : (cutReference sku.toList).2 = (cutReference sku'.toList).2 := by
    unfold encodedQuery at hquery
    cases hq : (cutReference sku.toList).2 <;> cases hq' : (cutReference sku'.toList).2 <;>
      rw [hq, hq'] at hquery
    · cases hquery
    · cases hquery
    · rw [encodeWith_injective (hpercentQuery _ hq) (hpercentQuery' _ hq')
        (Option.some.inj hquery)]
  rw [← String.toList_inj, ← written_cutReference h.fragment, hfirst, hsecond,
    written_cutReference h'.fragment]

theorem isQuerySafe_of_mem_written {c : Char}
    (h : c ∈ written (encodedPath sku) (encodedQuery sku)) : isQuerySafe c = true := by
  have hpath {c : Char} (hc : c ∈ encodedPath sku) : isQuerySafe c = true :=
    isQuerySafe_of_isPathSafe (isPathSafe_of_mem hc)
  cases hquery : encodedQuery sku with
  | none =>
    rw [hquery] at h
    exact hpath h
  | some q =>
    obtain ⟨q', -, rfl⟩ := Option.map_eq_some_iff.1 hquery
    rw [hquery, written, List.mem_append, List.mem_cons] at h
    rcases h with h | rfl | h
    · exact hpath h
    · decide
    · exact isQuerySafe_of_mem h

/-! ## Addresses of single products -/

/-- Under a base address without a query, a unit ends up at the end of the path and in the query. -/
theorem exists_path (hbase : '?' ∉ base.targetWithSlash) :
    ∃ front, ∀ sku a, Literal sku → base.append (productPath ++ sku) = .ok a →
      a.path.toList = front ++ encodedPath sku ∧
        a.query = (encodedQuery sku).map String.ofList := by
  obtain ⟨front, hfront⟩ := exists_normalizePath (base.targetWithSlash ++ stem)
  refine ⟨encodeWith isPathSafe front, fun sku a h ha => ?_⟩
  have hquestion : '?' ∉ base.targetWithSlash ++ stem ++ '/' :: encodedPath sku := by
    rw [List.mem_append, List.mem_append, List.mem_cons]
    rintro ((hmem | hmem) | hmem | hmem)
    · exact hbase hmem
    · revert hmem
      decide
    · exact absurd hmem (by decide)
    · exact question_not_mem hmem
  have hself : encodeWith isPathSafe (encodedPath sku) = encodedPath sku :=
    encodeWith_of_safe fun c => isPathSafe_of_mem
  have hnormal : normalizePath (base.targetWithSlash ++ stem ++ '/' :: encodedPath sku) =
      front ++ encodedPath sku := hfront _ (isPlain_encodeWith h.plain)
  have hhost := onHost_eq_ok (onHost_of_append ha)
  have hjoin : base.targetWithSlash ++ stem ++ '/' :: written (encodedPath sku) (encodedQuery sku) =
      written (base.targetWithSlash ++ stem ++ '/' :: encodedPath sku) (encodedQuery sku) := by
    rw [written_append]
    congr 1
    exact (written_append ['/'] _ _).symm
  rw [hjoin, cutWritten_written hquestion] at hhost
  rw [hhost]
  constructor
  · rw [String.toList_ofList, hnormal, encodeWith_append, hself]
  · refine Option.map_congr fun q hq => congrArg String.ofList ?_
    obtain ⟨q', -, rfl⟩ := Option.map_eq_some_iff.1 hq
    exact encodeWith_of_safe fun c => isQuerySafe_of_mem

/-- Under a base address with a query, a unit ends up at the end of that query. -/
theorem exists_query (hbase : '?' ∈ base.targetWithSlash) :
    ∃ path front, ∀ sku a, base.append (productPath ++ sku) = .ok a → a.path = path ∧
      a.query = some (String.ofList (front ++ written (encodedPath sku) (encodedQuery sku))) := by
  obtain ⟨path, query, hsplit, hpath⟩ := List.eq_append_cons_of_mem hbase
  refine ⟨String.ofList (encodeWith isPathSafe (normalizePath path)),
    encodeWith isQuerySafe (query ++ stem ++ ['/']), fun sku a ha => ?_⟩
  have hjoin : base.targetWithSlash ++ stem ++ '/' :: written (encodedPath sku) (encodedQuery sku) =
      written path
        (some (query ++ stem ++ ['/'] ++ written (encodedPath sku) (encodedQuery sku))) := by
    simp [hsplit, written]
  have hself : encodeWith isQuerySafe (written (encodedPath sku) (encodedQuery sku)) =
      written (encodedPath sku) (encodedQuery sku) :=
    encodeWith_of_safe fun c => isQuerySafe_of_mem_written
  have hhost := onHost_eq_ok (onHost_of_append ha)
  rw [hjoin, cutWritten_written hpath] at hhost
  rw [hhost]
  refine ⟨rfl, congrArg (some <| String.ofList ·) ?_⟩
  rw [encodeWith_append, hself]

/-- **The encoded unit stands at the end of its address**, after what is the same for all units. -/
theorem exists_target (base : Address) :
    ∃ front, ∀ sku a, Literal sku → base.append (productPath ++ sku) = .ok a →
      a.target = front ++ written (encodedPath sku) (encodedQuery sku) := by
  by_cases hbase : '?' ∈ base.targetWithSlash
  · obtain ⟨path, front, hfront⟩ := exists_query hbase
    refine ⟨path.toList ++ '?' :: front, fun sku a _ ha => ?_⟩
    obtain ⟨hpath, hquery⟩ := hfront sku a ha
    simp [target, hpath, hquery, written]
  · obtain ⟨front, hfront⟩ := exists_path hbase
    refine ⟨front, fun sku a h ha => ?_⟩
    obtain ⟨hpath, hquery⟩ := hfront sku a h ha
    rw [target, hpath, hquery, written_append, Option.map_map]
    congr 2
    exact (Option.map_congr fun q _ => String.toList_ofList).trans Option.map_id'

/-- **Literal units have different addresses.** -/
theorem Literal.eq_of_append (h : Literal sku) (h' : Literal sku')
    (ha : base.append (productPath ++ sku) = .ok a)
    (ha' : base.append (productPath ++ sku') = .ok a) : sku = sku' := by
  obtain ⟨front, hfront⟩ := exists_target base
  have hwritten := List.append_cancel_left ((hfront sku a h ha).symm.trans (hfront sku' a h' ha'))
  obtain ⟨hpath, hquery⟩ := eq_of_written question_not_mem question_not_mem hwritten
  exact h.eq_of_encoded h' hpath hquery

/-- The unit that reads like the last segment of the path for batches. -/
def batchName : String := "batch"

theorem literal_batchName : Literal batchName := by
  constructor <;> decide

theorem batchPath_eq : batchPath = productPath ++ batchName := by decide

/-- The address for batches is that of the unit of that name. -/
theorem append_of_batchAddress {text : String} {skus : List RawText} {b : Address}
    (hbase : ofText text = .ok base)
    (h : batchAddress text skus = .ok b) : base.append (productPath ++ batchName) = .ok b := by
  unfold batchAddress at h
  rw [hbase, ok_bind, batchPath_eq] at h
  obtain ⟨b', hb', h⟩ := bind_eq_ok.1 h
  split at h
  · split at h
    · cases h
    · rw [hb', pure_eq_ok.1 h]
  · cases h

/-! ## Requests -/

variable {c : CatalogueClient} {request : CatalogueRequest} {skus : List RawText}

/-- The client puts a request when it is asked for a single product. -/
def Asks (c : CatalogueClient) (sku : RawText) (request : CatalogueRequest) : Prop :=
  ∃ log r, (c.getProduct sku).run.run log = (r, log ++ [request])

/-- The client puts a request when it is asked for several products. -/
def AsksBatch (c : CatalogueClient) (skus : List RawText) (request : CatalogueRequest) : Prop :=
  ∃ log r, (c.getProducts skus).run.run log = (r, log ++ [request])

theorem asks_of_productAddress (henabled : c.enabled = true)
    (h : productAddress c.baseAddress sku = .ok a) : c.Asks sku ⟨a, .none⟩ :=
  ⟨[], _, run_getProduct henabled h⟩

theorem Asks.productAddress_eq {unit : RawText} (h : c.Asks unit request) :
    productAddress c.baseAddress unit = .ok request.address := by
  obtain ⟨log, r, h⟩ := h
  rcases getProduct_cases h with ⟨-, -, hlog⟩ | ⟨_, -, -, hlog⟩ | ⟨a, ha, -, hlog⟩
  · simp at hlog
  · simp at hlog
  · obtain rfl := List.singleton_inj.1 (List.append_cancel_left hlog)
    exact ha

theorem Asks.exists_append (h : c.Asks sku request) : ∃ base, ofText c.baseAddress = .ok base ∧
    base.append (productPath ++ sku) = .ok request.address :=
  bind_eq_ok.1 h.productAddress_eq

/-- What the catalogue is asked for is a text of characters. -/
theorem Asks.exists_whole {unit : RawText} (h : c.Asks unit request) : ∃ s : String, unit = s := by
  cases unit with
  | whole s => exact ⟨s, rfl⟩
  | broken t =>
    obtain ⟨base, -, h⟩ := bind_eq_ok.1 h.productAddress_eq
    nomatch h

theorem AsksBatch.batchAddress_eq (h : c.AsksBatch skus request) :
    batchAddress c.baseAddress skus = .ok request.address := by
  obtain ⟨log, r, h⟩ := h
  rcases getProducts_cases h with ⟨-, hlog⟩ | ⟨_, -, -, hlog⟩ | ⟨_, -, a, ha, -, hlog⟩
  · simp at hlog
  · simp at hlog
  · obtain rfl := List.singleton_inj.1 (List.append_cancel_left hlog)
    exact ha

theorem Literal.path_eq_batch_iff (h : Literal sku) (hbase : ofText c.baseAddress = .ok base)
    (hquery : base.query = .none) {single batch : CatalogueRequest} (hsingle : c.Asks sku single)
    (hbatch : c.AsksBatch skus batch) : single.address.path = batch.address.path ↔
      (cutReference sku.toList).1 = batchName.toList := by
  have hquestion : '?' ∉ base.targetWithSlash := by
    have hpath := question_not_mem_path hbase
    simp only [targetWithSlash, target, hquery, Option.map_none, written]
    split
    · exact hpath
    · rw [List.mem_append, not_or]
      exact ⟨hpath, by decide⟩
  obtain ⟨front, hfront⟩ := exists_path hquestion
  obtain ⟨base', hbase', happend⟩ := hsingle.exists_append
  cases hbase.symm.trans hbase'
  have hpath := (hfront sku _ h happend).1
  have hbatch := append_of_batchAddress hbase hbatch.batchAddress_eq
  have hpath' := (hfront _ _ literal_batchName hbatch).1
  have hname : (cutReference batchName.toList).1 = batchName.toList := by decide
  rw [← String.toList_inj, hpath, hpath', List.append_cancel_left_eq, encodedPath, encodedPath,
    hname]
  refine ⟨fun heq => ?_, fun heq => congrArg _ heq⟩
  exact encodeWith_injective h.percent_not_mem.1 (by decide) heq

/-- **A request for a single product says which one**, as far as its unit is literal: different
units have requests at different addresses, and under a base address without a query only a unit
that is called `batch` before its first question mark has the path of the question about several
products. Of units that are no texts of characters there are no requests at all. -/
theorem requests_tell_units_apart (c : CatalogueClient) :
    (∀ unit x, c.Asks unit x → ∃ s : String, unit = s) ∧
    (∀ s t : String, ∀ x y, Literal s → Literal t → c.Asks s x → c.Asks t y →
      x.address = y.address → s = t) ∧
    ∀ (s : String) (skus x y base), Literal s → c.Asks s x → c.AsksBatch skus y →
      ofText c.baseAddress = .ok base → base.query = .none →
        (x.address.path = y.address.path ↔ (cutReference s.toList).1 = batchName.toList) := by
  refine ⟨fun unit x h => h.exists_whole, fun s t x y hs ht hx hy heq => ?_,
    fun s skus x y base hs hx hy hbase hquery => hs.path_eq_batch_iff hbase hquery hx hy⟩
  obtain ⟨base, hbase, hs'⟩ := hx.exists_append
  obtain ⟨base', hbase', ht'⟩ := hy.exists_append
  cases hbase.symm.trans hbase'
  exact hs.eq_of_append ht hs' (heq ▸ ht')

/-! ### Bolts and nuts -/

/-- A client of a catalogue that never answers. -/
def deaf : CatalogueClient :=
  ⟨"http://catalog.test", fun _ _ => .failure, CatalogueClient.usualDepth⟩

/-- The address for several products in a catalogue. -/
def bulkAddress : Address := ⟨"http", "catalog.test", "/api/v1/products/batch", .none⟩

/-- The address of a nut, which asks for its finish. -/
def nutAddress : Address := ⟨"http", "catalog.test", "/api/v1/products/NUT", some "zinc"⟩

theorem asks_bolt : deaf.Asks "BOLT" ⟨boltAddress, .none⟩ :=
  asks_of_productAddress rfl productAddress_bolt

theorem asksBatch_bolt : deaf.AsksBatch ["BOLT"] ⟨bulkAddress, some "BOLT"⟩ :=
  ⟨[], _, run_getProducts rfl (eq_ok_of_toOption (by decide))⟩

theorem requests_tell_bolts_from_nuts : Literal "BOLT" ∧ Literal "NUT?zinc" ∧
    deaf.Asks "BOLT" ⟨boltAddress, .none⟩ ∧ deaf.Asks "NUT?zinc" ⟨nutAddress, .none⟩ ∧
    boltAddress ≠ nutAddress ∧ boltAddress.path ≠ bulkAddress.path := by
  have hbolt : Literal "BOLT" := by constructor <;> decide
  have hnut : Literal "NUT?zinc" := by constructor <;> decide
  have hnuts : deaf.Asks "NUT?zinc" ⟨nutAddress, .none⟩ :=
    asks_of_productAddress rfl (eq_ok_of_toOption (by decide))
  have hbase : ofText deaf.baseAddress = .ok ⟨"http", "catalog.test", "/", .none⟩ :=
    eq_ok_of_toOption (by decide)
  obtain ⟨-, hunits, hpaths⟩ := requests_tell_units_apart deaf
  refine ⟨hbolt, hnut, asks_bolt, hnuts, fun heq => ?_, fun heq => ?_⟩
  · exact absurd (hunits _ _ _ _ hbolt hnut asks_bolt hnuts heq) (by decide)
  · exact absurd ((hpaths _ _ _ _ _ hbolt asks_bolt asksBatch_bolt hbase rfl).1 heq) (by decide)

/-- **Units that are ordered may come to one address**: a bolt and another one whose name goes on
after a hash sign do, and a unit called `batch` comes to the address for several products. -/
theorem bolts_share_an_address :
    (¬ ∀ (c : CatalogueClient) (l m : OrderLine) (x y : CatalogueRequest),
      c.Asks l.sku x → c.Asks m.sku y → x.address = y.address → l.sku = m.sku) ∧
    ¬ ∀ (c : CatalogueClient) (l : OrderLine) (skus : List RawText) (x y : CatalogueRequest),
      c.Asks l.sku x → c.AsksBatch skus y → x.address.path ≠ y.address.path := by
  constructor
  · intro h
    have hother : deaf.Asks "BOLT#2" ⟨boltAddress, .none⟩ :=
      asks_of_productAddress rfl (eq_ok_of_toOption (by decide))
    exact absurd (h deaf ⟨"BOLT", 1, by decide, by decide⟩ ⟨"BOLT#2", 1, by decide, by decide⟩ _ _
      asks_bolt hother rfl) (by decide)
  · intro h
    have hbatch : deaf.Asks "batch" ⟨bulkAddress, .none⟩ :=
      asks_of_productAddress rfl (eq_ok_of_toOption (by decide))
    exact h deaf ⟨"batch", 1, by decide, by decide⟩ ["BOLT"] _ _ hbatch asksBatch_bolt rfl

end CatalogueClient

end Stowage
