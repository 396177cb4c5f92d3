import Stowage.Catalogue.Enrichment
import Stowage.Catalogue.Prepared
import Stowage.Proofs.Catalogue.Conversation

/-!
# How conversations with the catalogue fail

A failed connection, a status other than 200 and 404, and an entry that describes no product are
refusals because of the catalogue. What these leave out is listed here, and nothing else gets past
them: an address that cannot be formed, a stock keeping unit that has no octets to be written with,
a body that cannot be read, and for a batch a document that is no list of objects (`SingleEscape`,
`BatchEscape`). A body cannot be read when it is no document,
when its octets stand for no text, when an integer in it has too many digits, and when it is nested
too deep (`Json.ReadError`). Enrichment adds the name of a product that is
no scalar (`EnrichmentEscape`), and otherwise fails only by refusals of its own kind or because of
the catalogue (`failure_of_enrich`).
-/

namespace Stowage

/-- The failure is a refusal of the kind. -/
def Failure.HasKind (kind : ErrorKind) : Failure → Prop
  | .domain e => e.kind = kind
  | _ => False

/-- The document is a list of objects. -/
def Json.IsListing (document : Json) : Prop :=
  ∃ entries, document = .array entries ∧ ∀ entry ∈ entries, ∃ members, entry = .object members

namespace CatalogueClient

variable {c : CatalogueClient} {n depth : ℕ} {log log' : List CatalogueRequest} {sku : RawText}
  {skus : List RawText} {reply : CatalogueReply} {body : List UInt8} {document : Json} {f : Failure}

/-! ## Reading replies -/

theorem readBody_eq_error (h : readBody depth body = .error f) : ∃ why, f = .unreadable why := by
  unfold readBody at h
  cases hread : Json.ofOctets? depth body with
  | ok document =>
    rw [hread] at h
    nomatch h
  | error why =>
    rw [hread] at h
    cases h
    exact ⟨why, rfl⟩

theorem parse_eq_error {sku entry : Json} (h : parse sku entry = .error f) :
    f.HasKind .catalogUnavailable := by
  unfold parse at h
  split at h
  · nomatch h
  · cases h
    rfl

theorem ofJson_of_parse {sku entry : Json} {p : Product} (h : parse sku entry = .ok p) :
    Product.ofJson entry = .ok p := by
  unfold parse at h
  split at h
  · cases h
    assumption
  · nomatch h

theorem readProduct_eq_error (h : readProduct depth sku reply = .error f) :
    f.HasKind .catalogUnavailable ∨
      ∃ body, reply = .answer 200 body ∧ readBody depth body = .error f := by
  cases reply with
  | failure =>
    cases h
    exact .inl rfl
  | answer status body =>
    simp only [readProduct] at h
    split_ifs at h with hmissing hstatus
    · cases h
      exact .inl rfl
    · obtain rfl : status = 200 := by simpa using hstatus
      rcases bind_eq_error.1 h with h | ⟨document, -, h⟩
      · exact .inr ⟨body, rfl, h⟩
      · rcases bind_eq_error.1 h with h | ⟨p, -, h⟩
        · exact .inl (parse_eq_error h)
        · nomatch h

/-- Only an answer with status 404 says that there is no product. -/
theorem readProduct_eq_none (h : readProduct depth sku reply = .ok .none) :
    ∃ body, reply = .answer 404 body := by
  cases reply with
  | failure => nomatch h
  | answer status body =>
    simp only [readProduct] at h
    split_ifs at h with hmissing hstatus
    · exact ⟨body, by rw [hmissing]⟩
    · nomatch h
    · obtain ⟨document, -, h⟩ := bind_eq_ok.1 h
      obtain ⟨p, -, h⟩ := bind_eq_ok.1 h
      nomatch h

/-- A document that is no list has no entries: it is an empty batch, or none at all. -/
theorem parseBatch_of_not_array (h : ∀ entries, document ≠ .array entries) :
    parseBatch document = .ok [] ∨ parseBatch document = .error .absentValue ∨
      parseBatch document = .error .wrongKind := by
  cases document with
  | array entries => exact absurd rfl (h entries)
  | object members =>
    by_cases hempty : members.isEmpty = true
    · simp [parseBatch, hempty]
    · simp [parseBatch, hempty]
  | text s =>
    by_cases hempty : s.isEmpty = true
    · simp [parseBatch, hempty]
    · simp [parseBatch, hempty]
  | _ => simp [parseBatch]

theorem parseBatch_eq_error (h : parseBatch document = .error f) :
    f.HasKind .catalogUnavailable ∨
      ¬ document.IsListing ∧ (f = .absentValue ∨ f = .wrongKind) := by
  by_cases harray : ∃ entries, document = .array entries
  · obtain ⟨entries, rfl⟩ := harray
    obtain ⟨entry, hentry, h⟩ := mapM_eq_error h
    cases entry with
    | object members => exact .inl (parse_eq_error h)
    | _ =>
      -- the entry at fault is itself what makes the document no listing
      cases h
      refine .inr ⟨?_, .inl rfl⟩
      rintro ⟨_, ⟨⟩, hobjects⟩
      obtain ⟨members, hmembers⟩ := hobjects _ hentry
      nomatch hmembers
  · have hlisting : ¬ document.IsListing := fun ⟨entries, hentries, _⟩ => harray ⟨entries, hentries⟩
    rcases parseBatch_of_not_array (not_exists.1 harray) with h' | h' | h' <;> rw [h'] at h
    · nomatch h
    · cases h
      exact .inr ⟨hlisting, .inl rfl⟩
    · cases h
      exact .inr ⟨hlisting, .inr rfl⟩

/-- The products of a batch are those of the entries of a list. -/
theorem mem_parseBatch {products : List Product} {p : Product}
    (h : parseBatch document = .ok products) (hp : p ∈ products) :
    ∃ entries, document = .array entries ∧ ∃ entry ∈ entries, Product.ofJson entry = .ok p := by
  by_cases harray : ∃ entries, document = .array entries
  · obtain ⟨entries, rfl⟩ := harray
    obtain ⟨entry, hentry, hparse⟩ := (mem_of_mapM h).1 p hp
    refine ⟨entries, rfl, entry, hentry, ?_⟩
    cases entry with
    | object members => exact ofJson_of_parse hparse
    | _ => nomatch hparse
  · rcases parseBatch_of_not_array (not_exists.1 harray) with h' | h' | h' <;> rw [h'] at h
    · cases h
      nomatch hp
    · nomatch h
    · nomatch h

theorem readProducts_eq_error {first : RawText} (h : readProducts depth first reply = .error f) :
    f.HasKind .catalogUnavailable ∨ ∃ body, reply = .answer 200 body ∧
      (readBody depth body = .error f ∨ ∃ document, readBody depth body = .ok document ∧
        parseBatch document = .error f ∧
          ¬ document.IsListing ∧ (f = .absentValue ∨ f = .wrongKind)) := by
  cases reply with
  | failure =>
    cases h
    exact .inl rfl
  | answer status body =>
    simp only [readProducts] at h
    split_ifs at h with hmissing hstatus
    · cases h
      exact .inl rfl
    · obtain rfl : status = 200 := by simpa using hstatus
      rcases bind_eq_error.1 h with h | ⟨document, hbody, h⟩
      · exact .inr ⟨body, rfl, .inl h⟩
      · rcases parseBatch_eq_error h with hkind | hdocument
        · exact .inl hkind
        · exact .inr ⟨body, rfl, .inr ⟨document, hbody, h, hdocument⟩⟩

theorem mem_readProducts {first : RawText} {products : List Product} {p : Product}
    (h : readProducts depth first reply = .ok products) (hp : p ∈ products) :
    ∃ body entries, reply = .answer 200 body ∧ readBody depth body = .ok (.array entries) ∧
      ∃ entry ∈ entries, Product.ofJson entry = .ok p := by
  cases reply with
  | failure => nomatch h
  | answer status body =>
    simp only [readProducts] at h
    split_ifs at h with hmissing hstatus
    · cases h
      nomatch hp
    · nomatch h
    · obtain rfl : status = 200 := by simpa using hstatus
      obtain ⟨document, hbody, h⟩ := bind_eq_ok.1 h
      obtain ⟨entries, rfl, hentry⟩ := mem_parseBatch h hp
      exact ⟨body, entries, rfl, hbody, hentry⟩

/-! ## Questions -/

/-- How a question about one product, put after `n` requests, fails without being refused. -/
inductive SingleEscape (c : CatalogueClient) (n : ℕ) (sku : RawText) : Failure → Prop
  /-- There is no address for the stock keeping unit. -/
  | address (haddress : productAddress c.baseAddress sku = .error .invalidAddress) :
    SingleEscape c n sku .invalidAddress
  /-- There are no octets to write the stock keeping unit with. -/
  | broken (haddress : productAddress c.baseAddress sku = .error .unencodable)
    (hsku : sku.isWhole = false) : SingleEscape c n sku .unencodable
  /-- The body of the answer cannot be read. -/
  | body {address : Address} {body : List UInt8} {why : Json.ReadError}
    (haddress : productAddress c.baseAddress sku = .ok address)
    (hreply : c.catalogue n ⟨address, .none⟩ = .answer 200 body)
    (hbody : readBody c.depth body = .error (.unreadable why)) :
    SingleEscape c n sku (.unreadable why)

/-- How a question about several products, put after `n` requests, fails without being refused. -/
inductive BatchEscape (c : CatalogueClient) (n : ℕ) (skus : List RawText) : Failure → Prop
  /-- There is no address for the stock keeping units. -/
  | address (haddress : batchAddress c.baseAddress skus = .error .invalidAddress) :
    BatchEscape c n skus .invalidAddress
  /-- There are no octets to write one of the stock keeping units with. -/
  | broken {sku : RawText} (haddress : batchAddress c.baseAddress skus = .error .unencodable)
    (hmem : sku ∈ skus) (hsku : sku.isWhole = false) : BatchEscape c n skus .unencodable
  /-- The body of the answer cannot be read. -/
  | body {address : Address} {body : List UInt8} {why : Json.ReadError}
    (haddress : batchAddress c.baseAddress skus = .ok address)
    (hreply : c.catalogue n ⟨address, joined? skus⟩ = .answer 200 body)
    (hbody : readBody c.depth body = .error (.unreadable why)) :
    BatchEscape c n skus (.unreadable why)
  /-- The document in the body is no list of objects. -/
  | document {address : Address} {body : List UInt8} {document : Json} {f : Failure}
    (haddress : batchAddress c.baseAddress skus = .ok address)
    (hreply : c.catalogue n ⟨address, joined? skus⟩ = .answer 200 body)
    (hbody : readBody c.depth body = .ok document) (hparse : parseBatch document = .error f)
    (hdocument : ¬ document.IsListing) (hf : f = .absentValue ∨ f = .wrongKind) :
    BatchEscape c n skus f

theorem SingleEscape.cases (h : SingleEscape c n sku f) :
    f = .invalidAddress ∨ f = .unencodable ∨ ∃ why, f = .unreadable why := by
  cases h with
  | address => exact .inl rfl
  | broken => exact .inr (.inl rfl)
  | body => exact .inr (.inr ⟨_, rfl⟩)

theorem BatchEscape.cases (h : BatchEscape c n skus f) :
    f = .invalidAddress ∨ f = .unencodable ∨ (∃ why, f = .unreadable why) ∨ f = .absentValue ∨
      f = .wrongKind := by
  cases h with
  | address => exact .inl rfl
  | broken => exact .inr (.inl rfl)
  | body => exact .inr (.inr (.inl ⟨_, rfl⟩))
  | document _ _ _ _ _ hf => exact .inr (.inr (.inr hf))

theorem failure_of_getProduct (h : (c.getProduct sku).run.run log = (.error f, log')) :
    f.HasKind .catalogUnavailable ∨ SingleEscape c log.length sku f := by
  rcases getProduct_cases h with ⟨-, hr, -⟩ | ⟨_, haddress, hr, -⟩ | ⟨address, haddress, hr, -⟩
  · nomatch hr
  · cases hr
    rcases productAddress_eq_error haddress with rfl | ⟨rfl, hsku⟩
    · exact .inr (.address haddress)
    · exact .inr (.broken haddress hsku)
  · rcases readProduct_eq_error hr.symm with hkind | ⟨body, hreply, hbody⟩
    · exact .inl hkind
    · obtain ⟨why, rfl⟩ := readBody_eq_error hbody
      exact .inr (.body haddress hreply hbody)

theorem failure_of_getProducts (h : (c.getProducts skus).run.run log = (.error f, log')) :
    f.HasKind .catalogUnavailable ∨ BatchEscape c log.length skus f := by
  rcases getProducts_cases h with
    ⟨hr, -⟩ | ⟨_, haddress, hr, -⟩ | ⟨_, -, address, haddress, hr, -⟩
  · nomatch hr
  · cases hr
    rcases batchAddress_eq_error haddress with rfl | ⟨rfl, sku, hmem, hsku⟩
    · exact .inr (.address haddress)
    · exact .inr (.broken haddress hmem hsku)
  · rcases readProducts_eq_error hr.symm with
      hkind | ⟨body, hreply, hbody | ⟨document, hbody, hparse, hdocument, hf⟩⟩
    · exact .inl hkind
    · obtain ⟨why, rfl⟩ := readBody_eq_error hbody
      exact .inr (.body haddress hreply hbody)
    · exact .inr (.document haddress hreply hbody hparse hdocument hf)

/-- Where there is a catalogue, every escape of a question about one product is how it fails. -/
theorem SingleEscape.run (h : SingleEscape c log.length sku f) (henabled : c.enabled = true) :
    ((c.getProduct sku).run.run log).1 = .error f := by
  cases h with
  | address haddress | broken haddress =>
    rw [getProduct, if_pos henabled, haddress]
    rfl
  | body haddress hreply hbody =>
    rw [run_getProduct henabled haddress, hreply]
    simp [readProduct, hbody]

/-- Where there is a catalogue, every escape of a question about several products is how it
fails. -/
theorem BatchEscape.run (h : BatchEscape c log.length skus f) (henabled : c.enabled = true)
    (hskus : skus ≠ []) : ((c.getProducts skus).run.run log).1 = .error f := by
  obtain ⟨first, rest, rfl⟩ := List.exists_cons_of_ne_nil hskus
  cases h with
  | address haddress | broken haddress =>
    simp only [getProducts, if_pos henabled, haddress]
    rfl
  | body haddress hreply hbody =>
    rw [run_getProducts henabled haddress, hreply]
    simp [readProducts, hbody]
  | document haddress hreply hbody hparse =>
    rw [run_getProducts henabled haddress, hreply]
    simp [readProducts, hbody, hparse]

/-- The products of a batch are those of the entries of a document. -/
theorem entry_of_getProducts {products : List Product} {p : Product}
    (h : (c.getProducts skus).run.run log = (.ok products, log')) (hp : p ∈ products) :
    ∃ address body entries, batchAddress c.baseAddress skus = .ok address ∧
      c.catalogue log.length ⟨address, joined? skus⟩ = .answer 200 body ∧
      readBody c.depth body = .ok (.array entries) ∧
      ∃ entry ∈ entries, Product.ofJson entry = .ok p := by
  rcases getProducts_cases h with ⟨hr, -⟩ | ⟨_, -, hr, -⟩ | ⟨first, -, address, haddress, hr, -⟩
  · cases hr
    nomatch hp
  · nomatch hr
  · obtain ⟨body, entries, hreply, hbody, hentry⟩ := mem_readProducts hr.symm hp
    exact ⟨address, body, entries, haddress, hreply, hbody, hentry⟩

end CatalogueClient

namespace Enrichment

open CatalogueClient

variable {c : CatalogueClient} {useDefaults : Bool} {n : ℕ} {log log' : List CatalogueRequest}
  {line : OrderLine} {lines : List OrderLine} {known : Known} {f : Failure}

/-- How enrichment that starts after `n` requests fails without a refusal. -/
inductive EnrichmentEscape (c : CatalogueClient) (n : ℕ) (lines : List OrderLine) :
    Failure → Prop
  /-- The question about all products fails without a refusal. -/
  | batch {f : Failure} (h : BatchEscape c n (distinctSkus lines) f) : EnrichmentEscape c n lines f
  /-- A product of the batch has an array or an object for a name. -/
  | name {address : Address} {body : List UInt8} {entries : List Json} {entry sku : Json}
    (haddress : batchAddress c.baseAddress (distinctSkus lines) = .ok address)
    (hreply : c.catalogue n ⟨address, joined? (distinctSkus lines)⟩ = .answer 200 body)
    (hbody : readBody c.depth body = .ok (.array entries)) (hentry : entry ∈ entries)
    (hsku : entry.required "sku" = .ok sku) (hscalar : sku.isScalar = false) :
    EnrichmentEscape c n lines .wrongKind
  /-- A later question about a single product fails without a refusal. -/
  | single {f : Failure} {m : ℕ} {line : OrderLine} (hm : n ≤ m) (hline : line ∈ lines)
    (h : SingleEscape c m line.sku f) : EnrichmentEscape c n lines f

theorem EnrichmentEscape.cases (h : EnrichmentEscape c n lines f) :
    f = .invalidAddress ∨ f = .unencodable ∨ (∃ why, f = .unreadable why) ∨ f = .absentValue ∨
      f = .wrongKind := by
  cases h with
  | batch h => exact h.cases
  | name => exact .inr (.inr (.inr (.inr rfl)))
  | single _ _ h => exact h.cases.imp_right (·.imp_right .inl)

theorem failure_of_lookUp (h : (lookUp c known line).run.run log = (.error f, log')) :
    f.HasKind .catalogUnavailable ∨ SingleEscape c log.length line.sku f := by
  rcases lookUp_cases h with ⟨p, -, hr, -⟩ | ⟨-, answer, hget, hr⟩
  · nomatch hr
  · cases answer with
    | ok product => nomatch hr
    | error e =>
      cases hr
      exact failure_of_getProduct hget

theorem resolve_eq_error {product : Option Product}
    (h : resolve useDefaults line product = .error f) : f.HasKind .enrichment := by
  cases product with
  | some p => nomatch h
  | none =>
    simp only [resolve] at h
    split at h
    · nomatch h
    · cases h
      rfl

/-- Going through the lines fails as a question about one of them does, or because a product is
missing. -/
theorem failure_of_enrichFrom
    (h : (enrichFrom c useDefaults known lines).run.run log = (.error f, log')) :
    f.HasKind .enrichment ∨ f.HasKind .catalogUnavailable ∨
      ∃ line ∈ lines, ∃ m ≥ log.length, SingleEscape c m line.sku f := by
  -- the log grows from line to line, so a question of a later line comes after the first request
  induction lines generalizing known log with
  | nil => nomatch (Prod.mk.inj h).1
  | cons line lines ih =>
    rcases Dialogue.bind_eq_error.1 h with h | ⟨⟨product, known'⟩, between, hlook, h⟩
    · rcases failure_of_lookUp h with hkind | hescape
      · exact .inr (.inl hkind)
      · exact .inr (.inr ⟨line, List.mem_cons_self, log.length, le_rfl, hescape⟩)
    rcases Dialogue.ofFallible_bind_eq_error.1 h with ⟨h, -⟩ | ⟨item, -, h⟩
    · exact .inl (resolve_eq_error h)
    rcases Dialogue.bind_eq_error.1 h with h | ⟨items, _, -, h⟩
    · rcases ih h with hkind | hkind | ⟨later, hlater, m, hm, hescape⟩
      · exact .inl hkind
      · exact .inr (.inl hkind)
      · exact .inr (.inr ⟨later, List.mem_cons_of_mem line hlater, m,
          (lookUp_log hlook).length_le.trans hm, hescape⟩)
    · nomatch (Prod.mk.inj h).1

/-- A product has the name of its entry, and its category if that counts as something. -/
theorem fields_of_ofJson {entry : Json} {p : Product} (h : Product.ofJson entry = .ok p) :
    entry.required "sku" = .ok p.sku ∧
      p.category = (entry.field "category").orElse unknownCategory := by
  obtain ⟨dimensions, -, h⟩ := bind_eq_ok.1 h
  obtain ⟨weight, -, h⟩ := bind_eq_ok.1 h
  obtain ⟨sku, hsku, h⟩ := bind_eq_ok.1 h
  obtain ⟨dimensions, -, h⟩ := bind_eq_ok.1 h
  obtain ⟨weight, -, h⟩ := bind_eq_ok.1 h
  obtain rfl := pure_eq_ok.1 h
  exact ⟨hsku, rfl⟩

theorem knownOf_eq_error {products : List Product} (h : knownOf products = .error f) :
    f = .wrongKind ∧ ∃ p ∈ products, p.sku.isScalar = false := by
  unfold knownOf at h
  split at h
  · nomatch h
  · rename_i hscalars
    cases h
    refine ⟨rfl, ?_⟩
    simpa using hscalars

theorem failure_of_enrich (h : (enrich c useDefaults lines).run.run log = (.error f, log')) :
    f.HasKind .enrichment ∨ f.HasKind .catalogUnavailable ∨
      EnrichmentEscape c log.length lines f := by
  rcases Dialogue.bind_eq_error.1 h with h | ⟨products, between, hproducts, h⟩
  · rcases failure_of_getProducts h with hkind | hescape
    · exact .inr (.inl hkind)
    · exact .inr (.inr (.batch hescape))
  rcases Dialogue.ofFallible_bind_eq_error.1 h with ⟨h, -⟩ | ⟨known, -, h⟩
  · obtain ⟨rfl, p, hp, hscalar⟩ := knownOf_eq_error h
    obtain ⟨address, body, entries, haddress, hreply, hbody, entry, hentry, hofJson⟩ :=
      entry_of_getProducts hproducts hp
    exact .inr (.inr (.name haddress hreply hbody hentry (fields_of_ofJson hofJson).1 hscalar))
  · rcases failure_of_enrichFrom h with hkind | hkind | ⟨line, hline, m, hm, hescape⟩
    · exact .inl hkind
    · exact .inr (.inl hkind)
    · exact .inr (.inr (.single ((getProducts_log hproducts).length_le.trans hm) hline hescape))

end Enrichment

end Stowage
