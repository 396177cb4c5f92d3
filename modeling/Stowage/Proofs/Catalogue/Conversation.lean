import Stowage.Catalogue.Enrichment
import Stowage.Proofs.Failure.Fallible

/-!
# Conversations with the catalogue

How a conversation made of parts ends (`Dialogue.bind_eq_ok`, `Dialogue.bind_eq_error`), and what
the two questions come to. Each puts one request at most, whose reply then decides
(`getProduct_cases`, `getProducts_cases`). What was replied can be told from the log (`Replied`),
and stays so however the conversation goes on.
-/

namespace Stowage

namespace Dialogue

variable {α β : Type} {d : Dialogue α} {f : α → Dialogue β} {log log' : List CatalogueRequest}

/-- A conversation goes on after its first part. -/
theorem run_bind {a : α} (h : d.run.run log = (.ok a, log')) :
    (d >>= f).run.run log = (f a).run.run log' := by
  change ExceptT.bindCont f (d.run.run log).1 (d.run.run log).2 = _
  rw [h]
  rfl

/-- A conversation is over when its first part fails. -/
theorem run_bind_of_error {e : Failure} (h : d.run.run log = (.error e, log')) :
    (d >>= f).run.run log = (.error e, log') := by
  change ExceptT.bindCont f (d.run.run log).1 (d.run.run log).2 = _
  rw [h]
  rfl

@[simp] theorem run_ofFallible (x : Fallible α) : (ofFallible x).run.run log = (x, log) := by
  cases x <;> rfl

theorem bind_eq_ok {b : β} : (d >>= f).run.run log = (.ok b, log') ↔
    ∃ a between, d.run.run log = (.ok a, between) ∧ (f a).run.run between = (.ok b, log') := by
  rcases hd : d.run.run log with ⟨e | a, between⟩
  · rw [run_bind_of_error hd]
    exact ⟨nofun, fun ⟨_, _, h, _⟩ => nomatch h⟩
  · rw [run_bind hd]
    constructor
    · exact fun h => ⟨a, between, rfl, h⟩
    · rintro ⟨_, _, ⟨⟩, h⟩
      exact h

theorem bind_eq_error {e : Failure} : (d >>= f).run.run log = (.error e, log') ↔
    d.run.run log = (.error e, log') ∨
      ∃ a between, d.run.run log = (.ok a, between) ∧
        (f a).run.run between = (.error e, log') := by
  rcases hd : d.run.run log with ⟨e' | a, between⟩
  · rw [run_bind_of_error hd]
    constructor
    · rintro ⟨⟩
      exact .inl rfl
    · rintro (⟨⟨⟩⟩ | ⟨_, _, ⟨⟩, _⟩)
      rfl
  · rw [run_bind hd]
    constructor
    · exact fun h => .inr ⟨a, between, rfl, h⟩
    · rintro (⟨⟨⟩⟩ | ⟨_, _, ⟨⟩, h⟩)
      exact h

theorem ofFallible_bind_eq_ok {x : Fallible α} {b : β} :
    (ofFallible x >>= f).run.run log = (.ok b, log') ↔
      ∃ a, x = .ok a ∧ (f a).run.run log = (.ok b, log') := by
  cases x with
  | ok a =>
    rw [run_bind (run_ofFallible _)]
    exact ⟨fun h => ⟨a, rfl, h⟩, by rintro ⟨_, ⟨⟩, h⟩; exact h⟩
  | error e =>
    rw [run_bind_of_error (run_ofFallible _)]
    exact ⟨nofun, nofun⟩

theorem ofFallible_bind_eq_error {x : Fallible α} {e : Failure} :
    (ofFallible x >>= f).run.run log = (.error e, log') ↔
      (x = .error e ∧ log = log') ∨ ∃ a, x = .ok a ∧ (f a).run.run log = (.error e, log') := by
  cases x with
  | ok a =>
    rw [run_bind (run_ofFallible _)]
    exact ⟨fun h => .inr ⟨a, rfl, h⟩, by rintro (⟨⟨⟩, -⟩ | ⟨_, ⟨⟩, h⟩); exact h⟩
  | error e' =>
    rw [run_bind_of_error (run_ofFallible _)]
    constructor
    · rintro ⟨⟩
      exact .inl ⟨rfl, rfl⟩
    · rintro (⟨⟨⟩, rfl⟩ | ⟨_, ⟨⟩, -⟩)
      rfl

end Dialogue

/-! ## Addresses -/

namespace Address

theorem onHost_eq_error {scheme host : String} {target : List Char} {f : Failure}
    (h : onHost scheme host target = .error f) : f = .invalidAddress := by
  unfold onHost at h
  split at h
  split at h <;> simp_all

theorem ofText_eq_error {s : String} {f : Failure} (h : ofText s = .error f) :
    f = .invalidAddress := by
  simp only [ofText] at h
  split at h
  · simp_all
  · exact onHost_eq_error h

theorem append_eq_error {base : Address} {reference : String} {f : Failure}
    (h : base.append reference = .error f) : f = .invalidAddress := by
  simp only [append] at h
  split at h
  · simp_all
  · exact onHost_eq_error h

end Address

namespace CatalogueClient

/-- There is no address for a stock keeping unit, or no way to write it. -/
theorem productAddress_eq_error {base : String} {sku : RawText} {f : Failure}
    (h : productAddress base sku = .error f) :
    f = .invalidAddress ∨ f = .unencodable ∧ sku.isWhole = false := by
  rcases bind_eq_error.1 h with h | ⟨_, -, h⟩
  · exact .inl (Address.ofText_eq_error h)
  cases sku with
  | whole s => exact .inl (Address.append_eq_error h)
  | broken t =>
    obtain rfl := Except.error.inj h
    unfold Address.faultOfBroken
    split
    · exact .inr ⟨rfl, rfl⟩
    · exact .inl rfl

/-- What cannot be joined has something in it that is no text of characters. -/
theorem joined?_eq_none {skus : List RawText} (h : joined? skus = .none) :
    ∃ sku ∈ skus, sku.isWhole = false := by
  rw [joined?, Option.map_eq_none_iff] at h
  induction skus with
  | nil => nomatch h
  | cons sku skus ih =>
    cases sku with
    | broken t => exact ⟨_, List.mem_cons_self, rfl⟩
    | whole s =>
      have hrest : skus.mapM RawText.whole? = .none := by
        cases hrest : skus.mapM RawText.whole? with
        | none => rfl
        | some texts => simp [List.mapM_cons, RawText.whole?, hrest] at h
      obtain ⟨sku, hsku, hbroken⟩ := ih hrest
      exact ⟨sku, List.mem_cons_of_mem _ hsku, hbroken⟩

/-- There is no address for stock keeping units, or no way to write them. -/
theorem batchAddress_eq_error {base : String} {skus : List RawText} {f : Failure}
    (h : batchAddress base skus = .error f) :
    f = .invalidAddress ∨ f = .unencodable ∧ ∃ sku ∈ skus, sku.isWhole = false := by
  rcases bind_eq_error.1 h with h | ⟨_, -, h⟩
  · exact .inl (Address.ofText_eq_error h)
  rcases bind_eq_error.1 h with h | ⟨_, -, h⟩
  · exact .inl (Address.append_eq_error h)
  split at h
  · split at h
    · exact .inl (Except.error.inj h).symm
    · nomatch h
  · exact .inr ⟨(Except.error.inj h).symm, joined?_eq_none ‹_›⟩

/-! ## Replies -/

variable {c : CatalogueClient} {start : ℕ} {log log' : List CatalogueRequest}
  {request : CatalogueRequest} {reply : CatalogueReply}

/-- The request was put after `start` others or later and got the reply. -/
def Replied (c : CatalogueClient) (start : ℕ) (log : List CatalogueRequest)
    (request : CatalogueRequest) (reply : CatalogueReply) : Prop :=
  ∃ n ≥ start, log[n]? = some request ∧ c.catalogue n request = reply

theorem replied_concat (c : CatalogueClient) (request : CatalogueRequest)
    (hstart : start ≤ log.length) :
    c.Replied start (log ++ [request]) request (c.catalogue log.length request) :=
  ⟨log.length, hstart, List.getElem?_concat_length, rfl⟩

theorem Replied.mono (h : c.Replied start log request reply) (hlog : log <+: log') :
    c.Replied start log' request reply := by
  obtain ⟨n, hstart, hn, hreply⟩ := h
  obtain ⟨later, rfl⟩ := hlog
  have hlt : n < log.length := (List.getElem?_eq_some_iff.1 hn).1
  exact ⟨n, hstart, by rw [List.getElem?_append_left hlt, hn], hreply⟩

/-! ## Questions -/

section Questions

variable {α : Type} {address : Fallible Address} {skus : Option String}
  {read : CatalogueReply → Fallible α} {r : Fallible α}

/-- A question that is put at an address, and whose reply is read. -/
theorem run_question {a : Address} (haddress : address = .ok a) :
    (do
      let address ← Dialogue.ofFallible address
      let reply ← c.ask ⟨address, skus⟩
      Dialogue.ofFallible (read reply)).run.run log =
        (read (c.catalogue log.length ⟨a, skus⟩), log ++ [⟨a, skus⟩]) := by
  have hask : (c.ask ⟨a, skus⟩).run.run log =
      (.ok (c.catalogue log.length ⟨a, skus⟩), log ++ [⟨a, skus⟩]) := rfl
  rw [haddress, Dialogue.run_bind (Dialogue.run_ofFallible _), Dialogue.run_bind hask,
    Dialogue.run_ofFallible]

/-- A question cannot be put where there is no address. Otherwise it is, and the reply is read. -/
theorem question_cases
    (h : (do
      let address ← Dialogue.ofFallible address
      let reply ← c.ask ⟨address, skus⟩
      Dialogue.ofFallible (read reply)).run.run log = (r, log')) :
    (∃ f, address = .error f ∧ r = .error f ∧ log' = log) ∨
      ∃ a, address = .ok a ∧ r = read (c.catalogue log.length ⟨a, skus⟩) ∧
        log' = log ++ [⟨a, skus⟩] := by
  cases haddr : address with
  | error f =>
    rw [haddr] at h
    obtain ⟨rfl, rfl⟩ := Prod.mk.inj h
    exact .inl ⟨f, rfl, rfl, rfl⟩
  | ok a =>
    rw [run_question haddr] at h
    obtain ⟨rfl, rfl⟩ := Prod.mk.inj h
    exact .inr ⟨a, rfl, rfl, rfl⟩

end Questions

theorem run_getProduct {sku : RawText} {address : Address} (henabled : c.enabled = true)
    (haddress : productAddress c.baseAddress sku = .ok address) :
    (c.getProduct sku).run.run log =
      (readProduct c.depth sku (c.catalogue log.length ⟨address, .none⟩),
        log ++ [⟨address, .none⟩]) := by
  rw [getProduct, if_pos henabled]
  exact run_question haddress

theorem run_getProducts {first : RawText} {rest : List RawText} {address : Address}
    (henabled : c.enabled = true)
    (haddress : batchAddress c.baseAddress (first :: rest) = .ok address) :
    (c.getProducts (first :: rest)).run.run log =
      (readProducts c.depth first (c.catalogue log.length ⟨address, joined? (first :: rest)⟩),
        log ++ [⟨address, joined? (first :: rest)⟩]) := by
  rw [getProducts, if_pos henabled]
  exact run_question haddress

/-- What a question about one product comes to. -/
theorem getProduct_cases {sku : RawText} {r : Fallible (Option Product)}
    (h : (c.getProduct sku).run.run log = (r, log')) :
    (c.enabled = false ∧ r = .ok .none ∧ log' = log) ∨
      (∃ f, productAddress c.baseAddress sku = .error f ∧ r = .error f ∧ log' = log) ∨
      ∃ address, productAddress c.baseAddress sku = .ok address ∧
        r = readProduct c.depth sku (c.catalogue log.length ⟨address, .none⟩) ∧
        log' = log ++ [⟨address, .none⟩] := by
  cases henabled : c.enabled <;> simp only [getProduct, henabled] at h
  · obtain ⟨rfl, rfl⟩ := Prod.mk.inj h
    exact .inl ⟨rfl, rfl, rfl⟩
  · exact .inr (question_cases h)

/-- Where a request is put there is a catalogue. -/
theorem enabled_of_getProduct {sku : RawText} {r : Fallible (Option Product)}
    (h : (c.getProduct sku).run.run log = (r, log ++ [request])) : c.enabled = true := by
  by_contra hdisabled
  rw [getProduct, if_neg hdisabled] at h
  simpa using congrArg List.length (Prod.mk.inj h).2

/-- What a question about several products comes to. -/
theorem getProducts_cases {skus : List RawText} {r : Fallible (List Product)}
    (h : (c.getProducts skus).run.run log = (r, log')) :
    (r = .ok [] ∧ log' = log) ∨
      (∃ f, batchAddress c.baseAddress skus = .error f ∧ r = .error f ∧ log' = log) ∨
      ∃ first ∈ skus, ∃ address, batchAddress c.baseAddress skus = .ok address ∧
        r = readProducts c.depth first (c.catalogue log.length ⟨address, joined? skus⟩) ∧
        log' = log ++ [⟨address, joined? skus⟩] := by
  cases skus with
  | nil =>
    obtain ⟨rfl, rfl⟩ := Prod.mk.inj h
    exact .inl ⟨rfl, rfl⟩
  | cons first rest =>
    cases henabled : c.enabled <;> simp only [getProducts, henabled] at h
    · obtain ⟨rfl, rfl⟩ := Prod.mk.inj h
      exact .inl ⟨rfl, rfl⟩
    · rcases question_cases h with h | h
      · exact .inr (.inl h)
      · exact .inr (.inr ⟨first, List.mem_cons_self, h⟩)

/-- A question about one product adds to the conversation. -/
theorem getProduct_log {sku : RawText} {r : Fallible (Option Product)}
    (h : (c.getProduct sku).run.run log = (r, log')) : log <+: log' := by
  rcases getProduct_cases h with ⟨-, -, rfl⟩ | ⟨_, -, -, rfl⟩ | ⟨address, -, -, rfl⟩
  · exact List.prefix_rfl
  · exact List.prefix_rfl
  · exact List.prefix_append _ _

/-- A question about several products adds to the conversation. -/
theorem getProducts_log {skus : List RawText} {r : Fallible (List Product)}
    (h : (c.getProducts skus).run.run log = (r, log')) : log <+: log' := by
  rcases getProducts_cases h with ⟨-, rfl⟩ | ⟨_, -, -, rfl⟩ | ⟨first, -, address, -, -, rfl⟩
  · exact List.prefix_rfl
  · exact List.prefix_rfl
  · exact List.prefix_append _ _

/-- The address of a bolt in a catalogue. -/
def boltAddress : Address := ⟨"http", "catalog.test", "/api/v1/products/BOLT", .none⟩

theorem productAddress_bolt : productAddress "http://catalog.test" "BOLT" = .ok boltAddress :=
  eq_ok_of_toOption (by decide)

end CatalogueClient

namespace Enrichment

variable {c : CatalogueClient} {known : Known} {line : OrderLine}
  {log log' : List CatalogueRequest} {r : Fallible (Option Product × Known)}

/-- What is known once the question about a stock keeping unit has been answered. -/
def remember (known : Known) (sku : RawText) : Option Product → Known
  | some p => (.text sku, p) :: known
  | none => known

/-- Looking up a product that is not known comes to a question about it, which is not put where
there is no catalogue. -/
theorem lookUp_cases (h : (lookUp c known line).run.run log = (r, log')) :
    (∃ p, find? known line.sku = some p ∧ r = .ok (some p, known) ∧ log' = log) ∨
      find? known line.sku = none ∧ ∃ answer, (c.getProduct line.sku).run.run log = (answer, log') ∧
        r = answer.map fun product => (product, remember known line.sku product) := by
  unfold lookUp at h
  cases hfind : find? known line.sku with
  | some p =>
    rw [hfind] at h
    obtain ⟨rfl, rfl⟩ := Prod.mk.inj h
    exact .inl ⟨p, rfl, rfl, rfl⟩
  | none =>
    rw [hfind] at h
    right
    rcases hget : (c.getProduct line.sku).run.run log with ⟨answer, between⟩
    by_cases henabled : c.enabled = true
    · simp only [henabled, if_true] at h
      rcases answer with e | product
      · rw [Dialogue.run_bind_of_error hget] at h
        obtain ⟨rfl, rfl⟩ := Prod.mk.inj h
        exact ⟨rfl, _, rfl, rfl⟩
      · rw [Dialogue.run_bind hget] at h
        cases product <;> obtain ⟨rfl, rfl⟩ := Prod.mk.inj h <;> exact ⟨rfl, _, rfl, rfl⟩
    · simp only [henabled] at h
      rw [CatalogueClient.getProduct, if_neg henabled] at hget
      obtain ⟨rfl, rfl⟩ := Prod.mk.inj h
      obtain ⟨rfl, rfl⟩ := Prod.mk.inj hget
      exact ⟨rfl, _, rfl, rfl⟩

/-- Looking up a product adds to the conversation. -/
theorem lookUp_log (h : (lookUp c known line).run.run log = (r, log')) : log <+: log' := by
  rcases lookUp_cases h with ⟨p, -, -, rfl⟩ | ⟨-, answer, hget, -⟩
  · exact List.prefix_rfl
  · exact CatalogueClient.getProduct_log hget

end Enrichment

end Stowage
