import Stowage.Proofs.Catalogue.Enrichment
import Stowage.Proofs.Catalogue.Failure

/-!
# Lines about one product

The course that enrichment takes with defaults (`Course`): a product that is known settles a line,
and one that is not is asked for by itself. A product that is found is remembered. That there is
none is not, and the next line about it is a question again, which a catalogue may answer otherwise.
So a stock keeping unit is asked for again only when the catalogue had nothing for it
(`Questions.again`), and lines about one unit become items alike unless the catalogue had the
product only for the later of them (`Questions.alike`).
-/

namespace Stowage

/-- The same product on another line. -/
structure Item.Alike (i j : Item) : Prop where
  dimensions : i.dimensions = j.dimensions
  weight : i.weight = j.weight
  category : i.category = j.category
  fragile : i.fragile = j.fragile

namespace Enrichment

open CatalogueClient (productAddress batchAddress joined? readBody parse readProduct
  readProduct_eq_none run_getProduct run_getProducts getProduct_cases getProducts_cases
  enabled_of_getProduct productAddress_bolt)

/-! ## Questions about one product -/

/-- A question about one stock keeping unit, and what was replied. -/
structure Lookup where
  sku : RawText
  address : Address
  reply : CatalogueReply

namespace Lookup

/-- The request by which the question was put. -/
def request (l : Lookup) : CatalogueRequest := ⟨l.address, none⟩

/-- The catalogue had no such product. -/
def Missed (l : Lookup) : Prop := ∃ body, l.reply = .answer 404 body

/-- The question was put to the catalogue after `n` requests. -/
structure PutAt (c : CatalogueClient) (n : ℕ) (l : Lookup) : Prop where
  address : productAddress c.baseAddress l.sku = .ok l.address
  reply : c.catalogue n l.request = l.reply

/-- A product that is read from a reply was not missed. -/
theorem not_missed_of_readProduct {l : Lookup} {depth : ℕ} {sku : RawText} {p : Product}
    (h : readProduct depth sku l.reply = .ok (some p)) : ¬ l.Missed := by
  rintro ⟨body, hreply⟩
  simp [hreply, readProduct] at h

end Lookup

/-- The catalogue had no such product when it was asked, and had it when it was asked again. -/
def CameLater (lookups : List Lookup) (sku : RawText) : Prop :=
  ∃ a b, [a, b].Sublist lookups ∧ a.sku = sku ∧ b.sku = sku ∧ a.Missed ∧ ¬ b.Missed

/-! ## The course of enrichment -/

/-- The item for a line when defaults are allowed. -/
def itemFor (line : OrderLine) : Option Product → Item
  | some p => p.toItem (.int line.quantity)
  | none => usualItem line

/-- How lines become items with defaults, from what is known and after so many requests: which
questions are put and how it ends. -/
inductive Course (c : CatalogueClient) :
    Known → ℕ → List OrderLine → List Lookup → Fallible (List Item) → Prop
  /-- There are no more lines. -/
  | done (known : Known) (n : ℕ) : Course c known n [] [] (.ok [])
  /-- What is known settles a line, or there is no catalogue to ask. -/
  | settled {known n lines lookups r} (line : OrderLine)
    (hsettled : find? known line.sku = none → c.enabled = false)
    (h : Course c known n lines lookups r) :
    Course c known n (line :: lines) lookups
      (r.map (itemFor line (find? known line.sku) :: ·))
  /-- The catalogue is asked, and it has the product or has none. -/
  | answered {known n lines lookups r product} {l : Lookup} (line : OrderLine)
    (hunknown : find? known line.sku = none) (henabled : c.enabled = true)
    (hl : l.sku = line.sku) (hput : l.PutAt c n)
    (hread : readProduct c.depth line.sku l.reply = .ok product)
    (h : Course c (remember known line.sku product) (n + 1) lines lookups r) :
    Course c known n (line :: lines) (l :: lookups) (r.map (itemFor line product :: ·))
  /-- The reply cannot be read. -/
  | failed {known n lines} {l : Lookup} {f : Failure} (line : OrderLine)
    (hunknown : find? known line.sku = none) (hl : l.sku = line.sku) (hput : l.PutAt c n)
    (hread : readProduct c.depth line.sku l.reply = .error f) :
    Course c known n (line :: lines) [l] (.error f)
  /-- There is no address to ask at. -/
  | nowhere {known n lines} {f : Failure} (line : OrderLine)
    (hunknown : find? known line.sku = none)
    (haddress : productAddress c.baseAddress line.sku = .error f) :
    Course c known n (line :: lines) [] (.error f)

variable {c : CatalogueClient} {known : Known} {n : ℕ} {line : OrderLine} {lines : List OrderLine}
  {lookups : List Lookup} {r : Fallible (List Item)} {items : List Item} {product : Option Product}
  {sku : RawText} {p : Product} {log log' : List CatalogueRequest}

theorem CameLater.cons (h : CameLater lookups sku) (l : Lookup) : CameLater (l :: lookups) sku := by
  obtain ⟨a, b, hsub, h⟩ := h
  exact ⟨a, b, hsub.cons l, h⟩

/-! ## What is remembered -/

theorem find?_remember_self (known : Known) (sku : RawText) (p : Product) :
    find? (remember known sku (some p)) sku = some p := by
  simp [find?, remember, Json.same_text_iff]

/-- Remembering a product leaves the others as they were. -/
theorem find?_remember_of_ne {s : RawText} (h : s ≠ sku) :
    find? (remember known sku product) s = find? known s := by
  cases product with
  | none => rfl
  | some p =>
    have hne : (Json.text sku).same (.text s) = false := by
      rw [← Bool.not_eq_true, Json.same_text_iff]
      exact fun hsame => h (Json.text.inj hsame).symm
    simp [find?, remember, hne]

/-- What is not known after something was remembered was not known before. -/
theorem find?_eq_none_of_remember {s : RawText} (hunknown : find? known sku = none)
    (h : find? (remember known sku product) s = none) : find? known s = none := by
  by_cases hs : s = sku
  · rwa [hs]
  · rwa [find?_remember_of_ne hs] at h

theorem resolve_true (line : OrderLine) (product : Option Product) :
    resolve true line product = .ok (itemFor line product) := by
  cases product <;> rfl

theorem alike_itemFor (a b : OrderLine) (product : Option Product) :
    (itemFor a product).Alike (itemFor b product) := by
  cases product <;> exact ⟨rfl, rfl, rfl, rfl⟩

/-- The lines after one that got its item. -/
theorem run_enrichFrom_cons {known' : Known} {between : List CatalogueRequest}
    (hlook : (lookUp c known line).run.run log = (.ok (product, known'), between))
    (hrest : (enrichFrom c true known' lines).run.run between = (r, log')) :
    (enrichFrom c true known (line :: lines)).run.run log =
      (r.map (itemFor line product :: ·), log') := by
  rw [enrichFrom, Dialogue.run_bind hlook]
  dsimp only
  rw [resolve_true, Dialogue.run_bind (Dialogue.run_ofFallible _)]
  cases r with
  | error f => exact Dialogue.run_bind_of_error hrest
  | ok rest => exact Dialogue.run_bind hrest

/-- Looking up a product comes to what is known, to no address, or to a question. -/
theorem lookUp_outcome {answer : Fallible (Option Product × Known)}
    (h : (lookUp c known line).run.run log = (answer, log')) :
    ((find? known line.sku = none → c.enabled = false) ∧
        answer = .ok (find? known line.sku, known) ∧ log' = log) ∨
      find? known line.sku = none ∧ ((∃ f, productAddress c.baseAddress line.sku = .error f ∧
          answer = .error f ∧ log' = log) ∨
        c.enabled = true ∧ ∃ l : Lookup, l.sku = line.sku ∧ l.PutAt c log.length ∧
          log' = log ++ [l.request] ∧ answer = (readProduct c.depth line.sku l.reply).map
            fun product => (product, remember known line.sku product)) := by
  rcases lookUp_cases h with ⟨p, hfind, rfl, rfl⟩ | ⟨hunknown, asked, hget, rfl⟩
  · exact .inl ⟨fun hnone => (nomatch hfind.symm.trans hnone), by rw [hfind], rfl⟩
  · rcases getProduct_cases hget with ⟨hdisabled, rfl, rfl⟩ | ⟨f, haddress, rfl, rfl⟩ |
      ⟨address, haddress, rfl, rfl⟩
    · exact .inl ⟨fun _ => hdisabled, by rw [hunknown]; rfl, rfl⟩
    · exact .inr ⟨hunknown, .inl ⟨f, haddress, rfl, rfl⟩⟩
    · exact .inr ⟨hunknown, .inr ⟨enabled_of_getProduct hget,
        ⟨line.sku, address, c.catalogue log.length ⟨address, none⟩⟩, rfl, ⟨haddress, rfl⟩, rfl,
        rfl⟩⟩

/-- **Enrichment takes such a course.** -/
theorem course_of_run (h : (enrichFrom c true known lines).run.run log = (r, log')) :
    ∃ lookups, Course c known log.length lines lookups r ∧
      log' = log ++ lookups.map Lookup.request := by
  induction lines generalizing known log r with
  | nil =>
    obtain ⟨rfl, rfl⟩ := Prod.mk.inj h
    exact ⟨[], .done _ _, by simp⟩
  | cons line lines ih =>
    rcases hlook : (lookUp c known line).run.run log with ⟨answer, between⟩
    rcases lookUp_outcome hlook with ⟨hsettled, rfl, rfl⟩ |
      ⟨hunknown, ⟨f, haddress, rfl, rfl⟩ | ⟨henabled, l, hl, hput, rfl, hanswer⟩⟩
    · rcases hrest : (enrichFrom c true known lines).run.run between with ⟨rest, last⟩
      rw [run_enrichFrom_cons hlook hrest] at h
      obtain ⟨rfl, rfl⟩ := Prod.mk.inj h
      obtain ⟨lookups, hcourse, rfl⟩ := ih hrest
      exact ⟨lookups, .settled line hsettled hcourse, rfl⟩
    · rw [enrichFrom, Dialogue.run_bind_of_error hlook] at h
      obtain ⟨rfl, rfl⟩ := Prod.mk.inj h
      exact ⟨[], .nowhere line hunknown haddress, by simp⟩
    · cases hread : readProduct c.depth line.sku l.reply with
      | error f =>
        rw [hread] at hanswer
        subst hanswer
        rw [enrichFrom, Dialogue.run_bind_of_error hlook] at h
        obtain ⟨rfl, rfl⟩ := Prod.mk.inj h
        exact ⟨[l], .failed line hunknown hl hput hread, rfl⟩
      | ok product =>
        rw [hread] at hanswer
        subst hanswer
        rcases hrest : (enrichFrom c true (remember known line.sku product) lines).run.run
          (log ++ [l.request]) with ⟨rest, last⟩
        rw [run_enrichFrom_cons hlook hrest] at h
        obtain ⟨rfl, rfl⟩ := Prod.mk.inj h
        obtain ⟨lookups, hcourse, rfl⟩ := ih hrest
        rw [List.length_append, List.length_singleton] at hcourse
        exact ⟨l :: lookups, .answered line hunknown henabled hl hput hread hcourse, by simp⟩

/-! ## The questions of a course -/

namespace Course

/-- Each question was put after those before it. -/
theorem putAt (h : Course c known n lines lookups r) :
    ∀ k (l : Lookup), lookups[k]? = some l → l.PutAt c (n + k) := by
  induction h with
  | done | nowhere => simp
  | settled _ _ _ ih => exact ih
  | failed _ _ _ hput =>
    intro k l hl
    cases k with
    | zero => exact Option.some.inj hl ▸ hput
    | succ k => simp at hl
  | answered _ _ _ _ hput _ _ ih =>
    intro k l hl
    cases k with
    | zero => exact Option.some.inj hl ▸ hput
    | succ k =>
      have hrest := ih k l hl
      rwa [Nat.add_right_comm] at hrest

/-- There is at most one question for each line, in the order of the lines. -/
theorem sublist (h : Course c known n lines lookups r) :
    (lookups.map (·.sku)).Sublist (lines.map (·.sku)) := by
  induction h with
  | done => exact .slnil
  | settled line _ _ ih => exact ih.cons _
  | answered line _ _ hl _ _ _ ih =>
    rw [List.map_cons, List.map_cons, hl]
    exact ih.cons_cons _
  | failed line _ hl =>
    rw [List.map_cons, List.map_cons, hl]
    exact (List.nil_sublist _).cons_cons _
  | nowhere => exact List.nil_sublist _

/-- What is known is not asked for. -/
theorem unknown (h : Course c known n lines lookups r) :
    ∀ l ∈ lookups, find? known l.sku = none := by
  induction h with
  | done | nowhere => simp
  | settled _ _ _ ih => exact ih
  | failed line hunknown hl => simpa [hl] using hunknown
  | answered line hunknown _ hl _ _ _ ih =>
    intro l' hl'
    rcases List.mem_cons.1 hl' with rfl | hl'
    · rwa [hl]
    · exact find?_eq_none_of_remember hunknown (ih l' hl')

/-- A stock keeping unit is asked for again only when the catalogue had nothing for it. -/
theorem again (h : Course c known n lines lookups r) :
    lookups.Pairwise fun a b => a.sku = b.sku → a.Missed := by
  induction h with
  | done | nowhere => exact .nil
  | settled _ _ _ ih => exact ih
  | failed => exact List.pairwise_singleton _ _
  | @answered known _ _ _ _ product l line _ _ hl _ hread h ih =>
    refine List.pairwise_cons.2 ⟨fun b hb hsku => ?_, ih⟩
    cases product with
    | none => exact readProduct_eq_none hread
    | some p =>
      -- a product that was found is known from then on
      have hunknown := h.unknown b hb
      rw [← hsku, hl, find?_remember_self] at hunknown
      nomatch hunknown

/-! ## The items of a course -/

theorem length_eq (h : Course c known n lines lookups r) (hr : r = .ok items) :
    items.length = lines.length := by
  induction h generalizing items with
  | done =>
    cases hr
    rfl
  | settled _ _ _ ih | answered _ _ _ _ _ _ _ ih =>
    obtain ⟨rest, hrest, rfl⟩ := map_eq_ok.1 hr
    rw [List.length_cons, List.length_cons, ih hrest]
  | failed | nowhere => nomatch hr

/-- A product that is known goes into every line about it. -/
theorem of_known (h : Course c known n lines lookups r) (hr : r = .ok items)
    (hfind : find? known sku = some p) :
    ∀ x ∈ lines.zip items, x.1.sku = sku → x.2 = itemFor x.1 (some p) := by
  induction h generalizing items with
  | done => simp
  | failed | nowhere => nomatch hr
  | settled line _ _ ih =>
    obtain ⟨rest, hrest, rfl⟩ := map_eq_ok.1 hr
    refine List.forall_mem_cons.2 ⟨fun hsku => ?_, ih hrest hfind⟩
    rw [← hfind, ← hsku]
  | answered line hunknown _ _ _ _ _ ih =>
    obtain ⟨rest, hrest, rfl⟩ := map_eq_ok.1 hr
    have hne : sku ≠ line.sku := by
      rintro rfl
      nomatch hunknown.symm.trans hfind
    refine List.forall_mem_cons.2 ⟨fun hsku => absurd hsku.symm hne, ih hrest ?_⟩
    rwa [find?_remember_of_ne hne]

/-- A product that is not known goes into a line only when the catalogue has it. -/
theorem of_unknown (h : Course c known n lines lookups r) (hr : r = .ok items)
    (hfind : find? known sku = none) : ∀ x ∈ lines.zip items, x.1.sku = sku →
      x.2 = usualItem x.1 ∨ c.enabled = true ∧ ∃ l ∈ lookups, l.sku = sku ∧ ¬ l.Missed := by
  induction h generalizing items with
  | done => simp
  | failed | nowhere => nomatch hr
  | settled line _ _ ih =>
    obtain ⟨rest, hrest, rfl⟩ := map_eq_ok.1 hr
    refine List.forall_mem_cons.2 ⟨fun hsku => .inl ?_, ih hrest hfind⟩
    rw [← hsku] at hfind
    rw [hfind]
    rfl
  | @answered known _ _ _ _ product l line hunknown henabled hl _ hread _ ih =>
    obtain ⟨rest, hrest, rfl⟩ := map_eq_ok.1 hr
    by_cases hfound : line.sku = sku ∧ product ≠ none
    · obtain ⟨rfl, hproduct⟩ := hfound
      obtain ⟨p, rfl⟩ := Option.ne_none_iff_exists'.1 hproduct
      exact fun x _ _ => .inr ⟨henabled, l, List.mem_cons_self, hl,
        Lookup.not_missed_of_readProduct hread⟩
    · have hfind' : find? (remember known line.sku product) sku = none := by
        by_cases hsku : sku = line.sku
        · obtain rfl : product = none := by_contra fun hne => hfound ⟨hsku.symm, hne⟩
          exact hfind
        · rwa [find?_remember_of_ne hsku]
      refine List.forall_mem_cons.2 ⟨fun hsku => .inl ?_, fun x hx hsku => ?_⟩
      · obtain rfl : product = none := by_contra fun hne => hfound ⟨hsku, hne⟩
        rfl
      · refine (ih hrest hfind' x hx hsku).imp_right fun ⟨henabled, b, hb, h⟩ => ?_
        exact ⟨henabled, b, List.mem_cons_of_mem _ hb, h⟩

/-- **Lines about one unit become items alike**, unless the catalogue had the product only for the
later one. -/
theorem alike (h : Course c known n lines lookups r) (hr : r = .ok items) :
    (lines.zip items).Pairwise fun x y => x.1.sku = y.1.sku →
      x.2.Alike y.2 ∨ x.2 = usualItem x.1 ∧ CameLater lookups x.1.sku := by
  induction h generalizing items with
  | done => simp
  | failed | nowhere => nomatch hr
  | @settled known _ _ _ _ line hsettled h ih =>
    obtain ⟨rest, hrest, rfl⟩ := map_eq_ok.1 hr
    refine List.pairwise_cons.2 ⟨fun y hy hsku => .inl ?_, ih hrest⟩
    cases hfind : find? known line.sku with
    | some p =>
      rw [h.of_known hrest hfind y hy hsku.symm]
      exact alike_itemFor line y.1 (some p)
    | none =>
      rcases h.of_unknown hrest hfind y hy hsku.symm with hy | ⟨henabled, -⟩
      · rw [hy]
        exact alike_itemFor line y.1 none
      · exact absurd henabled (by simp [hsettled hfind])
  | @answered known _ _ _ _ product l line hunknown _ hl _ hread h ih =>
    obtain ⟨rest, hrest, rfl⟩ := map_eq_ok.1 hr
    refine List.pairwise_cons.2 ⟨fun y hy hsku => ?_, ?_⟩
    · cases product with
      | some p =>
        rw [h.of_known hrest (find?_remember_self known line.sku p) y hy hsku.symm]
        exact .inl (alike_itemFor line y.1 (some p))
      | none =>
        rcases h.of_unknown hrest hunknown y hy hsku.symm with hy | ⟨-, b, hb, hbsku, hfound⟩
        · rw [hy]
          exact .inl (alike_itemFor line y.1 none)
        · exact .inr ⟨rfl, l, b, (List.singleton_sublist.2 hb).cons_cons l, hl, hbsku,
            readProduct_eq_none hread, hfound⟩
    · exact (ih hrest).imp fun hpair hsku => (hpair hsku).imp_right (·.imp_right (·.cons l))

end Course

/-! ## What enrichment asks for -/

/-- The questions about single products that enrichment puts after `n` requests, and what becomes of
the lines. -/
structure Questions (c : CatalogueClient) (n : ℕ) (lines : List OrderLine) (lookups : List Lookup)
    (r : Fallible (List Item)) : Prop where
  putAt : ∀ k (l : Lookup), lookups[k]? = some l → l.PutAt c (n + k)
  sublist : (lookups.map (·.sku)).Sublist (lines.map (·.sku))
  again : lookups.Pairwise fun a b => a.sku = b.sku → a.Missed
  length_eq : ∀ items, r = .ok items → items.length = lines.length
  alike : ∀ items, r = .ok items → (lines.zip items).Pairwise fun x y => x.1.sku = y.1.sku →
    x.2.Alike y.2 ∨ x.2 = usualItem x.1 ∧ CameLater lookups x.1.sku

theorem Course.questions (h : Course c known n lines lookups r) : Questions c n lines lookups r :=
  ⟨h.putAt, h.sublist, h.again, fun _ => h.length_eq, fun _ => h.alike⟩

namespace Questions

theorem of_error (c : CatalogueClient) (n : ℕ) (lines : List OrderLine) (f : Failure) :
    Questions c n lines [] (.error f) :=
  ⟨by simp, List.nil_sublist _, .nil, nofun, nofun⟩

/-- What the catalogue has whenever it is asked is asked for once. -/
theorem length_filter_le (h : Questions c n lines lookups r)
    (hfound : ∀ l ∈ lookups, l.sku = sku → ¬ l.Missed) :
    (lookups.filter (·.sku = sku)).length ≤ 1 := by
  have hpair := h.again.filter (·.sku = sku)
  have hmem : ∀ l ∈ lookups.filter (·.sku = sku), l ∈ lookups ∧ l.sku = sku := fun l hl => by
    simpa using hl
  match hfilter : lookups.filter (·.sku = sku) with
  | [] | [_] => simp [hfilter]
  | a :: b :: rest =>
    rw [hfilter] at hpair hmem
    obtain ⟨ha, hasku⟩ := hmem a (by simp)
    obtain ⟨-, hbsku⟩ := hmem b (by simp)
    have hmissed := List.rel_of_pairwise_cons hpair List.mem_cons_self (hasku.trans hbsku.symm)
    exact absurd hmissed (hfound a ha hasku)

/-- What the catalogue has whenever it is asked goes into all lines alike. -/
theorem alike_of_found (h : Questions c n lines lookups r) (hr : r = .ok items)
    (hfound : ∀ l ∈ lookups, l.sku = sku → ¬ l.Missed) :
    (lines.zip items).Pairwise fun x y => x.1.sku = sku → y.1.sku = sku → x.2.Alike y.2 := by
  refine (h.alike items hr).imp fun hpair hx hy => ?_
  rcases hpair (hx.trans hy.symm) with halike | ⟨-, a, b, hsub, ha, -, hmissed, -⟩
  · exact halike
  · exact absurd hmissed (hfound a (hsub.subset List.mem_cons_self) (ha.trans hx))

/-- A catalogue that always replies the same has nothing that comes later. -/
theorem not_cameLater (h : Questions c n lines lookups r)
    (hsame : ∀ m m' request, c.catalogue m request = c.catalogue m' request) :
    ¬ CameLater lookups sku := by
  rintro ⟨a, b, hsub, ha, hb, hmissed, hfound⟩
  have hreply : ∀ l ∈ lookups, productAddress c.baseAddress l.sku = .ok l.address ∧
      l.reply = c.catalogue 0 l.request := by
    intro l hl
    obtain ⟨k, hk⟩ := List.mem_iff_getElem?.1 hl
    have hput := h.putAt k l hk
    exact ⟨hput.address, hput.reply.symm.trans (hsame _ _ _)⟩
  obtain ⟨haddress, hareply⟩ := hreply a (hsub.subset (by simp))
  obtain ⟨hbddress, hbreply⟩ := hreply b (hsub.subset (by simp))
  have hab : a.address = b.address := by
    rw [ha] at haddress
    rw [hb] at hbddress
    exact Except.ok.inj (haddress.symm.trans hbddress)
  rw [Lookup.request, hab, ← Lookup.request, ← hbreply] at hareply
  rw [Lookup.Missed, hareply] at hmissed
  exact hfound hmissed

end Questions

/-- Enrichment puts at most one batch request, and then questions about single products. -/
theorem questions_of_run (h : (enrich c true lines).run.run log = (r, log')) :
    ∃ batch lookups, log' = log ++ batch ++ lookups.map Lookup.request ∧ batch.length ≤ 1 ∧
      Questions c (log.length + batch.length) lines lookups r := by
  rcases hbatch : (c.getProducts (distinctSkus lines)).run.run log with ⟨answer, between⟩
  obtain ⟨batch, rfl, hle⟩ : ∃ batch, between = log ++ batch ∧ batch.length ≤ 1 := by
    rcases getProducts_cases hbatch with ⟨-, rfl⟩ | ⟨_, -, -, rfl⟩ | ⟨_, -, _, -, -, rfl⟩
    · exact ⟨[], by simp⟩
    · exact ⟨[], by simp⟩
    · exact ⟨_, rfl, by simp⟩
  rw [enrich] at h
  cases answer with
  | error f =>
    rw [Dialogue.run_bind_of_error hbatch] at h
    obtain ⟨rfl, rfl⟩ := Prod.mk.inj h
    exact ⟨batch, [], by simp, hle, .of_error _ _ _ _⟩
  | ok products =>
    rw [Dialogue.run_bind hbatch] at h
    cases hknown : knownOf products with
    | error f =>
      rw [hknown, Dialogue.run_bind_of_error (Dialogue.run_ofFallible _)] at h
      obtain ⟨rfl, rfl⟩ := Prod.mk.inj h
      exact ⟨batch, [], by simp, hle, .of_error _ _ _ _⟩
    | ok known =>
      rw [hknown, Dialogue.run_bind (Dialogue.run_ofFallible _)] at h
      obtain ⟨lookups, hcourse, rfl⟩ := course_of_run h
      rw [List.length_append] at hcourse
      exact ⟨batch, lookups, rfl, hle, hcourse.questions⟩

/-- **Enrichment asks for a product again only when the catalogue had none.** With defaults, and
whatever the catalogue replies from one time to the next, there is at most one batch request and
then at most one question for each line, in the order of the lines; a stock keeping unit is asked
for again only when every reply about it so far was that there is no such product. So a unit for
which the catalogue has a product whenever it is asked is asked for once at most, and its lines
become items alike. If enrichment returns, lines about one unit become items alike, but that a line
has the usual attributes when the catalogue had the product only for a later one; and a catalogue
that always replies the same has none that come later. -/
theorem asked_again_only_when_missed
    (h : (enrich c true lines).run.run log = (r, log')) :
    ∃ batch lookups, log' = log ++ batch ++ lookups.map Lookup.request ∧ batch.length ≤ 1 ∧
      Questions c (log.length + batch.length) lines lookups r ∧
      (∀ sku, (∀ l ∈ lookups, l.sku = sku → ¬ l.Missed) →
        (lookups.filter (·.sku = sku)).length ≤ 1 ∧
        ∀ items, r = .ok items → (lines.zip items).Pairwise fun x y =>
          x.1.sku = sku → y.1.sku = sku → x.2.Alike y.2) ∧
      ((∀ m m' request, c.catalogue m request = c.catalogue m' request) →
        ∀ items, r = .ok items → (lines.zip items).Pairwise fun x y =>
          x.1.sku = y.1.sku → x.2.Alike y.2) := by
  obtain ⟨batch, lookups, hlog, hle, hasked⟩ := questions_of_run h
  refine ⟨batch, lookups, hlog, hle, hasked, fun sku hfound => ⟨hasked.length_filter_le hfound,
    fun items hr => hasked.alike_of_found hr hfound⟩, fun hsame items hr => ?_⟩
  refine (hasked.alike items hr).imp fun hpair hsku => ?_
  exact (hpair hsku).resolve_right fun hlater => hasked.not_cameLater hsame hlater.2

/-! ### A bolt that comes late -/

/-- The entry of a bolt. -/
def boltEntry : Json :=
  .object [("sku", .text "BOLT"),
    ("dimensions", .object [("length", .int 1), ("width", .int 1), ("height", .int 1),
      ("unit", .text "IN")]),
    ("weight", .object [("value", .int 1), ("unit", .text "LB")])]

/-- A bolt of the measures of a nut. -/
def bolt : Product := { nut with sku := .text "BOLT", name := .text "BOLT" }

/-- A client of a catalogue that has no batches, and bolts from the third request on. -/
def lateClient : CatalogueClient where
  baseAddress := "http://catalog.test"
  catalogue n request :=
    match request.skus with
    | some _ => .ofText 404 ""
    | none => if n ≤ 1 then .ofText 404 "" else .ofText 200 boltEntry.print
  depth := CatalogueClient.usualDepth

def oneBolt : OrderLine := { twoBolts with quantity := 1, positive := Nat.one_pos }

theorem getProducts_late (log : List CatalogueRequest) :
    (lateClient.getProducts ["BOLT"]).run.run log = (.ok [], log ++ [batchOfBolts]) := by
  have hjoined : joined? ["BOLT"] = some "BOLT" := by decide
  have haddress : batchAddress lateClient.baseAddress ["BOLT"] = .ok batchOfBolts.address :=
    eq_ok_of_toOption (by decide)
  rw [run_getProducts rfl haddress, hjoined]
  rfl

theorem readProduct_bolt (sku : RawText) :
    readProduct lateClient.depth sku (.ofText 200 boltEntry.print) = .ok (some bolt) := by
  have hread : readBody lateClient.depth (Text.Utf8.encode boltEntry.print) = .ok boltEntry := by
    cbv
  have hparse : parse (.text sku) boltEntry = .ok bolt := rfl
  simp only [CatalogueReply.ofText, readProduct, hread, hparse, ok_bind]
  rfl

theorem getProduct_late (log : List CatalogueRequest) {product : Option Product}
    (h : readProduct lateClient.depth "BOLT" (lateClient.catalogue log.length singleBolt) =
      .ok product) :
    (lateClient.getProduct "BOLT").run.run log = (.ok product, log ++ [singleBolt]) := by
  rw [← h]
  exact run_getProduct rfl productAddress_bolt

/-- The first line about bolts gets the usual attributes, and the second one bolts. -/
theorem enrich_late : (enrich lateClient true [oneBolt, twoBolts]).run.run [] =
    (.ok [usualItem oneBolt, bolt.toItem (.int 2)], [batchOfBolts, singleBolt, singleBolt]) := by
  have hfirst : (lookUp lateClient [] oneBolt).run.run [batchOfBolts] =
      (.ok (none, []), [batchOfBolts, singleBolt]) :=
    Dialogue.run_bind (getProduct_late [batchOfBolts] rfl)
  have hsecond : (lookUp lateClient [] twoBolts).run.run [batchOfBolts, singleBolt] =
      (.ok (some bolt, [(.text "BOLT", bolt)]), [batchOfBolts, singleBolt, singleBolt]) :=
    Dialogue.run_bind (getProduct_late [batchOfBolts, singleBolt] (readProduct_bolt _))
  have hlines : (enrichFrom lateClient true [] [oneBolt, twoBolts]).run.run [batchOfBolts] =
      (.ok [usualItem oneBolt, bolt.toItem (.int 2)], [batchOfBolts, singleBolt, singleBolt]) :=
    run_enrichFrom_cons hfirst (run_enrichFrom_cons hsecond rfl)
  exact Dialogue.bind_eq_ok.2 ⟨[], _, getProducts_late [],
    Dialogue.ofFallible_bind_eq_ok.2 ⟨[], rfl, hlines⟩⟩

/-- The bolts were asked for twice, as there were none the first time. -/
theorem bolts_asked_again :
    (enrich lateClient true [oneBolt, twoBolts]).run.run [] =
        (.ok [usualItem oneBolt, bolt.toItem (.int 2)], [batchOfBolts, singleBolt, singleBolt]) ∧
      ∃ lookups, Questions lateClient 1 [oneBolt, twoBolts] lookups
          (.ok [usualItem oneBolt, bolt.toItem (.int 2)]) ∧
        lookups.map Lookup.request = [singleBolt, singleBolt] := by
  refine ⟨enrich_late, ?_⟩
  obtain ⟨batch, lookups, hlog, hle, hasked, -⟩ := asked_again_only_when_missed enrich_late
  match batch with
  | [] =>
    -- the question about a batch is none about a single product
    have hskus := congrArg (fun log => (log.head?.map (·.skus)).join) hlog
    cases lookups with
    | nil => simp at hlog
    | cons l lookups => nomatch hskus
  | [b] =>
    obtain ⟨-, hlookups⟩ := List.cons.inj hlog
    exact ⟨lookups, hasked, hlookups.symm⟩

/-- A product may be asked for more than once, and lines about it need not become items alike. -/
theorem bolts_not_alike :
    ¬ ∀ (c : CatalogueClient) (lines : List OrderLine) (items : List Item)
        (log : List CatalogueRequest), (enrich c true lines).run.run [] = (.ok items, log) →
      (∀ sku address, productAddress c.baseAddress sku = .ok address →
        (log.filter fun request => request.skus.isNone ∧ request.address = address).length ≤ 1) ∧
      (lines.zip items).Pairwise fun x y => x.1.sku = y.1.sku → x.2.Alike y.2 := by
  intro h
  obtain ⟨-, halike⟩ := h _ _ _ _ enrich_late
  have hpair := List.rel_of_pairwise_cons halike List.mem_cons_self rfl
  nomatch hpair.dimensions

end Enrichment

end Stowage
