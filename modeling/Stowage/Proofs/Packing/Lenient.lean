import Stowage.Proofs.Packing.Compatibility

/-!
# Packing after validation

A validated request agrees throughout on whatever the policy asks its items to agree on. So all its
pieces are allowed beside each other, a package never refuses a piece because of what is in it
already (`accepts_lenient`), and a policy that asks for no agreement packs in the same way, piece by
piece (`placeAll_lenient`), with the same packages or the same failure (`pack_lenient`).
-/

namespace Stowage

/-- The policy without the rules on what may share a package. -/
def Policy.lenient (policy : Policy) : Policy :=
  { policy with mixedCategories := true, separateFragile := false }

namespace Packing

open Package Validation

variable {policy : Policy} {cs : List Carton} {items units : List Item} {i : Item} {p : Package}

/-- A package that would let the item lie in it looks at nothing but its measures. -/
theorem accepts_lenient (h : p.allowsBeside i policy = true) :
    p.accepts i policy.lenient = p.accepts i policy := by
  have hlenient : p.allowsBeside i policy.lenient = true := rfl
  simp only [accepts, h, hlenient]
  rfl

/-- Items that are all allowed beside each other are placed in the same way, whether the policy asks
anything of them or not. -/
theorem placeAll_lenient (htexts : ∀ i ∈ units, i.HasTextCategory)
    (h : ∀ i ∈ units, ∀ j ∈ units, policy.Allows i j) :
    placeAll policy.lenient cs units = placeAll policy cs units := by
  refine placeAll_congr fun done i rest ps hunits hrun => ?_
  have hi : i ∈ units := by simp [hunits]
  -- whatever is in an open package has been placed before
  have hopen : ∀ p ∈ ps, ∀ j ∈ p.items, j ∈ units := by
    intro p hp j hj
    have hdone : j ∈ done := hrun.contents.mem_iff.1 (List.mem_flatMap.2 ⟨p, hp, hj⟩)
    simp [hunits, hdone]
  refine place_congr rfl (fun p hp => accepts_lenient ?_) fun c _ => accepts_lenient ?_
  · exact (allowsBeside_iff_allows (htexts i hi)).2 fun j hj => h j (hopen p hp j hj) i hi
  · exact (allowsBeside_iff_allows (htexts i hi)).2 (by simp [ofCarton])

/-- The pieces of a request that passes the check are all allowed beside each other. -/
theorem allows_of_sortItems (htexts : ∀ i ∈ items, i.HasTextCategory)
    (hcheck : checkCompatibility items policy = .ok ()) (hunits : sortItems items = .ok units) :
    (∀ u ∈ units, u.HasTextCategory) ∧ ∀ u ∈ units, ∀ v ∈ units, policy.Allows u v := by
  have hallows := (checkCompatibility_eq_ok_iff htexts).1 hcheck
  obtain ⟨us, hus, hperm⟩ := sortItems_perm hunits
  -- a piece has the category of its line and is as fragile
  have hline : ∀ u ∈ units, ∃ i ∈ items, u.category = i.category ∧ u.fragile = i.fragile := by
    intro u hu
    obtain ⟨i, hi, rfl | rfl⟩ := mem_allUnits hus u (hperm.mem_iff.1 hu)
    · exact ⟨_, hi, rfl, rfl⟩
    · exact ⟨i, hi, rfl, rfl⟩
  refine ⟨fun u hu => ?_, fun u hu v hv => ?_⟩
  · obtain ⟨i, hi, hcategory, -⟩ := hline u hu
    obtain ⟨s, hs⟩ := htexts i hi
    exact ⟨s, hcategory.trans hs⟩
  · obtain ⟨i, hi, hcategory, hfragile⟩ := hline u hu
    obtain ⟨j, hj, hcategory', hfragile'⟩ := hline v hv
    have h := hallows i hi j hj
    constructor
    · rw [hcategory, hcategory']
      exact h.category
    · rw [hfragile, hfragile']
      exact h.fragile

end Packing

theorem Validation.checkCompatibility_of_check {items : List Item} {policy : Policy}
    (h : check (some (items.map some)) (some policy) = .ok ()) :
    checkCompatibility items policy = .ok () := by
  cases items with
  | nil => simp [check, Fallible.refuse] at h
  | cons i items =>
    obtain ⟨_, -, h⟩ := bind_eq_ok.1 h
    obtain ⟨n, -, h⟩ := bind_eq_ok.1 h
    by_cases hunits : maxUnits < n
    · simp [hunits, bind_eq_ok] at h
    · simpa [hunits, List.filterMap_map] using h

open Packing

/-- **After validation, packing does not depend on the rules on what may share a package.** A
request that passes validation, with categories that are texts, is packed with the same outcome when
the policy lets categories be mixed and does not keep fragile items apart: the same packages with
the same cartons and items, or the same failure. -/
theorem pack_lenient {items : List Item} {policy : Policy}
    (htexts : ∀ i ∈ items, i.HasTextCategory)
    (hcheck : Validation.check (some (items.map some)) (some policy) = .ok ())
    (cartons : List Carton) (supply : Supply) :
    pack items cartons { policy with mixedCategories := true, separateFragile := false } supply =
      pack items cartons policy supply := by
  have hpackages : packages items cartons policy.lenient = packages items cartons policy := by
    have hcompatible := Validation.checkCompatibility_of_check hcheck
    rw [packages, packages]
    cases hunits : sortItems items with
    | error f => rfl
    | ok units =>
      obtain ⟨hcategories, hallows⟩ := allows_of_sortItems htexts hcompatible hunits
      simp only [ok_bind, placeAll_lenient hcategories hallows]
  rw [Policy.lenient] at hpackages
  rw [pack, pack, hpackages]

-- so that roundings of given decimals can be computed
attribute [local semireducible] digitCount

/-- Two bricks pass the check of the strictest policy, and it packs them as the usual one does. -/
theorem pack_lenient_bricks :
    let strict := { Policy.usual with mixedCategories := false }
    Validation.check (some ([bricks].map some)) (some strict) = .ok () ∧
      (pack [bricks] [crate] strict .start).1 =
        .ok (Solution.create [crateOfBrick, crateOfBrick] none .start).1 := by
  intro strict
  have htexts : ∀ i ∈ [bricks], i.HasTextCategory := by
    simpa using ⟨_, rfl⟩
  have hstrict : Validation.check (some ([bricks].map some)) (some strict) = .ok () :=
    eq_ok_of_toOption (by decide)
  have husual : Validation.check (some ([bricks].map some)) (some .usual) = .ok () :=
    eq_ok_of_toOption (by decide)
  have hsame : pack [bricks] [crate] strict .start = pack [bricks] [crate] .usual .start :=
    (pack_lenient htexts hstrict [crate] .start).symm.trans
      (pack_lenient htexts husual [crate] .start)
  exact ⟨hstrict, by rw [hsame, pack_bricks]⟩

end Stowage
