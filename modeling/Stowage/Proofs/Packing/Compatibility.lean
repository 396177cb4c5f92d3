import Stowage.Packing.Validation
import Stowage.Proofs.Packing.Run

/-!
# Items that may share a package

A policy may ask that items agree on their category or on whether they are fragile
(`Policy.Allows`). It is asked in three places: of all items of a request at once
(`checkCompatibility_eq_ok_iff`), of two items (`canPackTogether_eq_true_iff`), and of an item and
what is in a package already (`allowsBeside_iff_allows`). As long as categories are texts the three
come to the same (`compatibility_checks_agree`), because agreement is an equivalence: a list agrees
when all of it agrees with its first, and a package when each item agreed with those before it.
-/

namespace Stowage

/-- The category of an item is a text. -/
def Item.HasTextCategory (i : Item) : Prop := ∃ s : RawText, i.category = .text s

/-- Two items agree on everything on which the policy asks them to. -/
structure Policy.Allows (policy : Policy) (i j : Item) : Prop where
  category : policy.mixedCategories = false → i.category = j.category
  fragile : policy.separateFragile = true → i.fragile = j.fragile

namespace Policy

theorem allows_equivalence (policy : Policy) : Equivalence policy.Allows where
  refl _ := ⟨fun _ => rfl, fun _ => rfl⟩
  symm h := ⟨fun hmixed => (h.category hmixed).symm, fun hsep => (h.fragile hsep).symm⟩
  trans h h' := ⟨fun hmixed => (h.category hmixed).trans (h'.category hmixed),
    fun hsep => (h.fragile hsep).trans (h'.fragile hsep)⟩

end Policy

variable {policy : Policy} {items : List Item} {i j : Item} {p : Package}

theorem Item.HasTextCategory.same_iff (hi : i.HasTextCategory) :
    j.category.same i.category = true ↔ j.category = i.category := by
  obtain ⟨s, hs⟩ := hi
  rw [hs, Json.same_text_iff]

namespace Validation

/-! ## Two items -/

theorem canPackTogether_eq_true_iff (hj : j.HasTextCategory) :
    canPackTogether (some i) (some j) policy = .ok true ↔ policy.Allows i j := by
  have hsame := hj.same_iff (j := i)
  unfold canPackTogether
  constructor
  · intro h
    constructor
    · intro hmixed
      simp [hmixed] at h
      exact hsame.1 h.1
    · intro hsep
      simp [hsep] at h
      exact h.2
  · rintro ⟨hcategory, hfragile⟩
    cases hmixed : policy.mixedCategories <;> cases hsep : policy.separateFragile <;>
      simp_all

/-! ## A whole request -/

/-- All values of a list agree with the first when all of them are equal. -/
theorem allSame_iff {α : Type} {same : α → α → Bool} {xs : List α}
    (hsame : ∀ x ∈ xs, ∀ y ∈ xs, same x y = true ↔ x = y) :
    allSame same xs = true ↔ ∀ x ∈ xs, ∀ y ∈ xs, x = y := by
  cases xs with
  | nil => simp [allSame]
  | cons x xs =>
    have hfirst : allSame same (x :: xs) = true ↔ ∀ y ∈ xs, x = y := by
      rw [allSame, List.all_eq_true]
      exact forall₂_congr fun y hy => hsame x List.mem_cons_self y (List.mem_cons_of_mem _ hy)
    rw [hfirst]
    constructor
    · intro h y hy z hz
      have heq : ∀ y ∈ x :: xs, x = y := List.forall_mem_cons.2 ⟨rfl, h⟩
      exact (heq y hy).symm.trans (heq z hz)
    · exact fun h y hy => h x List.mem_cons_self y (List.mem_cons_of_mem _ hy)

/-- Texts can be members of a set. -/
theorem all_isScalar_of_texts (htexts : ∀ i ∈ items, i.HasTextCategory) :
    (items.map (·.category)).all Json.isScalar = true := by
  simp only [List.all_map, List.all_eq_true]
  intro i hi
  obtain ⟨s, hs⟩ := htexts i hi
  simp [hs, Json.isScalar]

/-- What the check of a request computes when its categories can be members of a set. -/
theorem checkCompatibility_eq_ok_iff_allSame
    (hscalar : (items.map (·.category)).all Json.isScalar = true) :
    checkCompatibility items policy = .ok () ↔
      (policy.mixedCategories = false → allSame Json.same (items.map (·.category)) = true) ∧
        (policy.separateFragile = true →
          allSame (· == ·) (items.map (·.fragile)) = true) := by
  rw [checkCompatibility]
  cases policy.mixedCategories <;> cases policy.separateFragile <;>
    simp only [hscalar, Fallible.refuse, Bool.not_true, Bool.not_false, Bool.true_and] <;>
    split_ifs <;> simp_all

/-- The check of a request asks of its items what the policy asks of any two of them. -/
theorem checkCompatibility_eq_ok_iff (htexts : ∀ i ∈ items, i.HasTextCategory) :
    checkCompatibility items policy = .ok () ↔
      ∀ i ∈ items, ∀ j ∈ items, policy.Allows i j := by
  have hcategories : allSame Json.same (items.map (·.category)) = true ↔
      ∀ i ∈ items, ∀ j ∈ items, i.category = j.category := by
    rw [allSame_iff] <;> simp only [List.forall_mem_map]
    exact fun i _ j hj => (htexts j hj).same_iff
  have hfragile : allSame (· == ·) (items.map (·.fragile)) = true ↔
      ∀ i ∈ items, ∀ j ∈ items, i.fragile = j.fragile := by
    rw [allSame_iff fun _ _ _ _ => beq_iff_eq]
    simp only [List.forall_mem_map]
  rw [checkCompatibility_eq_ok_iff_allSame (all_isScalar_of_texts htexts), hcategories, hfragile]
  constructor
  · intro h i hi j hj
    exact ⟨fun hmixed => h.1 hmixed i hi j hj, fun hsep => h.2 hsep i hi j hj⟩
  · intro h
    exact ⟨fun hmixed i hi j hj => (h i hi j hj).category hmixed,
      fun hsep i hi j hj => (h i hi j hj).fragile hsep⟩

end Validation

/-! ## A package -/

namespace Package

/-- A package lets an item lie in it when the policy allows the item beside each of its own. -/
theorem allowsBeside_iff_allows (hi : i.HasTextCategory) :
    p.allowsBeside i policy = true ↔ ∀ j ∈ p.items, policy.Allows j i := by
  simp only [allowsBeside_eq_true_iff, hi.same_iff]
  exact ⟨fun h j hj => ⟨fun hmixed => h.2 hmixed j hj, fun hsep => h.1 hsep j hj⟩,
    fun h => ⟨fun hsep j hj => (h j hj).fragile hsep, fun hmixed j hj => (h j hj).category hmixed⟩⟩

/-- The items of a package built under one policy are allowed beside each other. -/
theorem Built.allows (h : Built (· = policy) p) (htexts : ∀ j ∈ p.items, j.HasTextCategory) :
    ∀ i ∈ p.items, ∀ j ∈ p.items, policy.Allows i j := by
  have hpolicy := policy.allows_equivalence
  induction h with
  | ofCarton c => simp [Package.ofCarton]
  | @add p _ x _ _ heq hadd ih =>
    subst heq
    rw [items_of_add hadd] at htexts ⊢
    obtain ⟨hold, hx⟩ := List.forall_mem_append.1 htexts
    have hbeside : ∀ j ∈ p.items, Policy.Allows _ j x :=
      (allowsBeside_iff_allows (hx x List.mem_cons_self)).1
        (accepts_eq_true_iff.1 (add_eq_ok_iff.1 hadd).1).2.2.2
    have hall : ∀ j ∈ p.items ++ [x], Policy.Allows _ j x :=
      List.forall_mem_append.2 ⟨hbeside, by simpa using hpolicy.refl x⟩
    exact fun i hi j hj => hpolicy.trans (hall i hi) (hpolicy.symm (hall j hj))

end Package

/-! ## The three places agree -/

open Validation Package

/-- **The three places that decide what may be together agree**, under every policy and for items
whose categories are texts. The check of a request lets a list pass exactly when any two of its
items may be packed together. A package accepts an item that is within its measures exactly when the
item may be packed together with each one inside, and so any two items of a package that was built
under the policy may be packed together. -/
theorem compatibility_checks_agree (policy : Policy) :
    (∀ items : List Item, (∀ i ∈ items, i.HasTextCategory) →
      (checkCompatibility items policy = .ok () ↔
        ∀ i ∈ items, ∀ j ∈ items, canPackTogether (some i) (some j) policy = .ok true)) ∧
    ∀ p : Package, Built (· = policy) p → (∀ j ∈ p.items, j.HasTextCategory) →
      (∀ i : Item, i.HasTextCategory → p.carton.canFit i.dimensions i.weight = .ok true →
        p.WithinWeight i → p.WithinVolume i policy.threshold →
          ∃ accepted, p.accepts i policy = .ok accepted ∧ (accepted = true ↔
            ∀ j ∈ p.items, canPackTogether (some j) (some i) policy = .ok true)) ∧
      ∀ i ∈ p.items, ∀ j ∈ p.items, canPackTogether (some i) (some j) policy = .ok true := by
  refine ⟨fun items htexts => ?_, fun p hbuilt htexts => ⟨fun i hi hfits hweight hvolume => ?_,
    fun i hi j hj => ?_⟩⟩
  · rw [checkCompatibility_eq_ok_iff htexts]
    exact forall₄_congr fun i _ j hj => (canPackTogether_eq_true_iff (htexts j hj)).symm
  · refine ⟨_, accepts_of_within hfits hweight hvolume, ?_⟩
    rw [allowsBeside_iff_allows hi]
    exact forall₂_congr fun j _ => (canPackTogether_eq_true_iff hi).symm
  · exact (canPackTogether_eq_true_iff (htexts j hj)).2 (hbuilt.allows htexts i hi j hj)

/-- A tile that goes beside a brick in a crate. -/
def tile : Item :=
  let side : Amount := ⟨⟨false, 5, -1⟩, Eq.refl true⟩
  { brick with
    sku := .text "TILE"
    dimensions := .known ⟨side, side, side, .inches⟩ }

/-- A tile of glass. -/
def glassTile : Item := { tile with fragile := true }

-- so that roundings of given decimals can be computed
attribute [local semireducible] digitCount

theorem tile_fits : crate.canFit tile.dimensions tile.weight = .ok true :=
  Carton.canFit_of_pairwise ⟨rfl, rfl⟩ (by decide) (by decide) (by decide) (by decide) (by decide)

theorem crateOfBrick_accepts_tile : crateOfBrick.accepts tile .usual = .ok true :=
  bind_eq_ok_of_toOption tile_fits (by decide)

/-- A tile of glass is within the measures of a crate with a brick in it, but it must not be packed
together with the brick: the crate refuses it, and so does the check of a request for both. -/
theorem compatibility_checks_agree_tiles :
    Built (· = Policy.usual) crateOfBrick ∧ glassTile.HasTextCategory ∧
      crateOfBrick.WithinWeight glassTile ∧
      crateOfBrick.WithinVolume glassTile Policy.usual.threshold ∧
      crateOfBrick.accepts glassTile .usual = .ok false ∧
      checkCompatibility [brick, glassTile] .usual ≠ .ok () := by
  have hagree := compatibility_checks_agree .usual
  have hbuilt : Built (· = Policy.usual) crateOfBrick := .add (.ofCarton crate) rfl add_brick
  have hbrick : brick.HasTextCategory := ⟨_, rfl⟩
  have hglass : glassTile.HasTextCategory := ⟨_, rfl⟩
  have hapart : canPackTogether (some brick) (some glassTile) .usual = .ok false := rfl
  obtain ⟨hfits, hweight, hvolume, -⟩ := accepts_eq_true_iff.1 crateOfBrick_accepts_tile
  obtain ⟨accepted, haccepts, hiff⟩ := (hagree.2 crateOfBrick hbuilt (by simpa [crateOfBrick])).1
    glassTile hglass hfits hweight hvolume
  refine ⟨hbuilt, hglass, hweight, hvolume, ?_, fun hcheck => ?_⟩
  · cases accepted with
    | false => exact haccepts
    | true => simpa [hapart] using hiff.1 rfl brick (by simp [crateOfBrick])
  · have htogether := (hagree.1 [brick, glassTile] (by simp [hbrick, hglass])).1 hcheck brick
      (by simp) glassTile (by simp)
    simp [hapart] at htogether

end Stowage
