import Stowage.Proofs.Package.Acceptance

/-!
# Packages made by adding items

A package is built when it comes from an empty one by adding items (`Built`), each under a policy
of some kind. Its totals are the sums of the measures of its items, from left to right
(`Built.weight_isTotal`, `Built.volume_isTotal`), and it keeps every rule that was checked when the
items were added (`Built.filled`).
-/

namespace Stowage

/-! ## Texts that agree -/

namespace Json

/-- Two values are equal if they are texts. -/
def AgreeAsTexts (x y : Json) : Prop := ∀ s t : RawText, x = .text s → y = .text t → s = t

theorem AgreeAsTexts.refl (x : Json) : x.AgreeAsTexts x := by
  rintro s t rfl ht
  simpa using ht

theorem agreeAsTexts_of_same {x y : Json} (h : x.same y = true) : x.AgreeAsTexts y := by
  rintro s t rfl rfl
  simpa [same] using h

instance (f : Item → Json) : Std.Symm fun i j => (f i).AgreeAsTexts (f j) :=
  ⟨fun _ _ h s t hs ht => (h t s ht hs).symm⟩

end Json

/-! ## Rules -/

namespace Package

open Decimal

/-- A package that comes from an empty one by adding items under policies that satisfy `Q`. -/
inductive Built (Q : Policy → Prop) : Package → Prop
  | ofCarton (c : Carton) : Built Q (Package.ofCarton c)
  | add {p q : Package} {i : Item} {policy : Policy} (h : Built Q p) (hpolicy : Q policy)
      (hadd : p.add i policy = .ok q) : Built Q q

/-- A total is the sum of a measure of the items, from left to right. -/
def IsTotal (measure : Item → Fallible Decimal) (items : List Item) (total : Decimal) : Prop :=
  ∃ xs, items.mapM measure = .ok xs ∧ Decimal.sum xs = .ok total

theorem isTotal_nil (measure : Item → Fallible Decimal) : IsTotal measure [] .zero := ⟨[], rfl, rfl⟩

theorem IsTotal.concat {measure : Item → Fallible Decimal} {items : List Item} {i : Item}
    {t x u : Decimal} (h : IsTotal measure items t) (hx : measure i = .ok x)
    (hu : t.add x = .ok u) : IsTotal measure (items ++ [i]) u := by
  obtain ⟨xs, hxs, hsum⟩ := h
  refine ⟨xs ++ [x], ?_, foldlM_concat_eq_ok.2 ⟨t, hsum, hu⟩⟩
  simp [List.mapM_append, hxs, hx]

section IsTotal

variable {measure : Item → Fallible Decimal} {xs ys : List Item} {i : Item} {t u : Decimal}

theorem IsTotal.unique (h : IsTotal measure xs t) (h' : IsTotal measure xs u) : t = u := by
  obtain ⟨vs, hvs, hsum⟩ := h
  obtain ⟨ws, hws, hsum'⟩ := h'
  cases hvs.symm.trans hws
  exact Except.ok.inj (hsum.symm.trans hsum')

/-- A total is one of all items but the last, with that of the last added. -/
theorem IsTotal.exists_concat (h : IsTotal measure (xs ++ [i]) u) :
    ∃ t x, IsTotal measure xs t ∧ measure i = .ok x ∧ t.add x = .ok u := by
  obtain ⟨vs, hvs, hsum⟩ := h
  rw [List.mapM_append] at hvs
  obtain ⟨ws, hws, hvs⟩ := bind_eq_ok.1 hvs
  obtain ⟨last, hlast, hvs⟩ := bind_eq_ok.1 hvs
  obtain ⟨x, rest, hx, hrest, rfl⟩ := mapM_eq_ok_cons.1 hlast
  cases hrest
  rw [← pure_eq_ok.1 hvs] at hsum
  obtain ⟨t, ht, hu⟩ := foldlM_concat_eq_ok.1 hsum
  exact ⟨t, x, ⟨ws, hws, ht⟩, hx, hu⟩

variable (hmeasure : ∀ i x, measure i = .ok x → 0 ≤ x.toRat)
include hmeasure

/-- A total of measures that are not negative is not negative and has no digit too many. -/
theorem IsTotal.nonneg (h : IsTotal measure xs t) : 0 ≤ t.toRat ∧ rounded t.toRat = t.toRat := by
  induction xs using List.reverseRecOn generalizing t with
  | nil =>
    cases h.unique (isTotal_nil measure)
    simp
  | append_singleton xs i ih =>
    obtain ⟨s, x, hs, hx, ht⟩ := h.exists_concat
    exact nonneg_of_add (ih hs).1 (hmeasure i x hx) ht

/-- The items at the beginning have a total, which is not larger. -/
theorem IsTotal.exists_prefix (h : IsTotal measure (xs ++ ys) u) :
    ∃ t, IsTotal measure xs t ∧ t.toRat ≤ u.toRat := by
  induction ys using List.reverseRecOn generalizing u with
  | nil => exact ⟨u, by simpa using h, le_rfl⟩
  | append_singleton ys i ih =>
    rw [← List.append_assoc] at h
    obtain ⟨s, x, hs, hx, hu⟩ := h.exists_concat
    obtain ⟨t, ht, hle⟩ := ih hs
    exact ⟨t, ht, hle.trans (le_of_add (hs.nonneg hmeasure).2 (hmeasure i x hx) hu)⟩

end IsTotal

/-- The rules of a policy and of the carton, for the items of a package. -/
structure Filled (p : Package) (policy : Policy) : Prop where
  fits : ∀ i ∈ p.items, p.carton.canFit i.dimensions i.weight = .ok true
  /-- The weight is the sum of the weights of the items. -/
  weight : IsTotal p.itemWeight p.items p.currentWeight
  /-- The carton carries the weight. -/
  carried : ∃ m, p.carton.maxWeight = .known m ∧ p.currentWeight.toRat ≤ m.value.value.toRat
  /-- The volume in use is the sum of the volumes of the items. -/
  volume : IsTotal p.itemVolume p.items p.usedVolume
  /-- The carton has a volume, and the part of it in use is not above the threshold. -/
  utilized : ∃ v r, p.cartonVolume = .ok v ∧ 0 < v.toRat ∧ p.usedVolume.ratio v = .ok r ∧
    policy.threshold.Admits r.toRat
  fragile : policy.separateFragile = true →
    ∀ i ∈ p.items, ∀ j ∈ p.items, i.fragile = j.fragile
  category : policy.mixedCategories = false →
    p.items.Pairwise fun i j => i.category.same j.category = true

/-- Categories that are texts are equal when categories may not be mixed. -/
theorem Filled.category_eq {p : Package} {policy : Policy} (h : p.Filled policy)
    (hmixed : policy.mixedCategories = false) {i j : Item} (hi : i ∈ p.items) (hj : j ∈ p.items)
    {s t : RawText} (hs : i.category = .text s) (ht : j.category = .text t) : s = t :=
  ((h.category hmixed).imp Json.agreeAsTexts_of_same).forall_of_forall
    (fun i _ => Json.AgreeAsTexts.refl i.category) hi hj s t hs ht

namespace Built

variable {Q R : Policy → Prop} {p q : Package} {i : Item} {policy : Policy}

theorem mono (hQR : ∀ policy, Q policy → R policy) (h : Built Q p) : Built R p := by
  induction h with
  | ofCarton c => exact .ofCarton c
  | add _ hpolicy hadd ih => exact .add ih (hQR _ hpolicy) hadd

theorem sound (h : Built Q p) : p.Sound := by
  induction h with
  | ofCarton c => exact sound_ofCarton c
  | add _ _ hadd ih => exact ih.of_add hadd

theorem weight_isTotal (h : Built Q p) : IsTotal p.itemWeight p.items p.currentWeight := by
  induction h with
  | ofCarton c => exact isTotal_nil _
  | add _ _ hadd ih =>
    obtain ⟨-, s, u, hs, hu, rfl⟩ := add_eq_ok_iff.1 hadd
    obtain ⟨w, hw, hs⟩ := weightWith_eq_ok.1 hs
    exact ih.concat hw hs

theorem volume_isTotal (h : Built Q p) : IsTotal p.itemVolume p.items p.usedVolume := by
  induction h with
  | ofCarton c => exact isTotal_nil _
  | add _ _ hadd ih =>
    obtain ⟨-, s, u, hs, hu, rfl⟩ := add_eq_ok_iff.1 hadd
    obtain ⟨v, hv, hu⟩ := volumeWith_eq_ok.1 hu
    exact ih.concat hv hu

theorem fits (h : Built Q p) : ∀ i ∈ p.items, p.carton.canFit i.dimensions i.weight = .ok true := by
  induction h with
  | ofCarton c => simp [Package.ofCarton]
  | add _ _ hadd ih =>
    obtain ⟨ha, s, u, -, -, rfl⟩ := add_eq_ok_iff.1 hadd
    have hfit := (accepts_eq_true_iff.1 ha).1
    intro i hi
    rcases List.mem_append.1 hi with hi | hi
    · exact ih i hi
    · rw [List.mem_singleton.1 hi]
      exact hfit

/-- A package with something in it got its last item under some policy. -/
theorem exists_last (h : Built Q p) (hne : p.items ≠ []) :
    ∃ (p₀ : Package) (i : Item) (policy : Policy),
      Built Q p₀ ∧ Q policy ∧ p₀.add i policy = .ok p := by
  cases h with
  | ofCarton c => exact absurd rfl hne
  | add h hpolicy hadd => exact ⟨_, _, _, h, hpolicy, hadd⟩

theorem carried (h : Built Q p) (hne : p.items ≠ []) :
    ∃ m, p.carton.maxWeight = .known m ∧ p.currentWeight.toRat ≤ m.value.value.toRat := by
  obtain ⟨p₀, i, policy, -, -, hadd⟩ := h.exists_last hne
  obtain ⟨ha, s, u, hs, -, rfl⟩ := add_eq_ok_iff.1 hadd
  obtain ⟨-, ⟨s', m, hs', hm, hle⟩, -⟩ := accepts_eq_true_iff.1 ha
  cases hs.symm.trans hs'
  exact ⟨m, hm, hle⟩

theorem utilized (h : Built Q p) (hne : p.items ≠ []) :
    ∃ policy, Q policy ∧ ∃ v r, p.cartonVolume = .ok v ∧ 0 < v.toRat ∧
      p.usedVolume.ratio v = .ok r ∧ policy.threshold.Admits r.toRat := by
  obtain ⟨p₀, i, policy, -, hpolicy, hadd⟩ := h.exists_last hne
  obtain ⟨ha, s, u, -, hu, rfl⟩ := add_eq_ok_iff.1 hadd
  obtain ⟨-, -, ⟨v, u', r, hv, hpos, hu', hr, ht⟩, -⟩ := accepts_eq_true_iff.1 ha
  cases hu.symm.trans hu'
  exact ⟨policy, hpolicy, v, r, hv, hpos, hr, ht⟩

theorem fragile (h : Built Q p) (hQ : ∀ policy, Q policy → policy.separateFragile = true) :
    ∀ i ∈ p.items, ∀ j ∈ p.items, i.fragile = j.fragile := by
  induction h with
  | ofCarton c => simp [Package.ofCarton]
  | @add p _ x policy _ hpolicy hadd ih =>
    obtain ⟨ha, s, u, -, -, rfl⟩ := add_eq_ok_iff.1 hadd
    have hx : ∀ j ∈ p.items, j.fragile = x.fragile :=
      (allowsBeside_eq_true_iff.1 (accepts_eq_true_iff.1 ha).2.2.2).1 (hQ policy hpolicy)
    have heq : ∀ j ∈ p.items ++ [x], j.fragile = x.fragile := by
      intro j hj
      rcases List.mem_append.1 hj with hj | hj
      · exact hx j hj
      · rw [List.mem_singleton.1 hj]
    intro i hi j hj
    rw [heq i hi, heq j hj]

theorem category (h : Built Q p) (hQ : ∀ policy, Q policy → policy.mixedCategories = false) :
    p.items.Pairwise fun i j => i.category.same j.category = true := by
  induction h with
  | ofCarton c => exact .nil
  | @add p _ x policy _ hpolicy hadd ih =>
    obtain ⟨ha, s, u, -, -, rfl⟩ := add_eq_ok_iff.1 hadd
    have hx : ∀ j ∈ p.items, j.category.same x.category = true :=
      (allowsBeside_eq_true_iff.1 (accepts_eq_true_iff.1 ha).2.2.2).2 (hQ policy hpolicy)
    refine List.pairwise_append.2 ⟨ih, List.pairwise_singleton _ _, fun j hj y hy => ?_⟩
    rw [List.mem_singleton.1 hy]
    exact hx j hj

/-- **A package built under one policy keeps the rules of the policy and of its carton.** -/
theorem filled (h : Built (· = policy) p) (hne : p.items ≠ []) : p.Filled policy := by
  obtain ⟨_, rfl, hutilized⟩ := h.utilized hne
  exact {
    fits := h.fits
    weight := h.weight_isTotal
    carried := h.carried hne
    volume := h.volume_isTotal
    utilized := hutilized
    fragile := fun hsep => h.fragile fun _ hpolicy => hpolicy ▸ hsep
    category := fun hmixed => h.category fun _ hpolicy => hpolicy ▸ hmixed }

end Built

end Package

end Stowage
