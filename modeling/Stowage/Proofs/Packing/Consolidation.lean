import Stowage.Proofs.Packing.Agreement
import Stowage.Proofs.Packing.Capacity
import Stowage.Proofs.Packing.Feasibility

/-!
# Requests for a single package

With one active carton a calculation uses a single package exactly when all pieces together keep the
rules of the policy and of the carton (`pack_single_iff`). The pieces are placed one after the
other, so each of them is looked at with those before it only; but what holds of all of them holds
of every beginning (`Together.exists_prefix`), because totals and ratios never go down as pieces are
added.
-/

namespace Stowage

namespace Packing

open Package

variable {policy : Policy} {c : Carton} {xs ys units : List Item} {i : Item} {ps : List Package}
  {p : Package}

/-! ## Items together -/

/-- Items that keep the rules of a policy when all of them are put into one package: each fits into
the carton, their weights from left to right come to what the carton carries at most, the ratio of
their volumes to that of the carton is within the threshold, and they agree on what the policy asks
them to agree on. -/
def Together (policy : Policy) (c : Carton) (items : List Item) : Prop :=
  ∃ weight volume, Filled ⟨c, items, weight, volume⟩ policy

/-- What holds of items together holds of those at the beginning. -/
theorem Together.exists_prefix (h : Together policy c (xs ++ ys)) : Together policy c xs := by
  obtain ⟨w, u, h⟩ := h
  obtain ⟨w', hw', hwle⟩ := h.weight.exists_prefix fun _ _ hx => (itemWeight_pos hx).le
  obtain ⟨u', hu', hule⟩ := h.volume.exists_prefix fun _ _ hx => itemVolume_nonneg hx
  obtain ⟨m, hm, hcarried⟩ := h.carried
  obtain ⟨v, r, hv, hpos, hr, hadmits⟩ := h.utilized
  have hu0 := (hu'.nonneg fun _ _ hx => itemVolume_nonneg hx).1
  obtain ⟨r', hr', hrle⟩ := Decimal.ratio_mono hu0 hule hpos hr
  exact ⟨w', u', {
    fits := fun i hi => h.fits i (List.mem_append_left ys hi)
    weight := hw'
    carried := ⟨m, hm, hwle.trans hcarried⟩
    volume := hu'
    utilized := ⟨v, r', hv, hpos, hr', hadmits.mono hrle⟩
    fragile := fun hsep i hi j hj =>
      h.fragile hsep i (List.mem_append_left ys hi) j (List.mem_append_left ys hj)
    category := fun hmixed => (List.pairwise_append.1 (h.category hmixed)).1 }⟩

/-- A package with the items before it accepts the last of items together. -/
theorem Together.exists_accepts (h : Together policy c (xs ++ [i])) :
    ∃ w u, IsTotal (ofCarton c).itemWeight xs w ∧ IsTotal (ofCarton c).itemVolume xs u ∧
      accepts ⟨c, xs, w, u⟩ i policy = .ok true := by
  obtain ⟨w, u, h⟩ := h
  obtain ⟨w', x, hw', hx, hw⟩ := h.weight.exists_concat
  obtain ⟨u', y, hu', hy, hu⟩ := h.volume.exists_concat
  obtain ⟨m, hm, hcarried⟩ := h.carried
  obtain ⟨v, r, hv, hpos, hr, hadmits⟩ := h.utilized
  have hi : i ∈ xs ++ [i] := by simp
  refine ⟨w', u', hw', hu', accepts_eq_true_iff.2 ⟨h.fits i hi, ⟨w, m, ?_, hm, hcarried⟩,
    ⟨v, u, r, hv, hpos, ?_, hr, hadmits⟩, allowsBeside_eq_true_iff.2 ⟨fun hsep j hj => ?_,
      fun hmixed j hj => ?_⟩⟩⟩
  · exact weightWith_eq_ok.2 ⟨x, hx, hw⟩
  · exact volumeWith_eq_ok.2 ⟨y, hy, hu⟩
  · exact h.fragile hsep j (List.mem_append_left [i] hj) i hi
  · exact (List.pairwise_append.1 (h.category hmixed)).2.2 j hj i (by simp)

/-- A built package that holds the items before it accepts the last of items together. -/
theorem Together.accepts_of_built {Q : Policy → Prop} (h : Together policy c (xs ++ [i]))
    (hp : Built Q p) (hcarton : p.carton = c) (hitems : p.items = xs) :
    p.accepts i policy = .ok true := by
  obtain ⟨w, u, hw, hu, haccepts⟩ := h.exists_accepts
  have hweight := hp.weight_isTotal
  have hvolume := hp.volume_isTotal
  obtain ⟨_, _, w', u'⟩ := p
  subst hcarton hitems
  cases hweight.unique hw
  cases hvolume.unique hu
  exact haccepts

/-- A new package accepts each of items together. -/
theorem Together.accepts_alone (h : Together policy c units) (hi : i ∈ units) :
    (ofCarton c).accepts i policy = .ok true := by
  obtain ⟨before, after, rfl⟩ := List.append_of_mem hi
  rw [List.append_cons] at h
  obtain ⟨w, u, hw, hu, haccepts⟩ := h.exists_prefix.exists_accepts
  obtain ⟨hw0, hwr⟩ := hw.nonneg fun _ _ hx => (itemWeight_pos hx).le
  obtain ⟨hu0, hur⟩ := hu.nonneg fun _ _ hx => itemVolume_nonneg hx
  have hsound : Sound ⟨c, before, w, u⟩ := ⟨hw0, hu0, hwr, hur⟩
  exact accepts_of_stageOf (sound_ofCarton c) (stageOf_ofCarton hsound) haccepts

/-! ## Runs with a single package -/

/-- A single package holds the items in the order in which they were placed. -/
theorem Run.items_eq {cs : List Carton} (h : Run policy cs units [p]) : p.items = units := by
  induction units using List.reverseRecOn generalizing p with
  | nil => simpa using run_nil h
  | append_singleton done i ih =>
    obtain ⟨qs, hqs, hplaced⟩ := run_concat h
    obtain ⟨before, p₀, q, after, hps, hadd, hold⟩ := hplaced.exists_add
    obtain ⟨rfl, rfl, rfl⟩ : before = [] ∧ q = p ∧ after = [] := by
      simpa [List.cons_eq_append_iff] using hps
    rw [items_of_add hadd]
    rcases hold with rfl | ⟨rfl, -, c, -, rfl⟩
    · rw [ih hqs]
    · have hdone : done = [] := by simpa using hqs.contents.symm.eq_nil
      simp [hdone, ofCarton]

/-- Items together are all put into one package. -/
theorem Together.length_eq_one (h : Together policy c units) (hne : units ≠ [])
    (hrun : Run policy [c] units ps) : ps.length = 1 := by
  induction units using List.reverseRecOn generalizing ps with
  | nil => exact absurd rfl hne
  | append_singleton done i ih =>
    obtain ⟨qs, hqs, hplaced⟩ := run_concat hrun
    by_cases hdone : done = []
    · subst hdone
      obtain ⟨before, _, q, after, rfl, -, hold⟩ := hplaced.exists_add
      obtain ⟨rfl, rfl, -⟩ : before = [] ∧ after = [] ∧ _ := by simpa [run_nil hqs] using hold
      rfl
    · have hone := ih h.exists_prefix hdone hqs
      cases hplaced with
      | inserted => simpa using hone
      | opened hchoose =>
        -- the package that is open would have accepted the item
        obtain ⟨q, rfl⟩ := List.length_eq_one_iff.1 hone
        have hused := hqs.inUse q (by simp)
        have haccepts := h.accepts_of_built hused.built (by simpa using hused.carton) hqs.items_eq
        have hrefuses := choose_eq_none_iff.1 hchoose q (by simp)
        cases haccepts.symm.trans hrefuses

end Packing

open Packing

variable {items : List Item} {cartons : List Carton} {policy : Policy} {supply : Supply}
  {c : Carton}

/-- **When a single package is enough.** With one active carton, as long as nothing signals and no
defect of an item or a carton comes to light, a calculation for at least one piece returns a single
package exactly when the pieces keep the rules together. This does not depend on which open package
is looked for. -/
theorem pack_single_iff (hone : cartons.filter Carton.isActive = [c])
    (hclean : ∀ f, (pack items cartons policy supply).1 = .error f → ¬ f.IsSignal)
    (hdefects : ∀ f, (pack items cartons policy supply).1 = .error f → ¬ f.IsDefect) :
    ∃ units, sortItems items = .ok units ∧ (units ≠ [] →
      ((∃ s, (pack items cartons policy supply).1 = .ok s ∧ s.totalPackages = 1) ↔
        Together policy c units)) := by
  obtain ⟨units, hunits, hreturns, -⟩ := exists_units_of_clean hclean hdefects
  have hrun : ∀ s, (pack items cartons policy supply).1 = .ok s →
      Run policy [c] units s.packages := by
    intro s hs
    obtain ⟨units', cs, hunits', hcs, hrun⟩ := run_of_pack hs
    cases hunits.symm.trans hunits'
    have hperm := sortCartons_perm hcs
    rw [hone, List.perm_singleton] at hperm
    exact hperm ▸ hrun
  refine ⟨units, hunits, fun hne => ⟨?_, fun htogether => ?_⟩⟩
  · rintro ⟨s, hs, hcount⟩
    have hs := hrun s hs
    obtain ⟨p, hp⟩ := List.length_eq_one_iff.1 hcount
    rw [hp] at hs
    have hused := hs.inUse p (by simp)
    have hfilled := hused.built.filled hused.nonempty
    have hcarton : p.carton = c := by simpa using hused.carton
    have hitems := hs.items_eq
    obtain ⟨_, _, w, u⟩ := p
    subst hcarton hitems
    exact ⟨w, u, hfilled⟩
  · obtain ⟨s, hs⟩ := hreturns.2 fun i hi hrefused => by
      have hc : c ∈ cartons.filter Carton.isActive := by simp [hone]
      obtain ⟨hmem, hactive⟩ := List.mem_filter.1 hc
      cases (htogether.accepts_alone hi).symm.trans (hrefused c hmem hactive)
    exact ⟨s, hs, htogether.length_eq_one hne (hrun s hs)⟩

/-- Two pills are put into one box, so they keep the rules together. -/
theorem pack_single_iff_pills :
    [pillbox].filter Carton.isActive = [pillbox] ∧
      (∀ f, (pack [pills] [pillbox] .usual .start).1 = .error f → ¬ f.IsSignal) ∧
      (∀ f, (pack [pills] [pillbox] .usual .start).1 = .error f → ¬ f.IsDefect) ∧
      Together .usual pillbox [pill, pill] := by
  have hclean : ∀ f, (pack [pills] [pillbox] .usual .start).1 = .error f → ¬ f.IsSignal := by
    simp [pack_pills]
  have hdefects : ∀ f, (pack [pills] [pillbox] .usual .start).1 = .error f → ¬ f.IsDefect := by
    simp [pack_pills]
  obtain ⟨units, hunits, hiff⟩ := pack_single_iff rfl hclean hdefects
  cases hunits.symm.trans sortItems_pills
  exact ⟨rfl, hclean, hdefects, (hiff (by simp)).1 ⟨_, pack_pills, rfl⟩⟩

end Stowage
