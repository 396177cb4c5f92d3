import Stowage.Proofs.Decimal.Sum
import Stowage.Proofs.Package.Answers
import Stowage.Proofs.Packing.Agreement
import Stowage.Proofs.Packing.Capacity
import Stowage.Proofs.Packing.Rearrangement

/-!
# Calculations that never break off

A request that passes validation, on cartons whose measures are in range, is packed or found
infeasible (`pack_never_signals`). Every step of the way has an outcome: the volumes to sort by, the
choice of an open package (`exists_choose`), a new package (`openPackage_cases`), the placing of one
item (`place_cases`) and so of all (`placeAll_cases`), and the mean of what is in use.
-/

namespace Stowage

open Decimal

namespace Packing

open Package

variable {policy : Policy} {cs : List Carton} {items units : List Item} {i : Item}
  {ps : List Package}

/-! ## Choosing an open package -/

theorem exists_firstAccepting (h : ∀ p ∈ ps, ∃ accepted, p.accepts i policy = .ok accepted) :
    ∃ found, firstAccepting policy i ps = .ok found := by
  induction ps with
  | nil => exact ⟨none, rfl⟩
  | cons p ps ih =>
    obtain ⟨⟨accepted, ha⟩, hps⟩ := List.forall_mem_cons.1 h
    obtain ⟨found, hfound⟩ := ih hps
    cases accepted with
    | true => exact ⟨some 0, by simp [firstAccepting, ha]⟩
    | false => exact ⟨found.map (· + 1), by simp [firstAccepting, ha, hfound]⟩

theorem exists_tightestFrom (h : ∀ p ∈ ps, (∃ accepted, p.accepts i policy = .ok accepted) ∧
    ∃ r, p.remainingVolumeIn .centimeters = .ok r) (n : ℕ) (best : Option Candidate) :
    ∃ found, tightestFrom policy i n best ps = .ok found := by
  induction ps generalizing n best with
  | nil => exact ⟨best, rfl⟩
  | cons p ps ih =>
    obtain ⟨⟨⟨accepted, ha⟩, r, hr⟩, hps⟩ := List.forall_mem_cons.1 h
    cases accepted with
    | true =>
      obtain ⟨found, hfound⟩ := ih hps (n + 1) (some (Candidate.better best ⟨n, r⟩))
      exact ⟨found, by simp [tightestFrom, ha, hr, hfound]⟩
    | false =>
      obtain ⟨found, hfound⟩ := ih hps (n + 1) best
      exact ⟨found, by simp [tightestFrom, ha, hfound]⟩

/-- A choice can be made among packages that all answer. -/
theorem exists_choose (h : ∀ p ∈ ps, (∃ accepted, p.accepts i policy = .ok accepted) ∧
    ∃ r, p.remainingVolumeIn .centimeters = .ok r) : ∃ chosen, choose policy i ps = .ok chosen := by
  unfold choose
  split_ifs
  · obtain ⟨best, hbest⟩ := exists_tightestFrom h 0 none
    exact ⟨best.map (·.position), by simp [tightestAccepting, hbest]⟩
  · exact exists_firstAccepting fun p hp => (h p hp).1

/-! ## Placing items -/

/-- A new package can be opened, or no carton takes the item. -/
theorem openPackage_cases (hshown : i.sku.hasLongNumber = false)
    (h : ∀ c ∈ cs, (∃ fits, c.canFit i.dimensions i.weight = .ok fits) ∧
      ∃ accepted, (ofCarton c).accepts i policy = .ok accepted) :
    (∃ p, openPackage policy i cs = .ok p) ∨
      openPackage policy i cs = .error (.domain (.infeasible i.sku)) := by
  induction cs with
  | nil => exact .inr (Fallible.refuseShowing_of_short hshown)
  | cons c cs ih =>
    obtain ⟨⟨⟨fits, hfits⟩, accepted, ha⟩, hcs⟩ := List.forall_mem_cons.1 h
    cases fits with
    | false => simpa [openPackage, hfits] using ih hcs
    | true =>
      cases accepted with
      | false => simpa [openPackage, hfits, ha] using ih hcs
      | true => exact .inl ⟨ofCarton c, by simp [openPackage, hfits, ha]⟩

section Sized

variable (hpolicy : policy.InRange) (hcs : ∀ c ∈ cs, c.Sized)
include hpolicy hcs

/-- **An item can be placed, or no carton takes it.** -/
theorem place_cases (hi : i.Sized) (hshown : i.sku.hasLongNumber = false)
    (hps : ∀ p ∈ ps, InUse policy cs p) :
    (∃ ps', place policy cs ps i = .ok ps') ∨
      place policy cs ps i = .error (.domain (.infeasible i.sku)) := by
  have hopen : ∀ p ∈ ps, (∃ accepted, p.accepts i policy = .ok accepted) ∧
      ∃ r, p.remainingVolumeIn .centimeters = .ok r := by
    intro p hp
    have hbuilt := (hps p hp).built_inRange hpolicy
    have hcarton := hcs p.carton (hps p hp).carton
    exact ⟨hbuilt.exists_accepts_of_sized hpolicy hcarton hi,
      hbuilt.exists_remainingVolumeIn_of_sized hcarton _⟩
  have hfresh : ∀ c ∈ cs, (∃ fits, c.canFit i.dimensions i.weight = .ok fits) ∧
      ∃ accepted, (ofCarton c).accepts i policy = .ok accepted := fun c hc =>
    ⟨(hcs c hc).exists_canFit hi,
      (Built.ofCarton c).exists_accepts_of_sized hpolicy (hcs c hc) hi⟩
  obtain ⟨chosen, hchoose⟩ := exists_choose hopen
  cases chosen with
  | some n =>
    obtain ⟨before, p, after, rfl, rfl, ha, -⟩ := choose_eq_some hchoose
    obtain ⟨q, hq⟩ := exists_add ha
    exact .inl ⟨_, place_eq_ok_iff.2 (.inserted hchoose hq)⟩
  | none =>
    obtain ⟨p, hp⟩ | hnone := openPackage_cases hshown hfresh
    · obtain ⟨-, c, -, -, rfl, ha, -⟩ := openPackage_eq_ok hp
      obtain ⟨q, hq⟩ := exists_add ha
      exact .inl ⟨_, place_eq_ok_iff.2 (.opened hchoose hp hq)⟩
    · exact .inr (by simp [place, hchoose, hnone])

/-- **All items can be placed, or some item is taken by no carton.** -/
theorem placeAll_cases (hunits : ∀ i ∈ units, i.Sized)
    (hshown : ∀ i ∈ units, i.sku.hasLongNumber = false) :
    (∃ ps, placeAll policy cs units = .ok ps) ∨
      ∃ i ∈ units, placeAll policy cs units = .error (.domain (.infeasible i.sku)) := by
  cases h : placeAll policy cs units with
  | ok ps => exact .inl ⟨ps, rfl⟩
  | error f =>
    obtain ⟨done, i, rest, ps, rfl, hrun, hi⟩ := placeAll_eq_error h
    have hmem : i ∈ done ++ i :: rest := by simp
    obtain ⟨ps', hok⟩ | hinfeasible :=
      place_cases hpolicy hcs (hunits i hmem) (hshown i hmem) hrun.inUse
    · cases hi.symm.trans hok
    · exact .inr ⟨i, hmem, by rw [Except.error.inj (hi.symm.trans hinfeasible)]⟩

end Sized

/-! ## Sorting -/

/-- A line that can be counted can be split into single pieces. -/
theorem exists_units {q : ℤ} (hq : i.quantity = .int q) (hpos : 0 < q)
    (hle : q ≤ Quantity.maxUnits) : ∃ us, i.units = .ok us := by
  have hline : ofQuantity i q.toNat = i := by
    rw [ofQuantity, Int.toNat_of_nonneg hpos.le, ← hq]
  refine ⟨_, hline ▸ units_ofQuantity i (n := q.toNat) ?_⟩
  rwa [Int.toNat_of_nonneg hpos.le]

theorem pieces_le_length (hi : i ∈ items) :
    Quantity.pieces i.quantity ≤ (Item.singles items).length := by
  obtain ⟨before, after, rfl⟩ := List.append_of_mem hi
  simp only [Item.singles, List.flatMap_append, List.flatMap_cons, List.length_append,
    List.length_replicate]
  omega

/-- Lines that can be split and measured can be sorted. -/
theorem exists_sortItems_of_sortVolume (hunits : ∀ i ∈ items, ∃ us, i.units = .ok us)
    (hvolume : ∀ i ∈ items, ∃ v, i.sortVolume = .ok v) : ∃ units, sortItems items = .ok units := by
  have hall : allUnits items = .ok (items.flatMap unitsOf) := allUnits_eq_ok_iff.2 ⟨hunits, rfl⟩
  have hpieces : ∀ u ∈ items.flatMap unitsOf, ∃ v, u.sortVolume = .ok v := by
    intro u hu
    obtain ⟨i, hi, hline⟩ := mem_allUnits hall u hu
    obtain ⟨v, hv⟩ := hvolume i hi
    -- a piece keeps the measures of its line
    rcases hline with rfl | rfl <;> exact ⟨v, hv⟩
  obtain ⟨ks, hks⟩ := exists_keyed hpieces
  exact ⟨_, bind_eq_ok.2 ⟨_, hall, bind_eq_ok.2 ⟨ks, hks, rfl⟩⟩⟩

/-- The pieces of a request that passes validation can be sorted, as long as none of its measures
underflows. -/
theorem exists_sortItems (hlines : ∀ i ∈ items, i.Validated) (hsized : ∀ i ∈ items, i.Sized)
    (hcount : (Item.singles items).length ≤ 5000) :
    ∃ units, sortItems items = .ok units ∧ units.Perm (Item.singles items) := by
  have hunits : ∀ i ∈ items, ∃ us, i.units = .ok us := by
    intro i hi
    obtain ⟨q, hq, hpos⟩ := (hlines i hi).quantity
    have hle := (pieces_le_length hi).trans hcount
    rw [hq, Quantity.pieces] at hle
    exact exists_units hq hpos (by unfold Quantity.maxUnits; omega)
  obtain ⟨units, hsorted⟩ :=
    exists_sortItems_of_sortVolume hunits fun i hi => (hsized i hi).exists_sortVolume
  obtain ⟨us, hus, hperm⟩ := sortItems_perm hsorted
  obtain rfl := allUnits_eq (fun i hi => (hlines i hi).quantity.imp fun q hq => hq.1) hus
  exact ⟨units, hsorted, hperm⟩

end Packing

open Packing

/-! ## Calculations -/

namespace Solution

variable {s : Solution} {figure : Package → Fallible Decimal} {t : Decimal}

/-- A figure of a solution is the sum of those of the packages. -/
theorem sumOver_eq_ok : s.sumOver figure = .ok t ↔
    ∃ xs, s.packages.mapM figure = .ok xs ∧ Decimal.sum xs = .ok t := by
  simp only [sumOver, Decimal.sum]
  generalize Decimal.zero = start
  induction s.packages generalizing start with
  | nil => simp
  | cons p ps ih =>
    simp only [List.foldlM_cons, bind_eq_ok, mapM_eq_ok_cons, Fallible.ofDecimal_eq_ok, ih]
    constructor
    · rintro ⟨u, ⟨x, hx, hu⟩, xs, hxs, ht⟩
      exact ⟨x :: xs, ⟨x, xs, hx, hxs, rfl⟩, bind_eq_ok.2 ⟨u, hu, ht⟩⟩
    · rintro ⟨_, ⟨x, xs, hx, hxs, rfl⟩, ht⟩
      obtain ⟨u, hu, ht⟩ := bind_eq_ok.1 ht
      exact ⟨u, ⟨x, hx, hu⟩, xs, hxs, ht⟩

/-- Figures that are not huge can be added up. -/
theorem exists_sumOver {e : ℤ} (he : tiniest ≤ e) (htop : e ≤ topExponent - 2)
    (hlength : s.packages.length ≤ 10 ^ 28)
    (h : ∀ p ∈ s.packages, ∃ x, figure p = .ok x ∧ 0 ≤ x.toRat ∧ x.toRat ≤ 10 ^ e) :
    ∃ t, s.sumOver figure = .ok t ∧ 0 ≤ t.toRat ∧ t.toRat ≤ s.packages.length * 10 ^ e := by
  obtain ⟨xs, hxs, hbounds⟩ := exists_mapM_forall h
  rw [length_of_mapM hxs] at hlength ⊢
  obtain ⟨t, ht, hle⟩ := exists_sum he htop hlength hbounds
  exact ⟨t, sumOver_eq_ok.2 ⟨xs, hxs, ht⟩, hle⟩

/-- The mean of what is in use of packages that are in use. -/
theorem exists_averageUtilization (hlength : s.packages.length ≤ 10 ^ 28)
    (h : ∀ p ∈ s.packages, ∃ r, p.utilization = .ok r ∧ 0 ≤ r.toRat ∧ r.toRat ≤ 1) :
    ∃ mean, s.averageUtilization = .ok mean := by
  obtain ⟨t, ht, ht0, hle⟩ :=
    exists_sumOver (e := 0) (by decide) (by decide) hlength (by simpa using h)
  unfold averageUtilization
  split_ifs with hempty
  · exact ⟨_, rfl⟩
  have hpos : 0 < s.packages.length := by
    rw [List.length_pos_iff]
    simpa using hempty
  have hcount := toRat_ofNat s.packages.length
  have hpos' : (0 : ℚ) < s.packages.length := by exact_mod_cast hpos
  obtain ⟨r, hr⟩ := exists_ratio_of_le (c := 1) (d := Decimal.ofNat s.packages.length) ht0
    (by rwa [hcount]) (by rw [hcount]; linarith) (by norm_num)
  exact ⟨r, by simp [ht, hr]⟩

end Solution

/-- No measure of the item underflows in a conversion. -/
structure Item.Robust (i : Item) : Prop where
  dimensions : ∀ d, i.dimensions = .known d → d.Robust
  weight : ∀ w, i.weight = .known w → w.Robust

theorem Item.Validated.sized {i : Item} (h : i.Validated) (hrobust : i.Robust) : i.Sized where
  dimensions := h.box.imp fun d hd => ⟨hd.1, hd.2, hrobust.dimensions d hd.1⟩
  weight := h.weight.imp fun w hw => ⟨hw.1, hw.2, hrobust.weight w hw.1⟩

variable {items : List Item} {cartons : List Carton} {policy : Policy} {supply : Supply}

/-- **A calculation returns or is infeasible**, when the request passes validation and none of its
measures is so small that it underflows in a conversion, and when the measures of the active cartons
are in range. No decimal operation is without a result, no measure is left with nothing, and nothing
else goes wrong. -/
theorem pack_never_signals
    (hcheck : Validation.check (some (items.map some)) (some policy) = .ok ())
    (hitems : ∀ i ∈ items, i.Robust) (hcartons : ∀ c ∈ cartons, c.isActive = true → c.Sized) :
    (∃ s, (pack items cartons policy supply).1 = .ok s) ∨
      ∃ i ∈ items, (pack items cartons policy supply).1 = .error (.domain (.infeasible i.sku)) := by
  obtain ⟨hpolicy, hlines, hcount⟩ := Validation.validated_of_check hcheck
  have hsized : ∀ i ∈ items, i.Sized := fun i hi => (hlines i hi).sized (hitems i hi)
  obtain ⟨units, hunits, hperm⟩ := exists_sortItems hlines hsized hcount
  obtain ⟨cs, hcs⟩ := exists_sortCartons hcartons
  have hpackages : packages items cartons policy = placeAll policy cs units := by
    rw [packages, hunits, ok_bind, hcs, ok_bind]
  have hline : ∀ u ∈ units, ∃ i ∈ items, u = i.single := fun u hu =>
    Item.exists_line_of_mem_singles (hperm.mem_iff.1 hu)
  have hpieces : ∀ u ∈ units, u.Sized := by
    intro u hu
    obtain ⟨i, hi, rfl⟩ := hline u hu
    exact (hsized i hi).single
  have hshown : ∀ u ∈ units, u.sku.hasLongNumber = false := by
    intro u hu
    obtain ⟨i, hi, rfl⟩ := hline u hu
    obtain ⟨k, hk⟩ := (Validation.passes_of_check hcheck i hi).exists_sku
    rw [Item.single, hk]
    rfl
  have hactive : ∀ c ∈ cs, c.Sized := fun c hc =>
    (mem_of_sortCartons hcs).1 hc |>.elim (hcartons c)
  obtain ⟨ps, hps⟩ | ⟨u, hu, hinfeasible⟩ := placeAll_cases hpolicy hactive hpieces hshown
  · have hrun := placeAll_eq_ok_iff.1 hps
    have hused : ∀ p ∈ ps, ∃ r, p.utilization = .ok r ∧ 0 ≤ r.toRat ∧ r.toRat ≤ 1 := fun p hp =>
      ((hrun.inUse p hp).built_inRange hpolicy).exists_utilization (hrun.inUse p hp).nonempty
    have hlength : ps.length ≤ 10 ^ 28 :=
      (hrun.length_le.trans (hperm.length_eq.trans_le hcount)).trans (by norm_num)
    obtain ⟨mean, hmean⟩ :=
      Solution.exists_averageUtilization (s := (Solution.create ps none supply).1) hlength hused
    exact .inl ⟨_, pack_eq_ok_iff.2 ⟨ps, mean, hpackages.trans hps, rfl, hmean⟩⟩
  · obtain ⟨i, hi, rfl⟩ := hline u hu
    exact .inr ⟨i, hi, by simp [pack, hpackages.trans hinfeasible, Item.single]⟩

/-! ### A vault

The largest carton that can be stored, a hundred million inches wide but for the last digit. -/

def vaultSide : Amount := ⟨⟨false, 999999999999, -4⟩, Eq.refl true⟩

def vault : Carton :=
  Carton.restore "VAULT" (.text "Vault") (.known ⟨vaultSide, vaultSide, vaultSide, .inches⟩)
    (.known ⟨vaultSide, .pounds⟩) .active .epoch .epoch

theorem vaultSide_inRange : vaultSide.InRange := by
  constructor <;> norm_num [vaultSide, toRat, signed, magnitude]

/-- Nothing goes wrong with bricks in a vault. -/
theorem pack_never_signals_vault :
    Validation.check (some ([bricks].map some)) (some .usual) = .ok () ∧
      ((∃ s, (pack [bricks] [vault] .usual .start).1 = .ok s) ∨
        ∃ i ∈ [bricks],
          (pack [bricks] [vault] .usual .start).1 = .error (.domain (.infeasible i.sku))) := by
  refine ⟨check_bricks, pack_never_signals check_bricks ?_ ?_⟩
  · refine List.forall_mem_singleton.2 ⟨?_, ?_⟩
    · rintro _ ⟨⟩
      apply Dimensions.InRange.robust
      norm_num [Dimensions.InRange, Amount.InRange, toRat, signed, magnitude]
    · rintro _ ⟨⟩
      apply Weight.robust_of_inRange
      norm_num [Amount.InRange, toRat, signed, magnitude]
  · exact List.forall_mem_singleton.2 fun _ =>
      ⟨⟨_, rfl, vaultSide_inRange, vaultSide_inRange, vaultSide_inRange⟩, _, rfl, vaultSide_inRange⟩

end Stowage
