import Stowage.Proofs.Packing.Compatibility
import Stowage.Proofs.Packing.Rules
import Stowage.Proofs.Solution.Weight
import Stowage.View.Json

/-!
# What is shown of a solution

The view of a solution is made of figures and of forms whose fields have to be of a kind. Once a
request has passed validation and was packed, all figures have values, and all fields are of their
kinds but one: nothing looks at the category of an item before it is shown. So a solution is shown
if the categories that it shows are texts, and rejected otherwise (`Solution.shows_view`).
-/

namespace Stowage

open Decimal Quantity

/-! ## Forms -/

/-- What is shown under a condition, and rejected as a form otherwise. -/
structure Shows {α : Type} (x : Fallible α) (P : Prop) : Prop where
  shown : P → ∃ a, x = .ok a
  rejected : ¬ P → ∃ details, x = .error (.rejected details)

namespace Shows

variable {α β : Type} {x : Fallible α} {f : α → Fallible β} {P Q : Prop}

theorem of_eq_ok {a : α} (h : x = .ok a) : Shows x True :=
  ⟨fun _ => ⟨a, h⟩, fun hno => absurd trivial hno⟩

theorem congr (h : Shows x P) (hPQ : P ↔ Q) : Shows x Q :=
  ⟨fun hq => h.shown (hPQ.2 hq), fun hq => h.rejected fun hp => hq (hPQ.1 hp)⟩

/-- Two forms one after the other are shown when both are. -/
theorem bind (hx : Shows x P) (hf : ∀ a, x = .ok a → Shows (f a) Q) : Shows (x >>= f) (P ∧ Q) := by
  by_cases hp : P
  · obtain ⟨a, ha⟩ := hx.shown hp
    rw [ha, ok_bind]
    exact (hf a ha).congr (and_iff_right hp).symm
  · obtain ⟨details, hdetails⟩ := hx.rejected hp
    exact ⟨fun h => absurd h.1 hp, fun _ => ⟨details, by rw [hdetails, error_bind]⟩⟩

/-- A list of forms is shown when all of them are. -/
theorem mapM {xs : List α} {P : α → Prop} (h : ∀ a ∈ xs, Shows (f a) (P a)) :
    Shows (xs.mapM f) (∀ a ∈ xs, P a) := by
  induction xs with
  | nil => exact (of_eq_ok rfl).congr (by simp)
  | cons a xs ih =>
    obtain ⟨ha, hxs⟩ := List.forall_mem_cons.1 h
    rw [List.mapM_cons]
    refine (ha.bind fun b _ => (ih hxs).bind fun bs _ => of_eq_ok rfl).congr ?_
    rw [and_true, List.forall_mem_cons]

end Shows

namespace Package

variable {p : Package} {gs : List Group} {o : Dimensions} {v : Decimal}

/-! ## Lines -/

/-- A line is shown when its category is a text, if its stock keeping unit is one and its quantity
is a count. -/
theorem Group.shows_view {g : Group} (hsku : ∃ k, g.item.sku = .text k)
    (hquantity : IsCount g.quantity) : Shows g.view g.item.HasTextCategory := by
  obtain ⟨k, hk⟩ := hsku
  obtain ⟨n, hn⟩ := hquantity
  constructor
  · rintro ⟨s, hs⟩
    exact ⟨_, by rw [view, hk, hn, hs]; rfl⟩
  · intro hno
    cases hcategory : g.item.category with
    | text s => exact absurd ⟨s, hcategory⟩ hno
    | _ => exact ⟨_, by rw [view, hk, hn, hcategory]; rfl⟩

/-- The categories that the package shows are texts: those of the items that came first of their
stock keeping units. -/
def Legible (p : Package) : Prop :=
  ∀ gs, p.groups = .ok gs → ∀ g ∈ gs, g.item.HasTextCategory

theorem legible_of_items (h : ∀ i ∈ p.items, i.HasTextCategory) : p.Legible :=
  fun _ hgs _ hg => h _ (mem_of_groups hgs hg)

/-! ## Packages -/

/-- All that is shown of the package has a value and is of its kind, but for the categories. -/
structure Presentable (p : Package) : Prop where
  built : Built Policy.InRange p
  nonempty : p.items ≠ []
  named : ∃ s, p.carton.name = .text s
  pieces : ∀ i ∈ p.items, i.quantity = .int 1 ∧ ∃ k : RawText, i.sku = .text k

/-- A volume that is not huge can be told in another unit. -/
theorem exists_volumeIn (ho : p.carton.dimensions = .known o) (hv0 : 0 ≤ v.toRat)
    (hv : v.toRat ≤ 10 ^ (27 : ℤ)) (unit : LengthUnit) :
    ∃ x, p.volumeIn v unit = .ok x ∧ 0 ≤ x.toRat ∧ x.toRat ≤ 10 ^ (29 : ℤ) := by
  obtain ⟨x, hx, hbounds⟩ :=
    LengthUnit.exists_convertVolume (by rwa [abs_of_nonneg hv0]) o.unit unit
  exact ⟨x, by simp [volumeIn, ho, Attribute.get, hx], hbounds hv0⟩

namespace Presentable

variable (hp : p.Presentable)
include hp

theorem isCount : ∀ i ∈ p.items, IsCount i.quantity := fun i hi => ⟨1, (hp.pieces i hi).1⟩

theorem exists_cartonVolume : ∃ v, p.cartonVolume = .ok v := by
  obtain ⟨-, -, v, -, hv, -⟩ := hp.built.utilized hp.nonempty
  exact ⟨v, hv⟩

theorem exists_cartonVolumeIn (unit : LengthUnit) :
    ∃ x, p.cartonVolumeIn unit = .ok x ∧ 0 ≤ x.toRat ∧ x.toRat ≤ 10 ^ (29 : ℤ) := by
  obtain ⟨v, hv⟩ := hp.exists_cartonVolume
  obtain ⟨o, ho, -⟩ := cartonVolume_eq_ok.1 hv
  have hle := (cartonVolume_lt hv).le.trans (ten_zpow_le (show (26 : ℤ) ≤ 27 by norm_num))
  obtain ⟨x, hx, hbounds⟩ := exists_volumeIn ho (isHundredths_cartonVolume hv).nonneg hle unit
  exact ⟨x, by simp [cartonVolumeIn, hv, hx], hbounds⟩

theorem exists_usedVolumeIn (unit : LengthUnit) :
    ∃ x, p.usedVolumeIn unit = .ok x ∧ 0 ≤ x.toRat ∧ x.toRat ≤ 10 ^ (29 : ℤ) := by
  obtain ⟨v, hv⟩ := hp.exists_cartonVolume
  obtain ⟨o, ho, -⟩ := cartonVolume_eq_ok.1 hv
  have hused := hp.built.usedVolume_le hv
  have hlt := cartonVolume_lt hv
  refine exists_volumeIn ho hp.built.sound.volume ?_ unit
  norm_num at hlt ⊢
  linarith

/-- Its groups are lines about texts, whose quantities are counts. -/
theorem exists_groups : ∃ gs, p.groups = .ok gs ∧
    ∀ g ∈ gs, IsCount g.quantity ∧ ∃ k, g.item.sku = .text k := by
  have hscalar : ∀ i ∈ p.items, i.sku.isScalar = true := by
    intro i hi
    obtain ⟨-, k, hk⟩ := hp.pieces i hi
    rw [hk]
    rfl
  obtain ⟨gs, hgs⟩ := Package.exists_groups hp.isCount hscalar
  exact ⟨gs, hgs, fun g hg =>
    ⟨(groups_report hp.isCount hgs).1 g hg, (hp.pieces _ (mem_of_groups hgs hg)).2⟩⟩

/-- **A package is shown if the categories that it shows are texts**, and rejected otherwise. -/
theorem shows_view : Shows p.view p.Legible := by
  obtain ⟨gs, hgs, hlines⟩ := hp.exists_groups
  obtain ⟨m, hm, -⟩ := hp.built.carried hp.nonempty
  obtain ⟨v, hv⟩ := hp.exists_cartonVolume
  obtain ⟨o, ho, -⟩ := cartonVolume_eq_ok.1 hv
  obtain ⟨r, hr, -⟩ := hp.built.exists_utilization hp.nonempty
  obtain ⟨s, hs⟩ := hp.named
  have hlegible : p.Legible ↔ ∀ g ∈ gs, g.item.HasTextCategory :=
    ⟨fun h => h gs hgs, fun h gs' hgs' => Except.ok.inj (hgs.symm.trans hgs') ▸ h⟩
  have hitems : Shows (gs.mapM Group.view) (∀ g ∈ gs, g.item.HasTextCategory) :=
    .mapM fun g hg => Group.shows_view (hlines g hg).2 (hlines g hg).1
  rw [view, hgs, ok_bind]
  refine (hitems.bind fun items _ => ?_).congr (by rw [and_true, hlegible])
  rw [itemCount_eq hp.isCount, ok_bind, Attribute.get_eq_ok.2 hm, ok_bind,
    Attribute.get_eq_ok.2 ho, ok_bind, hv, ok_bind, hr, ok_bind, hs]
  exact .of_eq_ok rfl

end Presentable

end Package

/-! ## Solutions -/

namespace Solution

variable {s : Solution}

/-- The categories that the solution shows are texts. -/
def Legible (s : Solution) : Prop := ∀ p ∈ s.packages, p.Legible

theorem legible_of_items (h : ∀ i ∈ s.allItems, i.HasTextCategory) : s.Legible :=
  fun p hp => Package.legible_of_items fun i hi => h i (List.mem_flatMap.2 ⟨p, hp, hi⟩)

/-- **A solution is shown if the categories that it shows are texts**, and rejected otherwise. -/
theorem shows_view (hps : ∀ p ∈ s.packages, p.Presentable) (hlength : s.packages.length ≤ 10 ^ 28)
    (hweight : ∃ total, s.totalWeight = .ok total) {request order : Option RawText}
    (hrequest : s.requestId = .ofOption request) (horder : s.orderId = .ofOption order) :
    Shows s.view s.Legible := by
  have hcount : ∀ i ∈ s.allItems, IsCount i.quantity := by
    intro i hi
    obtain ⟨p, hp, hi⟩ := List.mem_flatMap.1 hi
    exact (hps p hp).isCount i hi
  obtain ⟨weight, hweight⟩ := hweight
  obtain ⟨volume, hvolume, -⟩ := exists_sumOver (by decide) (by decide) hlength fun p hp =>
    (hps p hp).exists_cartonVolumeIn reportLengthUnit
  obtain ⟨used, hused, -⟩ := exists_sumOver (by decide) (by decide) hlength fun p hp =>
    (hps p hp).exists_usedVolumeIn reportLengthUnit
  obtain ⟨mean, hmean⟩ := exists_averageUtilization hlength fun p hp =>
    (hps p hp).built.exists_utilization (hps p hp).nonempty
  have hpackages : Shows (s.packages.mapM Package.view) s.Legible :=
    .mapM fun p hp => (hps p hp).shows_view
  rw [view, totalItems_eq hcount, ok_bind, hweight, ok_bind, totalVolume, hvolume, ok_bind,
    usedVolume, hused, ok_bind, hmean, ok_bind]
  refine (hpackages.bind fun packages _ => ?_).congr (by rw [and_true])
  rw [hrequest, horder]
  cases request <;> cases order <;> exact .of_eq_ok rfl

end Solution

/-! ## Solutions for requests that pass validation -/

variable {items : List Item} {cartons : List Carton} {policy : Policy} {supply : Supply}
  {s : Solution}

/-- The packages of a solution for a request that passes validation. -/
theorem presentable_of_pack
    (hcheck : Validation.check (some (items.map some)) (some policy) = .ok ())
    (hcartons : ∀ c ∈ cartons, ∃ s, c.name = .text s)
    (h : (pack items cartons policy supply).1 = .ok s) : ∀ p ∈ s.packages, p.Presentable := by
  obtain ⟨hpolicy, -, -⟩ := Validation.validated_of_check hcheck
  obtain ⟨units, cs, -, hcs, hrun⟩ := run_of_pack h
  intro p hp
  have hused := hrun.inUse p hp
  refine ⟨hused.built_inRange hpolicy, hused.nonempty,
    hcartons _ ((Packing.mem_of_sortCartons hcs).1 hused.carton).1, fun i hi => ?_⟩
  obtain ⟨line, hline, rfl⟩ := ((pieces_of_pack hcheck h).2.2 p hp).2 i hi
  exact ⟨rfl, (Validation.passes_of_check hcheck line hline).exists_sku⟩

/-- **A solution for a request that passes validation is shown if the categories that it shows are
texts**, and rejected otherwise. -/
theorem shows_view_of_pack
    (hcheck : Validation.check (some (items.map some)) (some policy) = .ok ())
    (hcartons : ∀ c ∈ cartons, ∃ s, c.name = .text s)
    (h : (pack items cartons policy supply).1 = .ok s) (request order : Option RawText) :
    Shows { s with requestId := .ofOption request, orderId := .ofOption order }.view s.Legible := by
  have hps := presentable_of_pack hcheck hcartons h
  have hlength := (pieces_of_pack hcheck h).2.1.trans (show 5000 ≤ 10 ^ 28 by norm_num)
  obtain ⟨total, htotal⟩ := exists_totalWeight_of_pack hcheck h
  exact @Solution.shows_view { s with requestId := .ofOption request, orderId := .ofOption order }
    hps hlength ⟨total, htotal⟩ request order rfl rfl

/-- A solution for items whose categories are texts shows texts. -/
theorem legible_of_pack
    (hcheck : Validation.check (some (items.map some)) (some policy) = .ok ())
    (h : (pack items cartons policy supply).1 = .ok s)
    (hitems : ∀ i ∈ items, i.HasTextCategory) : s.Legible := by
  refine Solution.legible_of_items fun i hi => ?_
  obtain ⟨line, hline, rfl⟩ :=
    Item.exists_line_of_mem_singles ((pieces_of_pack hcheck h).1.mem_iff.1 hi)
  exact hitems line hline

end Stowage
