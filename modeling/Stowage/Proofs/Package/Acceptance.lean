import Stowage.Proofs.Measure.Conversion
import Stowage.Proofs.Package.Ratio

/-!
# Which items a package accepts

The conditions under which a package accepts an item (`accepts_eq_true_iff`) and what adding one
does (`add_eq_ok_iff`). A package that holds less accepts whatever one that holds more does
(`accepts_of_stageOf`): the rounded sums and ratios of the former are not larger, and it has fewer
items to agree with.
-/

namespace Stowage

variable {whole : Prop}

/-! ## Items and cartons without a defect -/

/-- The measures of an item are known. -/
structure Item.IsKnown (i : Item) : Prop where
  dimensions : i.dimensions.IsKnown
  weight : i.weight.IsKnown

/-- A quantity is an integer of 64 bits, so that single pieces can be made of it. -/
def Quantity.IsCountable (quantity : Json) : Prop :=
  ∃ n : ℤ, quantity = .int n ∧ minUnits ≤ n ∧ n ≤ maxUnits

/-- An item without a defect: its measures are known, its pieces can be counted, and it can be
shown. -/
structure Item.IsWhole (i : Item) : Prop extends i.IsKnown where
  countable : Quantity.IsCountable i.quantity
  shown : i.sku.hasLongNumber = false

/-- The measures of a carton are known. -/
structure Carton.IsKnown (c : Carton) : Prop where
  dimensions : c.dimensions.IsKnown
  maxWeight : c.maxWeight.IsKnown

/-! ## What fits into a carton -/

theorem Carton.signals_canFit {c : Carton} {i : Item} (hc : whole → c.IsKnown)
    (hi : whole → i.IsKnown) : Signals whole (c.canFit i.dimensions i.weight) :=
  .bind (Attribute.signals_get fun h => (hi h).weight) fun w =>
    .bind (Attribute.signals_get fun h => (hc h).maxWeight) fun m =>
    .bind (w.signals_isGreaterThan m) fun _ => .ite (.pure _) <|
      .bind (Attribute.signals_get fun h => (hc h).dimensions) fun o =>
      .bind (Attribute.signals_get fun h => (hi h).dimensions) fun d => o.signals_canContain d

/-- An item fits into a carton when it is not too heavy and its box fits inside. -/
theorem Carton.canFit_eq_true_iff {c : Carton} {dimensions : Attribute Dimensions}
    {weight : Attribute Weight} : c.canFit dimensions weight = .ok true ↔
      ∃ w m o d, weight = .known w ∧ c.maxWeight = .known m ∧ c.dimensions = .known o ∧
        dimensions = .known d ∧ w.isGreaterThan m = .ok false ∧ o.canContain d = .ok true := by
  constructor
  · intro h
    obtain ⟨w, hw, h⟩ := bind_eq_ok.1 h
    obtain ⟨m, hm, h⟩ := bind_eq_ok.1 h
    obtain ⟨heavier, hheavier, h⟩ := bind_eq_ok.1 h
    cases heavier with
    | true => simp at h
    | false =>
      obtain ⟨o, ho, h⟩ := bind_eq_ok.1 h
      obtain ⟨d, hd, h⟩ := bind_eq_ok.1 h
      rw [Attribute.get_eq_ok] at hw hm ho hd
      exact ⟨w, m, o, d, hw, hm, ho, hd, hheavier, h⟩
  · rintro ⟨w, m, o, d, rfl, hm, ho, rfl, hheavier, h⟩
    simp [canFit, Attribute.get, hm, ho, hheavier, h]

namespace Package

open Decimal

variable {p q : Package} {i : Item} {policy : Policy}

/-! ## Measures of one item -/

theorem signals_itemWeight (hp : whole → p.carton.IsKnown) (hi : whole → i.IsKnown) :
    Signals whole (p.itemWeight i) :=
  .bind (Attribute.signals_get fun h => (hi h).weight) fun w =>
    .bind (Attribute.signals_get fun h => (hp h).maxWeight) fun m =>
    .bind (w.signals_convertTo m.unit) fun _ => .pure _

theorem signals_itemVolume (hp : whole → p.carton.IsKnown) (hi : whole → i.IsKnown) :
    Signals whole (p.itemVolume i) :=
  .bind (Attribute.signals_get fun h => (hi h).dimensions) fun d =>
    .bind (Attribute.signals_get fun h => (hp h).dimensions) fun o =>
    .bind (d.signals_convertTo o.unit) fun _ => .ofDecimal _

theorem itemWeight_eq_ok {w : Decimal} : p.itemWeight i = .ok w ↔
    ∃ a m a', i.weight = .known a ∧ p.carton.maxWeight = .known m ∧
      a.convertTo m.unit = .ok a' ∧ a'.value.value = w := by
  simp only [itemWeight, bind_eq_ok, Attribute.get_eq_ok, pure_eq_ok, exists_and_left]

theorem itemVolume_eq_ok {v : Decimal} : p.itemVolume i = .ok v ↔
    ∃ d o d', i.dimensions = .known d ∧ p.carton.dimensions = .known o ∧
      d.convertTo o.unit = .ok d' ∧ d'.volume = .ok v := by
  simp [itemVolume, bind_eq_ok, Attribute.get_eq_ok]

theorem cartonVolume_eq_ok {v : Decimal} : p.cartonVolume = .ok v ↔
    ∃ o, p.carton.dimensions = .known o ∧ o.volume = .ok v := by
  simp [cartonVolume, bind_eq_ok, Attribute.get_eq_ok]

theorem itemWeight_pos {w : Decimal} (h : p.itemWeight i = .ok w) : 0 < w.toRat := by
  obtain ⟨-, -, a, -, -, -, rfl⟩ := itemWeight_eq_ok.1 h
  exact a.value.toRat_pos

theorem itemVolume_nonneg {v : Decimal} (h : p.itemVolume i = .ok v) : 0 ≤ v.toRat := by
  obtain ⟨-, -, d, -, -, -, hv⟩ := itemVolume_eq_ok.1 h
  exact Dimensions.volume_nonneg hv

theorem weightWith_eq_ok {s : Decimal} :
    p.weightWith i = .ok s ↔ ∃ w, p.itemWeight i = .ok w ∧ p.currentWeight.add w = .ok s := by
  simp [weightWith, bind_eq_ok]

theorem volumeWith_eq_ok {u : Decimal} :
    p.volumeWith i = .ok u ↔ ∃ v, p.itemVolume i = .ok v ∧ p.usedVolume.add v = .ok u := by
  simp [volumeWith, bind_eq_ok]

/-! ## Acceptance -/

/-- With the item the weight stays within what the carton carries. -/
def WithinWeight (p : Package) (i : Item) : Prop :=
  ∃ s m, p.weightWith i = .ok s ∧ p.carton.maxWeight = .known m ∧
    s.toRat ≤ m.value.value.toRat

/-- With the item the part of the carton's volume in use stays within a threshold. -/
def WithinVolume (p : Package) (i : Item) (threshold : Numeral) : Prop :=
  ∃ v u r, p.cartonVolume = .ok v ∧ 0 < v.toRat ∧ p.volumeWith i = .ok u ∧ u.ratio v = .ok r ∧
    threshold.Admits r.toRat

theorem allowsBeside_eq_true_iff : p.allowsBeside i policy = true ↔
    (policy.separateFragile = true → ∀ j ∈ p.items, j.fragile = i.fragile) ∧
      (policy.mixedCategories = false → ∀ j ∈ p.items, j.category.same i.category = true) := by
  rw [allowsBeside, Bool.and_eq_true, Bool.or_eq_true, Bool.or_eq_true]
  cases policy.separateFragile <;> cases policy.mixedCategories <;> simp

/-- An item within the measures of a package is accepted when the policy lets it lie there. -/
theorem accepts_of_within (hfits : p.carton.canFit i.dimensions i.weight = .ok true)
    (hweight : p.WithinWeight i) (hvolume : p.WithinVolume i policy.threshold) :
    p.accepts i policy = .ok (p.allowsBeside i policy) := by
  obtain ⟨s, m, hs, hm, hweight⟩ := hweight
  obtain ⟨v, u, r, hv, hvolume, hu, hr, ht⟩ := hvolume
  have hm' := Attribute.get_eq_ok.2 hm
  rw [← lt_eq_false_iff] at hweight
  rw [← toRat_zero, ← le_eq_false_iff] at hvolume
  have hexceeded := Fallible.ofDecimal_eq_ok.2 ((Numeral.exceeds_eq_false_iff _ _).2 ht)
  have hr' := Fallible.ofDecimal_eq_ok.2 hr
  simp [accepts, hfits, hs, hm', hweight, hv, hvolume, hu, hr', hexceeded]

/-- **What acceptance means.** -/
theorem accepts_eq_true_iff : p.accepts i policy = .ok true ↔
    p.carton.canFit i.dimensions i.weight = .ok true ∧ p.WithinWeight i ∧
      p.WithinVolume i policy.threshold ∧ p.allowsBeside i policy = true := by
  constructor
  · intro h
    unfold accepts at h
    obtain ⟨fits, hfits, h⟩ := bind_eq_ok.1 h
    cases fits
    · simp at h
    obtain ⟨s, hs, h⟩ := bind_eq_ok.1 h
    obtain ⟨m, hm, h⟩ := bind_eq_ok.1 h
    split_ifs at h with hweight
    · simp at h
    obtain ⟨v, hv, h⟩ := bind_eq_ok.1 h
    split_ifs at h with hvolume
    · simp at h
    obtain ⟨u, hu, h⟩ := bind_eq_ok.1 h
    obtain ⟨r, hr, h⟩ := bind_eq_ok.1 h
    obtain ⟨exceeded, hexceeded, h⟩ := bind_eq_ok.1 h
    cases exceeded
    · rw [Bool.not_eq_true, lt_eq_false_iff] at hweight
      rw [Bool.not_eq_true, le_eq_false_iff, toRat_zero] at hvolume
      rw [Fallible.ofDecimal_eq_ok] at hr hexceeded
      have ht := (Numeral.exceeds_eq_false_iff _ _).1 hexceeded
      exact ⟨hfits, ⟨s, m, hs, Attribute.get_eq_ok.1 hm, hweight⟩,
        ⟨v, u, r, hv, hvolume, hu, hr, ht⟩, by simpa using h⟩
    · simp at h
  · rintro ⟨hfits, hweight, hvolume, hbeside⟩
    rw [accepts_of_within hfits hweight hvolume, hbeside]

/-- A carton that an item does not fit into refuses it. -/
theorem accepts_of_not_fits (h : p.carton.canFit i.dimensions i.weight = .ok false) :
    p.accepts i policy = .ok false := by
  simp [accepts, h]

theorem accepts_of_overweight {s : Decimal} {m : Weight}
    (hfits : p.carton.canFit i.dimensions i.weight = .ok true) (hs : p.weightWith i = .ok s)
    (hm : p.carton.maxWeight = .known m) (hheavy : m.value.value.toRat < s.toRat) :
    p.accepts i policy = .ok false := by
  have hm' := Attribute.get_eq_ok.2 hm
  have hlt := (lt_iff _ _).2 hheavy
  simp [accepts, hfits, hs, hm', hlt]

/-- A carton whose volume rounds to zero refuses everything whose weight can be added. -/
theorem accepts_of_flat {s v : Decimal} {m : Weight}
    (hfits : p.carton.canFit i.dimensions i.weight = .ok true) (hs : p.weightWith i = .ok s)
    (hm : p.carton.maxWeight = .known m) (hv : p.cartonVolume = .ok v) (hflat : v.toRat ≤ 0) :
    p.accepts i policy = .ok false := by
  have hm' := Attribute.get_eq_ok.2 hm
  have hle := (le_iff v .zero).2 (by rwa [toRat_zero])
  simp [accepts, hfits, hs, hm', hv, hle]

/-- What has been computed when an item is refused. -/
theorem cases_of_refused (h : p.accepts i policy = .ok false) :
    p.carton.canFit i.dimensions i.weight = .ok false ∨
      p.carton.canFit i.dimensions i.weight = .ok true ∧ ∃ s m, p.weightWith i = .ok s ∧
        p.carton.maxWeight = .known m ∧ (m.value.value.toRat < s.toRat ∨
          ∃ v, p.cartonVolume = .ok v ∧ (v.toRat ≤ 0 ∨ ∃ u, p.volumeWith i = .ok u)) := by
  obtain ⟨fits, hfits, h⟩ := bind_eq_ok.1 h
  cases fits with
  | false => exact .inl hfits
  | true =>
    obtain ⟨s, hs, h⟩ := bind_eq_ok.1 h
    obtain ⟨m, hm, h⟩ := bind_eq_ok.1 h
    refine .inr ⟨hfits, s, m, hs, Attribute.get_eq_ok.1 hm, ?_⟩
    split_ifs at h with hheavy
    · exact .inl ((lt_iff _ _).1 hheavy)
    obtain ⟨v, hv, h⟩ := bind_eq_ok.1 h
    refine .inr ⟨v, hv, ?_⟩
    split_ifs at h with hflat
    · exact .inl (((le_iff _ _).1 hflat).trans_eq toRat_zero)
    obtain ⟨u, hu, -⟩ := bind_eq_ok.1 h
    exact .inr ⟨u, hu⟩

theorem signals_cartonVolume (hp : whole → p.carton.IsKnown) : Signals whole p.cartonVolume :=
  .bind (Attribute.signals_get fun h => (hp h).dimensions) fun _ => .ofDecimal _

theorem signals_accepts (hp : whole → p.carton.IsKnown) (hi : whole → i.IsKnown)
    (policy : Policy) : Signals whole (p.accepts i policy) := by
  refine (Carton.signals_canFit hp hi).bind fun fits => .ite (.pure _) ?_
  refine .bind ((signals_itemWeight hp hi).bind fun _ => .ofDecimal _) fun _ => ?_
  refine .bind (Attribute.signals_get fun h => (hp h).maxWeight) fun _ => .ite (.pure _) ?_
  refine .bind (signals_cartonVolume hp) fun _ => ?_
  refine .ite (.pure _) (.bind ((signals_itemVolume hp hi).bind fun _ => .ofDecimal _) fun _ => ?_)
  exact .bind (.ofDecimal _) fun _ => .bind (.ofDecimal _) fun _ => .ite (.pure _) (.pure _)

theorem signals_remainingVolumeIn (hp : whole → p.carton.IsKnown) (unit : LengthUnit) :
    Signals whole (p.remainingVolumeIn unit) :=
  .bind ((signals_cartonVolume hp).bind fun _ => .ofDecimal _) fun _ =>
    .bind (Attribute.signals_get fun h => (hp h).dimensions) fun _ => .ofDecimal _

theorem signals_utilization (hp : whole → p.carton.IsKnown) : Signals whole p.utilization :=
  (signals_cartonVolume hp).bind fun _ => .ite (.pure _) (.ofDecimal _)

/-! ## Adding an item -/

/-- **Adding an item.** It has a result when the package accepts the item, and the result has the
item as its last and the new totals. -/
theorem add_eq_ok_iff : p.add i policy = .ok q ↔
    p.accepts i policy = .ok true ∧ ∃ s u, p.weightWith i = .ok s ∧ p.volumeWith i = .ok u ∧
      q = { p with items := p.items ++ [i], currentWeight := s, usedVolume := u } := by
  constructor
  · intro h
    obtain ⟨accepted, ha, h⟩ := bind_eq_ok.1 h
    cases accepted
    · exact absurd h Fallible.refuseShowing_ne_ok
    obtain ⟨s, hs, h⟩ := bind_eq_ok.1 h
    obtain ⟨u, hu, h⟩ := bind_eq_ok.1 h
    exact ⟨ha, s, u, hs, hu, (pure_eq_ok.1 h).symm⟩
  · rintro ⟨ha, s, u, hs, hu, rfl⟩
    simp [add, ha, hs, hu]

theorem items_of_add (h : p.add i policy = .ok q) : q.items = p.items ++ [i] := by
  obtain ⟨-, s, u, -, -, rfl⟩ := add_eq_ok_iff.1 h
  rfl

theorem carton_of_add (h : p.add i policy = .ok q) : q.carton = p.carton := by
  obtain ⟨-, s, u, -, -, rfl⟩ := add_eq_ok_iff.1 h
  rfl

/-- What is accepted can be added. -/
theorem exists_add (h : p.accepts i policy = .ok true) : ∃ q, p.add i policy = .ok q := by
  obtain ⟨-, ⟨s, m, hs, -, -⟩, ⟨v, u, r, -, -, hu, -⟩, -⟩ := accepts_eq_true_iff.1 h
  exact ⟨_, add_eq_ok_iff.2 ⟨h, s, u, hs, hu, rfl⟩⟩

/-! ## Packages that hold less -/

/-- The first package may become the second by adding items. -/
structure StageOf (p q : Package) : Prop where
  carton : p.carton = q.carton
  items : p.items <+: q.items
  weight : p.currentWeight.toRat ≤ q.currentWeight.toRat
  volume : p.usedVolume.toRat ≤ q.usedVolume.toRat

/-- The totals are not negative and have no digit too many. -/
structure Sound (p : Package) : Prop where
  weight : 0 ≤ p.currentWeight.toRat
  volume : 0 ≤ p.usedVolume.toRat
  weight_rounded : rounded p.currentWeight.toRat = p.currentWeight.toRat
  volume_rounded : rounded p.usedVolume.toRat = p.usedVolume.toRat

theorem StageOf.refl (p : Package) : p.StageOf p := ⟨rfl, List.prefix_rfl, le_rfl, le_rfl⟩

theorem StageOf.trans {r : Package} (h : p.StageOf q) (h' : q.StageOf r) : p.StageOf r :=
  ⟨h.carton.trans h'.carton, h.items.trans h'.items, h.weight.trans h'.weight,
    h.volume.trans h'.volume⟩

theorem StageOf.itemWeight_eq (h : p.StageOf q) : p.itemWeight i = q.itemWeight i := by
  rw [itemWeight, itemWeight, h.carton]

theorem StageOf.itemVolume_eq (h : p.StageOf q) : p.itemVolume i = q.itemVolume i := by
  rw [itemVolume, itemVolume, h.carton]

theorem StageOf.weightWith_le {s t : Decimal} (h : p.StageOf q) (hs : p.weightWith i = .ok s)
    (ht : q.weightWith i = .ok t) : s.toRat ≤ t.toRat := by
  obtain ⟨w, hw, hs⟩ := weightWith_eq_ok.1 hs
  obtain ⟨w', hw', ht⟩ := weightWith_eq_ok.1 ht
  rw [h.itemWeight_eq] at hw
  cases hw.symm.trans hw'
  rw [(add_rounds _ _).toRat_eq hs, (add_rounds _ _).toRat_eq ht]
  exact rounded_mono (by linarith [h.weight])

theorem StageOf.cartonVolume_eq (h : p.StageOf q) : p.cartonVolume = q.cartonVolume := by
  rw [cartonVolume, cartonVolume, h.carton]

/-- An empty package is a stage of every package on its carton whose totals are not negative. -/
theorem stageOf_ofCarton (hp : p.Sound) : (ofCarton p.carton).StageOf p :=
  ⟨rfl, List.nil_prefix, toRat_zero.trans_le hp.weight, toRat_zero.trans_le hp.volume⟩

theorem sound_ofCarton (c : Carton) : (ofCarton c).Sound := by
  constructor <;> simp [ofCarton]

section Add

variable (hp : p.Sound) (h : p.add i policy = .ok q)
include hp h

theorem Sound.of_add : q.Sound := by
  obtain ⟨-, s, u, hs, hu, rfl⟩ := add_eq_ok_iff.1 h
  obtain ⟨w, hw, hs⟩ := weightWith_eq_ok.1 hs
  obtain ⟨v, hv, hu⟩ := volumeWith_eq_ok.1 hu
  obtain ⟨hs0, hsr⟩ := nonneg_of_add hp.weight (itemWeight_pos hw).le hs
  obtain ⟨hu0, hur⟩ := nonneg_of_add hp.volume (itemVolume_nonneg hv) hu
  exact ⟨hs0, hu0, hsr, hur⟩

theorem stageOf_of_add : p.StageOf q := by
  obtain ⟨-, s, u, hs, hu, rfl⟩ := add_eq_ok_iff.1 h
  obtain ⟨w, hw, hs⟩ := weightWith_eq_ok.1 hs
  obtain ⟨v, hv, hu⟩ := volumeWith_eq_ok.1 hu
  exact ⟨rfl, List.prefix_append _ _, le_of_add hp.weight_rounded (itemWeight_pos hw).le hs,
    le_of_add hp.volume_rounded (itemVolume_nonneg hv) hu⟩

end Add

section Stage

variable (hp : p.Sound) (h : p.StageOf q)
include hp h

theorem WithinWeight.of_stageOf (hw : q.WithinWeight i) : p.WithinWeight i := by
  obtain ⟨s, m, hs, hm, hle⟩ := hw
  obtain ⟨w, hw, hs⟩ := weightWith_eq_ok.1 hs
  obtain ⟨s', hs', hle'⟩ := add_mono hp.weight h.weight (itemWeight_pos hw).le hs
  rw [← h.itemWeight_eq] at hw
  rw [← h.carton] at hm
  exact ⟨s', m, weightWith_eq_ok.2 ⟨w, hw, hs'⟩, hm, hle'.trans hle⟩

theorem WithinVolume.of_stageOf {t : Numeral} (hv : q.WithinVolume i t) : p.WithinVolume i t := by
  obtain ⟨v, u, r, hv, hpos, hu, hr, ht⟩ := hv
  obtain ⟨x, hx, hu⟩ := volumeWith_eq_ok.1 hu
  have hx0 := itemVolume_nonneg hx
  obtain ⟨u', hu', hle⟩ := add_mono hp.volume h.volume hx0 hu
  have hu0 := (nonneg_of_add hp.volume hx0 hu').1
  obtain ⟨r', hr', hle'⟩ := ratio_mono hu0 hle hpos hr
  rw [← h.itemVolume_eq] at hx
  rw [← h.cartonVolume_eq] at hv
  exact ⟨v, u', r', hv, hpos, volumeWith_eq_ok.2 ⟨x, hx, hu'⟩, hr', ht.mono hle'⟩

omit hp in
theorem allowsBeside_of_stageOf (ha : q.allowsBeside i policy = true) :
    p.allowsBeside i policy = true := by
  have hsub := h.items.subset
  rw [allowsBeside_eq_true_iff] at ha ⊢
  exact ⟨fun hpolicy j hj => ha.1 hpolicy j (hsub hj), fun hpolicy j hj => ha.2 hpolicy j (hsub hj)⟩

/-- **A package that holds less accepts whatever one that holds more does.** -/
theorem accepts_of_stageOf (ha : q.accepts i policy = .ok true) :
    p.accepts i policy = .ok true := by
  rw [accepts_eq_true_iff] at ha ⊢
  obtain ⟨hfit, hw, hv, hb⟩ := ha
  exact ⟨h.carton ▸ hfit, hw.of_stageOf hp h, hv.of_stageOf hp h, allowsBeside_of_stageOf h hb⟩

end Stage

end Package

end Stowage
