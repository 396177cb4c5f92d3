import Stowage.Packing.Validation
import Stowage.Proofs.Measure.Volume
import Stowage.Proofs.Package.Ratio
import Stowage.Proofs.Packing.Order

/-!
# What validation makes sure of

Each check of a request lets it pass under a condition and otherwise refuses it as invalid, unless
the refusal would show an integer that is too long (`Decides`), and checks that follow each other
let pass under both conditions (`Decides.bind`). A request that passes (`Validation.check`) has a
threshold in range, lines with bounded boxes and weights and positive whole quantities, and no more
single pieces than are allowed (`validated_of_check`).
-/

namespace Stowage

open Decimal Quantity

/-! ## Checks -/

/-- A check that gives a value under a condition. Otherwise it refuses the request as invalid, or
breaks off under another condition, where the refusal would show an integer that is too long. -/
structure Decides {α : Type} (x : Fallible α) (P L : Prop) (v : α) : Prop where
  passes : P → x = .ok v
  refuses : ¬ P → ¬ L → ∃ fault, x = .error (.domain (.invalidRequest fault))
  breaks : L → x = .error .longNumber

namespace Decides

variable {α β : Type} {x y : Fallible α} {f : α → Fallible β} {P Q L M : Prop} {v : α} {w : β}

theorem ok (v : α) : Decides (.ok v) True False v :=
  ⟨fun _ => rfl, fun h => absurd trivial h, nofun⟩

theorem refuse (fault : InvalidRequest) (v : α) :
    Decides (Fallible.refuse (.invalidRequest fault)) False False v :=
  ⟨nofun, fun _ _ => ⟨fault, rfl⟩, nofun⟩

theorem refuseShowing (shown : Json) (fault : InvalidRequest) (v : α) :
    Decides (Fallible.refuseShowing shown (.invalidRequest fault)) False
      (shown.hasLongNumber = true) v :=
  ⟨nofun, fun _ hlong => ⟨fault,
      Fallible.refuseShowing_eq_error.2 (.inr ⟨by simpa using hlong, rfl⟩)⟩,
    fun hlong => Fallible.refuseShowing_eq_error.2 (.inl ⟨hlong, rfl⟩)⟩

theorem congr (h : Decides x P L v) (hPQ : P ↔ Q) (hLM : L ↔ M) : Decides x Q M v where
  passes hq := h.passes (hPQ.2 hq)
  refuses hq hm := h.refuses (fun hp => hq (hPQ.1 hp)) fun hl => hm (hLM.1 hl)
  breaks hm := h.breaks (hLM.2 hm)

/-- How a check ends. -/
theorem outcome (h : Decides x P L v) : P ∧ x = .ok v ∨ L ∧ x = .error .longNumber ∨
    ∃ fault, x = .error (.domain (.invalidRequest fault)) := by
  by_cases hp : P
  · exact .inl ⟨hp, h.passes hp⟩
  · by_cases hl : L
    · exact .inr (.inl ⟨hl, h.breaks hl⟩)
    · exact .inr (.inr (h.refuses hp hl))

theorem of_ok (h : Decides x P L v) {a : α} (hx : x = .ok a) : P ∧ a = v := by
  obtain ⟨hp, hv⟩ | ⟨-, hv⟩ | ⟨fault, hv⟩ := h.outcome
  · exact ⟨hp, Except.ok.inj (hx.symm.trans hv)⟩
  · nomatch hx.symm.trans hv
  · nomatch hx.symm.trans hv

theorem ok_iff (h : Decides x P L v) : x = .ok v ↔ P := ⟨fun hx => (h.of_ok hx).1, h.passes⟩

theorem break_iff (h : Decides x P L v) : x = .error .longNumber ↔ L := by
  refine ⟨fun hx => ?_, h.breaks⟩
  obtain ⟨-, hv⟩ | ⟨hl, -⟩ | ⟨fault, hv⟩ := h.outcome
  · nomatch hx.symm.trans hv
  · exact hl
  · nomatch hx.symm.trans hv

/-- The second of two checks is made only when the first one lets pass. -/
theorem bind (hx : Decides x P L v) (hf : P → Decides (f v) Q M w) :
    Decides (x >>= f) (P ∧ Q) (L ∨ P ∧ M) w := by
  constructor
  · rintro ⟨hp, hq⟩
    rw [hx.passes hp, ok_bind, (hf hp).passes hq]
  · intro hpq hlm
    by_cases hp : P
    · rw [hx.passes hp, ok_bind]
      exact (hf hp).refuses (fun hq => hpq ⟨hp, hq⟩) fun hm => hlm (.inr ⟨hp, hm⟩)
    · obtain ⟨fault, herror⟩ := hx.refuses hp fun hl => hlm (.inl hl)
      exact ⟨fault, by rw [herror, error_bind]⟩
  · rintro (hl | ⟨hp, hm⟩)
    · rw [hx.breaks hl, error_bind]
    · rw [hx.passes hp, ok_bind, (hf hp).breaks hm]

/-- A check that comes after a fault was looked for. -/
theorem guard {c : Prop} [Decidable c] (hy : Decides y False M v) (h : ¬ c → Decides x P L v) :
    Decides (if c then y else x) (¬ c ∧ P) (c ∧ M ∨ ¬ c ∧ L) v := by
  by_cases hc : c
  · rw [if_pos hc]
    exact hy.congr (by simp [hc]) (by simp [hc])
  · rw [if_neg hc]
    exact (h hc).congr (by simp [hc]) (by simp [hc])

end Decides

theorem Numeral.exceeds_finite (d t : Decimal) :
    exceeds (.finite d) (.finite t) = .ok (decide (t.toRat < d.toRat)) := by
  have hexceeds : (exceeds (.finite d) (.finite t) = .ok false) ↔ d.toRat ≤ t.toRat :=
    exceeds_eq_false_iff d (.finite t)
  obtain ⟨b, hb⟩ := exists_exceeds_finite d t
  rw [hb] at hexceeds ⊢
  cases b <;> simpa using hexceeds

theorem Decimal.toRat_le_largest (a b c : Decimal) :
    a.toRat ≤ (largest a b c).toRat ∧ b.toRat ≤ (largest a b c).toRat ∧
      c.toRat ≤ (largest a b c).toRat := by
  -- the larger of two numbers is above both
  have hmax (x y : Decimal) : x.toRat ≤ (if x.lt y then y else x).toRat ∧
      y.toRat ≤ (if x.lt y then y else x).toRat := by
    split_ifs with h
    · exact ⟨((lt_iff x y).1 h).le, le_rfl⟩
    · exact ⟨le_rfl, (lt_eq_false_iff x y).1 (by simpa using h)⟩
  have hab := hmax a b
  have habc := hmax (if a.lt b then b else a) c
  exact ⟨hab.1.trans habc.1, hab.2.trans habc.1, habc.2⟩

/-! ## What is let through -/

/-- The box of an item is known and bounded. -/
def Item.IsBoxed (i : Item) : Prop := ∃ d, i.dimensions = .known d ∧ d.Bounded

/-- A line that is let through: its box and its weight are known and bounded, and it stands for some
pieces. -/
structure Item.Validated (i : Item) : Prop where
  box : i.IsBoxed
  weight : ∃ w, i.weight = .known w ∧ w.value.value.toRat ≤ 1000
  quantity : ∃ q, i.quantity = .int q ∧ 0 < q

namespace Validation

variable {items : List Item} {policy : Policy} {i : Item}

/-! ## Thresholds -/

/-- A threshold that is a number is checked to lie above zero and to be at most one. -/
theorem checkThreshold_decides (hnan : policy.threshold.isNan = false) :
    Decides (checkThreshold policy.threshold) policy.InRange False () := by
  cases ht : policy.threshold with
  | nan negative signaling payload => simp [ht, Numeral.isNan] at hnan
  | infinite negative =>
    have hrange : ¬ policy.InRange := by
      rintro ⟨t, hfinite, -⟩
      cases ht.symm.trans hfinite
    have hrefused : checkThreshold (.infinite negative) =
        Fallible.refuse (.invalidRequest .threshold) := by
      cases negative <;> rfl
    rw [hrefused]
    exact (Decides.refuse _ _).congr (iff_of_false id hrange) Iff.rfl
  | finite t =>
    have hrange : policy.InRange ↔ 0 < t.toRat ∧ t.toRat ≤ 1 := by
      constructor
      · rintro ⟨t', ht', h⟩
        cases ht.symm.trans ht'
        exact h
      · exact fun h => ⟨t, ht, h⟩
    have hzero : Fallible.ofDecimal ((Numeral.finite t).exceeds Decimal.zero) =
        .ok (decide (0 < t.toRat)) := by
      rw [Numeral.exceeds_finite, Decimal.toRat_zero]
      rfl
    have hone : Fallible.ofDecimal ((Numeral.finite t).exceeds (Decimal.ofNat 1)) =
        .ok (decide (1 < t.toRat)) := by
      rw [Numeral.exceeds_finite, Decimal.toRat_ofNat, Nat.cast_one]
      rfl
    rw [checkThreshold, hzero, ok_bind, hone, ok_bind]
    refine (Decides.guard (.refuse _ _) fun _ => .ok ()).congr ?_ (by simp)
    rw [hrange]
    simp

theorem inRange_of_checkThreshold (h : checkThreshold policy.threshold = .ok ()) :
    policy.InRange := by
  cases hnan : policy.threshold.isNan with
  | false => exact (checkThreshold_decides hnan).ok_iff.1 h
  | true => simp [checkThreshold, Numeral.exceeds, hnan, Fallible.ofDecimal, Except.mapError] at h

/-! ## Lines -/

/-- A line that is there and has everything that packing needs, with sides of at most 1000 and a
weight of at most 1000. -/
structure Passes (i : Item) : Prop where
  usable : isUsable (some i) = true
  size : ∃ d, i.dimensions = .known d ∧ d.largestSide.toRat ≤ 1000
  weight : ∃ w, i.weight = .known w ∧ w.value.value.toRat ≤ 1000

/-- How many pieces an entry of a request adds. -/
def piecesOf (entry : Option Item) : ℤ := entry.elim 0 fun i => Quantity.pieces i.quantity

/-- What a usable line has. -/
theorem known_of_isUsable (h : isUsable (some i) = true) :
    (∃ q, i.quantity = .int q ∧ 0 < q) ∧ (∃ d, i.dimensions = .known d) ∧
      ∃ w, i.weight = .known w := by
  simp only [isUsable, Bool.and_eq_true] at h
  obtain ⟨⟨⟨-, horder⟩, hdimensions⟩, hweight⟩ := h
  refine ⟨?_, ?_, ?_⟩
  · cases hq : i.quantity with
    | int q => exact ⟨q, rfl, by simpa [hq, Quantity.isOrderable] using horder⟩
    | _ => simp [hq, Quantity.isOrderable] at horder
  · cases hd : i.dimensions with
    | known d => exact ⟨d, rfl⟩
    | _ => simp [hasDimensions, hd] at hdimensions
  · cases hw : i.weight with
    | known w => exact ⟨w, rfl⟩
    | _ => simp [hasWeight, hw] at hweight

/-- A line that is not usable, of which the stock keeping unit cannot be shown. -/
structure Unnamable (i : Item) : Prop where
  unusable : isUsable (some i) = false
  long : i.sku.hasLongNumber = true

/-- One entry is checked for all that it needs, whatever it lacks. -/
theorem checkItem_decides (entry : Option Item) :
    Decides (checkItem entry) (∃ i, entry = some i ∧ Passes i)
      (∃ i, entry = some i ∧ Unnamable i) (piecesOf entry) := by
  cases entry with
  | none => exact (Decides.refuse _ _).congr (by simp) (by simp)
  | some i =>
    by_cases husable : isUsable (some i) = true
    · obtain ⟨⟨q, hq, hpos⟩, ⟨d, hd⟩, w, hw⟩ := known_of_isUsable husable
      have hpasses : (∃ j, some i = some j ∧ Passes j) ↔
          d.largestSide.toRat ≤ 1000 ∧ w.value.value.toRat ≤ 1000 := by
        constructor
        · rintro ⟨_, ⟨⟩, -, ⟨d', hd', hsize⟩, w', hw', hweight⟩
          cases hd.symm.trans hd'
          cases hw.symm.trans hw'
          exact ⟨hsize, hweight⟩
        · rintro ⟨hsize, hweight⟩
          exact ⟨i, rfl, husable, ⟨d, hd, hsize⟩, w, hw, hweight⟩
      have hcount : Quantity.factor i.quantity = .ok (piecesOf (some i)) := by
        simp [piecesOf, Quantity.pieces, Quantity.factor, hq, hpos.le]
      rw [checkItem, if_pos husable, hd, hw, hcount]
      refine Decides.congr (.guard (.refuse _ _) fun _ => .guard (.refuse _ _) fun _ => .ok _) ?_ ?_
      · rw [hpasses, Bool.not_eq_true, Decimal.lt_eq_false_iff, Bool.not_eq_true,
          Decimal.lt_eq_false_iff, maxSide, maxWeight, Decimal.toRat_ofNat, Nat.cast_ofNat,
          and_true]
      · refine iff_of_false (by simp) ?_
        rintro ⟨_, ⟨⟩, hunusable, -⟩
        cases hunusable.symm.trans husable
    · have hrefuse : checkItem (some i) =
          Fallible.refuseShowing i.sku (.invalidRequest (.item i.sku)) := if_neg husable
      rw [hrefuse]
      refine (Decides.refuseShowing _ _ _).congr (iff_of_false id ?_) ⟨fun hlong => ?_, ?_⟩
      · rintro ⟨_, ⟨⟩, hpasses⟩
        exact husable hpasses.usable
      · exact ⟨i, rfl, by simpa using husable, hlong⟩
      · rintro ⟨_, ⟨⟩, -, hlong⟩
        exact hlong

/-- The first entry that does not pass is a line that cannot be named. -/
def FirstUnnamable (entries : List (Option Item)) : Prop :=
  ∃ before i after, entries = before ++ some i :: after ∧
    (∀ entry ∈ before, ∃ j, entry = some j ∧ Passes j) ∧ Unnamable i

theorem firstUnnamable_concat {entries : List (Option Item)} {entry : Option Item} :
    FirstUnnamable (entries ++ [entry]) ↔ FirstUnnamable entries ∨
      (∀ e ∈ entries, ∃ j, e = some j ∧ Passes j) ∧ ∃ i, entry = some i ∧ Unnamable i := by
  constructor
  · rintro ⟨before, i, after, heq, hbefore, hi⟩
    rcases List.eq_nil_or_concat after with rfl | ⟨after, last, rfl⟩
    · obtain ⟨rfl, hlast⟩ := List.append_inj' heq rfl
      exact .inr ⟨hbefore, i, (List.cons.inj hlast).1, hi⟩
    · rw [List.concat_eq_append, ← List.cons_append, ← List.append_assoc] at heq
      exact .inl ⟨before, i, after, (List.append_inj' heq rfl).1, hbefore, hi⟩
  · rintro (⟨before, i, after, rfl, hbefore, hi⟩ | ⟨hall, i, rfl, hi⟩)
    · exact ⟨before, i, after ++ [entry], by simp, hbefore, hi⟩
    · exact ⟨entries, i, [], rfl, hall, hi⟩

/-- All entries are checked, one after the other. -/
theorem checkItems_decides (entries : List (Option Item)) :
    Decides (checkItems entries) (∀ entry ∈ entries, ∃ i, entry = some i ∧ Passes i)
      (FirstUnnamable entries) (entries.map piecesOf).sum := by
  induction entries using List.reverseRecOn with
  | nil => exact (Decides.ok 0).congr (by simp) (by simp [FirstUnnamable])
  | append_singleton entries entry ih =>
    have hlast := (checkItem_decides entry).bind (f := fun n => pure
      ((entries.map piecesOf).sum + n)) fun _ => .ok _
    have hall := ih.bind (f := fun units => checkItem entry >>= fun n => pure (units + n))
      fun _ => hlast
    have hstep : checkItems (entries ++ [entry]) =
        (checkItems entries >>= fun units => checkItem entry >>= fun n => pure (units + n)) := by
      rw [checkItems, List.foldlM_append]
      exact bind_congr fun units => bind_pure _
    rw [hstep, List.map_append, List.sum_append, List.map_singleton, List.sum_singleton]
    refine hall.congr ?_ ?_
    · rw [List.forall_mem_append, List.forall_mem_singleton, and_true]
    · rw [firstUnnamable_concat, and_false, or_false]

theorem Passes.exists_sku (h : Passes i) : ∃ k, i.sku = .text k := by
  have husable := h.usable
  cases hsku : i.sku with
  | text k => exact ⟨k, rfl⟩
  | _ => simp [isUsable, hsku, Json.isWritten] at husable

/-- What passes is let through. -/
theorem Passes.validated (h : Passes i) : i.Validated where
  box := by
    obtain ⟨d, hd, hside⟩ := h.size
    obtain ⟨hl, hw, hh⟩ := toRat_le_largest d.length.value d.width.value d.height.value
    exact ⟨d, hd, Dimensions.forall_mem_sides.2 ⟨hl.trans hside, hw.trans hside, hh.trans hside⟩⟩
  weight := h.weight
  quantity := (known_of_isUsable h.usable).1

/-! ## Requests -/

/-- Every line of a request that passes has passed. -/
theorem passes_of_check (h : check (some (items.map some)) (some policy) = .ok ()) :
    ∀ i ∈ items, Passes i := by
  cases items with
  | nil => simp
  | cons i items =>
    obtain ⟨_, -, h⟩ := bind_eq_ok.1 h
    obtain ⟨n, hn, -⟩ := bind_eq_ok.1 h
    intro j hj
    obtain ⟨_, ⟨⟩, hpasses⟩ :=
      ((checkItems_decides _).of_ok hn).1 (some j) (List.mem_map_of_mem hj)
    exact hpasses

/-- **What validation makes sure of**: the threshold lies in its range, every line is let through,
and there are at most 5000 single pieces. -/
theorem validated_of_check (h : check (some (items.map some)) (some policy) = .ok ()) :
    policy.InRange ∧ (∀ i ∈ items, i.Validated) ∧ (Item.singles items).length ≤ 5000 := by
  have hitems : ∀ i ∈ items, i.Validated := fun i hi => (passes_of_check h i hi).validated
  cases items with
  | nil => simp [check, Fallible.refuse] at h
  | cons i items =>
    obtain ⟨_, hthreshold, h⟩ := bind_eq_ok.1 h
    obtain ⟨n, hn, h⟩ := bind_eq_ok.1 h
    obtain ⟨-, hsum⟩ := (checkItems_decides _).of_ok hn
    refine ⟨inRange_of_checkThreshold hthreshold, hitems, ?_⟩
    have hlength : ((Item.singles (i :: items)).length : ℤ) = n := by
      rw [hsum]
      simp [Item.singles, List.length_flatMap, piecesOf, Function.comp_def]
    have hunits : n ≤ maxUnits := by
      by_contra hlt
      simp [not_le.1 hlt, bind_eq_ok] at h
    rw [maxUnits] at hunits
    omega

end Validation

end Stowage
