import Stowage.Proofs.Packing.Run

/-!
# What the order of a request does not matter for

Items and cartons are put in order by a sort that keeps equal volumes as they were given. So a list
in order is determined by its groups of equal volume (`mergeSort_congr`), and calculations on
requests that have the same groups end alike (`pack_rearranged`): lines in another order between the
groups, a line split in two, inactive cartons, cartons in another order between the groups.
-/

namespace Stowage

namespace Packing

/-! ## Sorting without moving equals -/

section Stable

variable {α : Type} {key : α → ℚ} {le : α → α → Bool} {xs ys : List α}

theorem trans_of_key (hle : ∀ a b, le a b = true ↔ key a ≤ key b) (a b c : α) (hab : le a b = true)
    (hbc : le b c = true) : le a c = true :=
  (hle a c).2 (((hle a b).1 hab).trans ((hle b c).1 hbc))

theorem total_of_key (hle : ∀ a b, le a b = true ↔ key a ≤ key b) (a b : α) :
    (le a b || le b a) = true := by
  rw [Bool.or_eq_true, hle, hle]
  exact le_total _ _

/-- A sort keeps the elements of one key as they were. -/
theorem filter_mergeSort (hle : ∀ a b, le a b = true ↔ key a ≤ key b) (v : ℚ) :
    (xs.mergeSort le).filter (key · = v) = xs.filter (key · = v) := by
  have hsorted : (xs.filter (key · = v)).Pairwise fun a b => le a b = true :=
    List.pairwise_of_forall_mem_list fun a ha b hb => (hle a b).2 <| by
      rw [of_decide_eq_true (List.mem_filter.1 ha).2, of_decide_eq_true (List.mem_filter.1 hb).2]
  have hsub := (List.sublist_mergeSort (trans_of_key hle) (total_of_key hle) hsorted
    List.filter_sublist).filter (key · = v)
  simp only [List.filter_filter, Bool.and_self] at hsub
  exact (hsub.eq_of_length ((List.mergeSort_perm xs le).filter _).length_eq.symm).symm

/-- Lists in order are equal when they have the same groups of equal keys. -/
theorem eq_of_pairwise_of_groups (hxs : xs.Pairwise (key · ≤ key ·))
    (hys : ys.Pairwise (key · ≤ key ·))
    (h : ∀ v, xs.filter (key · = v) = ys.filter (key · = v)) : xs = ys := by
  have hmem : ∀ a, a ∈ xs ↔ a ∈ ys := fun a => by
    simpa using congrArg (a ∈ ·) (h (key a))
  induction xs generalizing ys with
  | nil => exact (List.eq_nil_iff_forall_not_mem.2 fun a ha => by simpa using (hmem a).2 ha).symm
  | cons a xs ih =>
    cases ys with
    | nil => simpa using hmem a
    | cons b ys =>
      obtain ⟨ha, hxs⟩ := List.pairwise_cons.1 hxs
      obtain ⟨hb, hys'⟩ := List.pairwise_cons.1 hys
      -- the first elements have the least key, so they begin the same group
      have hab : key a ≤ key b := by
        rcases List.mem_cons.1 ((hmem b).2 List.mem_cons_self) with rfl | hmem
        · exact le_rfl
        · exact ha b hmem
      have hba : key b ≤ key a := by
        rcases List.mem_cons.1 ((hmem a).1 List.mem_cons_self) with rfl | hmem
        · exact le_rfl
        · exact hb a hmem
      have hfirst := h (key b)
      rw [List.filter_cons_of_pos (by simpa using le_antisymm hab hba),
        List.filter_cons_of_pos (by simp)] at hfirst
      obtain rfl := (List.cons.inj hfirst).1
      have hrest : ∀ v, xs.filter (key · = v) = ys.filter (key · = v) := by
        intro v
        have hv := h v
        rw [List.filter_cons, List.filter_cons] at hv
        split_ifs at hv
        · exact (List.cons.inj hv).2
        · exact hv
      exact congrArg (a :: ·) (ih hxs hys' hrest fun c => by
        simpa using congrArg (c ∈ ·) (hrest (key c)))

/-- **What is sorted is determined by its groups of equal keys.** -/
theorem mergeSort_congr (hle : ∀ a b, le a b = true ↔ key a ≤ key b)
    (h : ∀ v, xs.filter (key · = v) = ys.filter (key · = v)) :
    xs.mergeSort le = ys.mergeSort le := by
  have hsorted : ∀ zs : List α, (zs.mergeSort le).Pairwise (key · ≤ key ·) := fun zs =>
    (List.pairwise_mergeSort (trans_of_key hle) (total_of_key hle) zs).imp (hle _ _).1
  refine eq_of_pairwise_of_groups (hsorted xs) (hsorted ys) fun v => ?_
  rw [filter_mergeSort hle, filter_mergeSort hle, h v]

end Stable

/-! ## The same things in another order -/

section Reordered

variable {α : Type} {volume : α → Fallible Decimal} {xs ys : List α}

/-- Whether something has a volume, whichever way the number is written. -/
def ofVolume (volume : α → Fallible Decimal) (v : ℚ) (x : α) : Bool :=
  match volume x with
  | .ok w => w.toRat = v
  | .error _ => false

/-- The same things in an order in which those of equal volume follow each other as before. -/
structure Reordered (volume : α → Fallible Decimal) (xs ys : List α) : Prop where
  perm : xs.Perm ys
  groups : ∀ v, xs.filter (ofVolume volume v) = ys.filter (ofVolume volume v)

theorem Reordered.symm (h : Reordered volume xs ys) : Reordered volume ys xs :=
  ⟨h.perm.symm, fun v => (h.groups v).symm⟩

theorem keyed_eq_map {v : α → Decimal} (h : ∀ x ∈ xs, volume x = .ok (v x)) :
    keyed volume xs = .ok (xs.map fun x => (v x, x)) := by
  induction xs with
  | nil => rfl
  | cons x xs ih =>
    obtain ⟨hx, hxs⟩ := List.forall_mem_cons.1 h
    exact mapM_eq_ok_cons.2 ⟨(v x, x), _, by rw [hx]; rfl, ih hxs, rfl⟩

theorem volume_of_keyed {ks : Keyed α} (h : keyed volume xs = .ok ks) :
    ∀ x ∈ xs, ∃ v, volume x = .ok v := by
  intro x hx
  obtain ⟨k, -, hk⟩ := (mem_of_mapM h).2 x hx
  obtain ⟨v, hv, -⟩ := bind_eq_ok.1 hk
  exact ⟨v, hv⟩

/-- In another order the things have the same volumes, and the same groups of equal volume. -/
theorem Reordered.keyed {ks : Keyed α} (h : Reordered volume xs ys)
    (hks : keyed volume xs = .ok ks) : ∃ ks', Packing.keyed volume ys = .ok ks' ∧
      ∀ v, ks'.filter (·.1.toRat = v) = ks.filter (·.1.toRat = v) := by
  choose! v hv using volume_of_keyed hks
  have hv' : ∀ y ∈ ys, volume y = .ok (v y) := fun y hy => hv y (h.perm.mem_iff.2 hy)
  have hgroup : ∀ {zs : List α} (w : ℚ), (∀ z ∈ zs, volume z = .ok (v z)) →
      (zs.map fun z => (v z, z)).filter (·.1.toRat = w) =
        (zs.filter (ofVolume volume w)).map fun z => (v z, z) := by
    intro zs w hzs
    rw [List.filter_map]
    refine congrArg _ (List.filter_congr fun z hz => ?_)
    rw [ofVolume, hzs z hz]
    rfl
  obtain rfl := Except.ok.inj ((keyed_eq_map hv).symm.trans hks)
  exact ⟨_, keyed_eq_map hv', fun w => by rw [hgroup w hv, hgroup w hv', h.groups w]⟩

end Reordered

/-! ## Lines -/

variable {items items' units : List Item}

/-- The single pieces of a line that can be split. -/
def unitsOf (i : Item) : List Item := i.units.toOption.getD []

theorem eq_unitsOf {i : Item} {us : List Item} (h : i.units = .ok us) : us = unitsOf i := by
  simp [unitsOf, h, Except.toOption]

theorem allUnits_eq_ok_iff : allUnits items = .ok units ↔
    (∀ i ∈ items, ∃ us, i.units = .ok us) ∧ units = items.flatMap unitsOf := by
  induction items generalizing units with
  | nil => simp [allUnits, eq_comm]
  | cons i items ih =>
    simp only [allUnits, bind_eq_ok, pure_eq_ok, ih, List.forall_mem_cons, List.flatMap_cons]
    constructor
    · rintro ⟨us, hus, _, ⟨hitems, rfl⟩, rfl⟩
      exact ⟨⟨⟨us, hus⟩, hitems⟩, by rw [eq_unitsOf hus]⟩
    · rintro ⟨⟨⟨us, hus⟩, hitems⟩, rfl⟩
      exact ⟨us, hus, _, ⟨hitems, rfl⟩, by rw [eq_unitsOf hus]⟩

/-- A piece is as large as its line says. -/
theorem filter_unitsOf (i : Item) (v : ℚ) : (unitsOf i).filter (ofVolume Item.sortVolume v) =
    if ofVolume Item.sortVolume v i then unitsOf i else [] := by
  have hpiece : ∀ u ∈ unitsOf i, ofVolume Item.sortVolume v u = ofVolume Item.sortVolume v i := by
    intro u hu
    cases hus : i.units with
    | error f => simp [unitsOf, hus, Except.toOption] at hu
    | ok us =>
      rw [← eq_unitsOf hus] at hu
      rcases Item.mem_units hus u hu with rfl | rfl <;> rfl
  split_ifs with hv
  · exact List.filter_eq_self.2 fun u hu => (hpiece u hu).trans hv
  · exact List.filter_eq_nil_iff.2 fun u hu => by rwa [hpiece u hu]

/-- Lines in another order give the same pieces in another order. -/
theorem Reordered.allUnits (h : Reordered Item.sortVolume items items')
    (hunits : allUnits items = .ok units) : ∃ units', Packing.allUnits items' = .ok units' ∧
      Reordered Item.sortVolume units units' := by
  obtain ⟨hitems, rfl⟩ := allUnits_eq_ok_iff.1 hunits
  refine ⟨_, allUnits_eq_ok_iff.2 ⟨fun i hi => hitems i (h.perm.mem_iff.2 hi), rfl⟩,
    h.perm.flatMap_right _, fun v => ?_⟩
  have hgroup : ∀ xs : List Item, (xs.flatMap unitsOf).filter (ofVolume Item.sortVolume v) =
      (xs.filter (ofVolume Item.sortVolume v)).flatMap unitsOf := by
    intro xs
    rw [List.filter_flatMap]
    simp only [filter_unitsOf]
    induction xs with
    | nil => rfl
    | cons x xs ih => by_cases hx : ofVolume Item.sortVolume v x <;> simp [hx, ih]
  rw [hgroup, hgroup, h.groups v]

/-- Lines in another order are sorted alike. -/
theorem Reordered.sortItems (h : Reordered Item.sortVolume items items')
    (hunits : sortItems items = .ok units) : Packing.sortItems items' = .ok units := by
  obtain ⟨us, hus, hunits⟩ := bind_eq_ok.1 hunits
  obtain ⟨ks, hks, hunits⟩ := bind_eq_ok.1 hunits
  obtain ⟨us', hus', hreordered⟩ := h.allUnits hus
  obtain ⟨ks', hks', hgroups⟩ := hreordered.keyed hks
  have hle : ∀ a b : Decimal × Item, b.1.le a.1 = true ↔ -a.1.toRat ≤ -b.1.toRat := fun a b => by
    rw [Decimal.le_iff, neg_le_neg_iff]
  have hsorted : (ks'.mergeSort fun a b => b.1.le a.1) = ks.mergeSort fun a b => b.1.le a.1 :=
    mergeSort_congr hle fun v => by simpa [neg_eq_iff_eq_neg] using hgroups (-v)
  rw [Packing.sortItems, hus', ok_bind, hks', ok_bind, hsorted, ← pure_eq_ok.1 hunits]
  rfl

/-- Cartons whose active ones are in another order are sorted alike. -/
theorem Reordered.sortCartons {cartons cartons' cs : List Carton}
    (h : Reordered cartonVolume (cartons.filter Carton.isActive) (cartons'.filter Carton.isActive))
    (hcs : sortCartons cartons = .ok cs) : Packing.sortCartons cartons' = .ok cs := by
  obtain ⟨ks, hks, hcs⟩ := bind_eq_ok.1 hcs
  obtain ⟨ks', hks', hgroups⟩ := h.keyed hks
  have hsorted : (ks'.mergeSort fun a b => a.1.le b.1) = ks.mergeSort fun a b => a.1.le b.1 :=
    mergeSort_congr (fun a b => Decimal.le_iff a.1 b.1) hgroups
  rw [Packing.sortCartons, hks', ok_bind, hsorted, ← pure_eq_ok.1 hcs]
  rfl

/-! ## Split lines -/

/-- A line of another quantity. -/
def ofQuantity (i : Item) (n : ℕ) : Item := { i with quantity := .int n }

/-- A line that can be counted gives as many single pieces. -/
theorem units_ofQuantity (i : Item) {n : ℕ} (hn : (n : ℤ) ≤ Quantity.maxUnits) :
    (ofQuantity i n).units = .ok (List.replicate n i.single) := by
  by_cases hone : n = 1
  · subst hone
    rfl
  · have hn' : ¬ Quantity.maxUnits < (n : ℤ) := not_lt.2 hn
    have hleast : ¬ (n : ℤ) < Quantity.minUnits := by
      rw [Quantity.minUnits]
      omega
    have hone' : Quantity.isOne (.int n) = false := by simpa [Quantity.isOne, Json.wholeValue?]
    simp [ofQuantity, Item.units, hone', Quantity.unitCount, Quantity.factor, hn', hleast,
      Item.single]

theorem le_maxUnits_of_units {i : Item} {n : ℕ} {us : List Item}
    (h : (ofQuantity i n).units = .ok us) : (n : ℤ) ≤ Quantity.maxUnits := by
  by_contra hn
  have hone : Quantity.isOne (.int n) = false := by
    have : n ≠ 1 := by
      rintro rfl
      exact hn (by decide)
    simpa [Quantity.isOne, Json.wholeValue?]
  simp [ofQuantity, Item.units, hone, Quantity.unitCount, Quantity.factor, lt_of_not_ge hn] at h

/-- A line that can be counted and its two parts give the same pieces. -/
theorem allUnits_split (before after : List Item) (i : Item) {m n : ℕ}
    (hcount : ((m + n : ℕ) : ℤ) ≤ Quantity.maxUnits) :
    allUnits (before ++ ofQuantity i m :: ofQuantity i n :: after) =
      allUnits (before ++ ofQuantity i (m + n) :: after) := by
  induction before with
  | nil =>
    have hm : (m : ℤ) ≤ Quantity.maxUnits := le_trans (by simp) hcount
    have hn : (n : ℤ) ≤ Quantity.maxUnits := le_trans (by simp) hcount
    simp only [List.nil_append, allUnits, units_ofQuantity i hcount, units_ofQuantity i hm,
      units_ofQuantity i hn, ok_bind]
    cases allUnits after <;> simp [← List.replicate_append_replicate]
  | cons j before ih => simp only [List.cons_append, allUnits, ih]

/-! ## Requests -/

/-- What is given to a calculation. -/
structure Given where
  items : List Item
  cartons : List Carton

/-- A change of what is given that leaves the groups of equal volume as they are. -/
inductive Rearrangement : Given → Given → Prop
  /-- The lines are put in another order. -/
  | lines {items items' : List Item} (cartons : List Carton)
      (h : Reordered Item.sortVolume items items') :
      Rearrangement ⟨items, cartons⟩ ⟨items', cartons⟩
  /-- A line is split in two. -/
  | split (before after : List Item) (i : Item) {m n : ℕ} (hm : 1 ≤ m) (hn : 1 ≤ n)
      (cartons : List Carton) :
      Rearrangement ⟨before ++ ofQuantity i (m + n) :: after, cartons⟩
        ⟨before ++ ofQuantity i m :: ofQuantity i n :: after, cartons⟩
  /-- An inactive carton is put in. -/
  | insert (items : List Item) (before after : List Carton) {c : Carton}
      (h : c.status = .inactive) :
      Rearrangement ⟨items, before ++ after⟩ ⟨items, before ++ c :: after⟩
  /-- An inactive carton is taken out. -/
  | remove (items : List Item) (before after : List Carton) {c : Carton}
      (h : c.status = .inactive) :
      Rearrangement ⟨items, before ++ c :: after⟩ ⟨items, before ++ after⟩
  /-- The cartons are put in another order. -/
  | cartons (items : List Item) {cartons cartons' : List Carton} (hperm : cartons.Perm cartons')
      (h : ∀ v, (cartons.filter Carton.isActive).filter (ofVolume cartonVolume v) =
        (cartons'.filter Carton.isActive).filter (ofVolume cartonVolume v)) :
      Rearrangement ⟨items, cartons⟩ ⟨items, cartons'⟩

/-- No line has more pieces than can be counted. -/
def Given.Countable (g : Given) : Prop :=
  ∀ i ∈ g.items, ∀ n : ℤ, i.quantity = .int n → n ≤ Quantity.maxUnits

/-- The single pieces and the cartons in order. -/
def Given.Sorts (g : Given) (units : List Item) (cs : List Carton) : Prop :=
  sortItems g.items = .ok units ∧ sortCartons g.cartons = .ok cs

namespace Rearrangement

variable {a b : Given} {cs : List Carton}

theorem filter_insert (before after : List Carton) {c : Carton} (h : c.status = .inactive) :
    (before ++ c :: after).filter Carton.isActive = (before ++ after).filter Carton.isActive := by
  have hc : ¬ c.isActive = true := by simp [Carton.isActive, h]
  rw [List.filter_append, List.filter_cons_of_neg hc, ← List.filter_append]

theorem sortCartons_insert (before after : List Carton) {c : Carton} (h : c.status = .inactive) :
    sortCartons (before ++ c :: after) = sortCartons (before ++ after) := by
  rw [sortCartons, sortCartons, filter_insert before after h]

/-- **A change leaves the pieces and the cartons in the same order.** -/
theorem sorts (h : Rearrangement a b) (ha : a.Sorts units cs) : b.Sorts units cs := by
  obtain ⟨hunits, hcs⟩ := ha
  cases h with
  | lines cartons h => exact ⟨h.sortItems hunits, hcs⟩
  | split before after i hm hn cartons =>
    refine ⟨?_, hcs⟩
    obtain ⟨us, hus, -⟩ := bind_eq_ok.1 hunits
    obtain ⟨hitems, -⟩ := allUnits_eq_ok_iff.1 hus
    obtain ⟨_, hline⟩ := hitems _ (List.mem_append_right before List.mem_cons_self)
    rwa [sortItems, allUnits_split before after i (le_maxUnits_of_units hline)]
  | insert items before after h => exact ⟨hunits, by rwa [sortCartons_insert before after h]⟩
  | remove items before after h => exact ⟨hunits, by rwa [← sortCartons_insert before after h]⟩
  | cartons items hperm h =>
    exact ⟨hunits, Reordered.sortCartons ⟨hperm.filter _, h⟩ hcs⟩

theorem countable (h : Rearrangement a b) (ha : a.Countable) : b.Countable := by
  cases h with
  | lines cartons h => exact fun i hi => ha i (h.perm.mem_iff.2 hi)
  | @split before after i m n hm hn cartons =>
    have hcount : ((m + n : ℕ) : ℤ) ≤ Quantity.maxUnits :=
      ha _ (List.mem_append_right before List.mem_cons_self) _ rfl
    intro j hj q hq
    simp only [List.mem_append, List.mem_cons] at hj
    rcases hj with hj | rfl | rfl | hj
    · exact ha j (List.mem_append_left _ hj) q hq
    · obtain rfl : (m : ℤ) = q := Json.int.inj hq
      exact le_trans (by simp) hcount
    · obtain rfl : (n : ℤ) = q := Json.int.inj hq
      exact le_trans (by simp) hcount
    · exact ha j (List.mem_append_right _ (List.mem_cons_of_mem _ hj)) q hq
  | _ => exact ha

/-- A change of what can be counted can be undone: what is in order afterwards was before. -/
theorem sorts_back (h : Rearrangement a b) (ha : a.Countable) (hb : b.Sorts units cs) :
    a.Sorts units cs := by
  cases h with
  | lines cartons h => exact (lines cartons h.symm).sorts hb
  | split before after i hm hn cartons =>
    refine ⟨?_, hb.2⟩
    have hcount := ha _ (List.mem_append_right before List.mem_cons_self) _ rfl
    rw [sortItems, ← allUnits_split before after i hcount]
    exact hb.1
  | insert items before after h => exact (remove items before after h).sorts hb
  | remove items before after h => exact (insert items before after h).sorts hb
  | cartons items hperm h => exact (cartons items hperm.symm fun v => (h v).symm).sorts hb

end Rearrangement

/-- Any number of changes, one after the other. -/
abbrev Rearranged : Given → Given → Prop := Relation.ReflTransGen Rearrangement

theorem Rearranged.sorts {a b : Given} {cs : List Carton} (h : Rearranged a b)
    (ha : a.Sorts units cs) : b.Sorts units cs := by
  induction h with
  | refl => exact ha
  | tail _ hstep ih => exact hstep.sorts ih

theorem Rearranged.sorts_back {a b : Given} {cs : List Carton} (h : Rearranged a b)
    (ha : a.Countable) (hb : b.Sorts units cs) : a.Sorts units cs := by
  induction h using Relation.ReflTransGen.head_induction_on with
  | refl => exact hb
  | head hstep _ ih => exact hstep.sorts_back ha (ih (hstep.countable ha))

/-! ## Calculations -/

/-- The calculation on what is given. -/
def Given.pack (g : Given) (policy : Policy) (supply : Supply) : Fallible Solution × Supply :=
  Stowage.pack g.items g.cartons policy supply

variable {a b : Given} {policy : Policy} {supply : Supply} {cs : List Carton}

/-- What is given can be put in order, or the calculation breaks off. -/
theorem Given.sorts_or (g : Given) (policy : Policy) (supply : Supply) :
    (∃ units cs, g.Sorts units cs) ∨ ∃ f, f.IsBreak ∧ (g.pack policy supply).1 = .error f := by
  have hitems : Signals False (sortItems g.items) := signals_sortItems nofun
  have hcartons : Signals False (sortCartons g.cartons) := signals_sortCartons nofun
  cases hunits : sortItems g.items with
  | error f =>
    refine .inr ⟨f, hitems.isBreak hunits, ?_⟩
    simp [Given.pack, Stowage.pack, packages, hunits]
  | ok units =>
    cases hcs : sortCartons g.cartons with
    | error f =>
      refine .inr ⟨f, hcartons.isBreak hcs, ?_⟩
      simp [Given.pack, Stowage.pack, packages, hunits, hcs]
    | ok cs => exact .inl ⟨units, cs, hunits, hcs⟩

/-- A calculation takes nothing else from what it is given than the order. -/
theorem pack_eq_of_sorts (ha : a.Sorts units cs) (hb : b.Sorts units cs) :
    b.pack policy supply = a.pack policy supply := by
  have hpackages : packages b.items b.cartons policy = packages a.items a.cartons policy := by
    rw [packages, packages, ha.1, ha.2, hb.1, hb.2]
  rw [Given.pack, Given.pack, Stowage.pack, Stowage.pack, hpackages]

end Packing

open Packing

/-- **Calculations do not depend on how a request is arranged.** When the order of lines and cartons
is changed between those of different volume, lines are split and inactive cartons come or go, every
solution and every refusal stays the same, and what broke off still does as long as its lines can
be counted. -/
theorem pack_rearranged {a b : Given} (h : Rearranged a b) (policy : Policy) (supply : Supply) :
    (∀ s, (a.pack policy supply).1 = .ok s → (b.pack policy supply).1 = .ok s) ∧
      (∀ f, ¬ f.IsBreak → (a.pack policy supply).1 = .error f →
        (b.pack policy supply).1 = .error f) ∧
      (a.Countable → ∀ f, f.IsBreak → (a.pack policy supply).1 = .error f →
        ∃ f', f'.IsBreak ∧ (b.pack policy supply).1 = .error f') := by
  rcases a.sorts_or policy supply with ⟨units, cs, ha⟩ | ⟨g, hg, ha⟩
  · have hpack : b.pack policy supply = a.pack policy supply := pack_eq_of_sorts ha (h.sorts ha)
    rw [hpack]
    exact ⟨fun _ hs => hs, fun _ _ hf => hf, fun _ f hbreak hf => ⟨f, hbreak, hf⟩⟩
  · rw [ha]
    refine ⟨nofun, fun f hf hg' => absurd (Except.error.inj hg' ▸ hg) hf, fun hcount f _ _ => ?_⟩
    rcases b.sorts_or policy supply with ⟨units, cs, hb⟩ | hb
    · exact ⟨g, hg, (pack_eq_of_sorts (h.sorts_back hcount hb) hb) ▸ ha⟩
    · exact hb

/-! ## Two bricks, one by one -/

/-- A crate that is not in use any more. -/
def oldCrate : Carton := { crate with status := .inactive }

/-- The bricks are split, and an old crate is put before the crate. -/
theorem rearranged_bricks :
    Rearranged ⟨[bricks], [crate]⟩ ⟨[brick, brick], [oldCrate, crate]⟩ :=
  .tail (.single (.split [] [] brick (m := 1) (n := 1) le_rfl le_rfl [crate]))
    (.insert [brick, brick] [] [crate] rfl)

/-- Two bricks on lines of their own come into two crates. -/
theorem pack_rearranged_bricks :
    Rearranged ⟨[bricks], [crate]⟩ ⟨[brick, brick], [oldCrate, crate]⟩ ∧
    (Given.pack ⟨[brick, brick], [oldCrate, crate]⟩ .usual .start).1 =
      .ok (Solution.create [crateOfBrick, crateOfBrick] none .start).1 :=
  ⟨rearranged_bricks, (pack_rearranged rearranged_bricks .usual .start).1 _ pack_bricks⟩

end Stowage
