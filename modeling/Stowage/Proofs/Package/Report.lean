import Stowage.Package.Basic
import Stowage.Proofs.Failure.Fallible

/-!
# What packages report

The counts and groups of packages whose quantities are counts. Of every stock keeping unit that is a
text, the groups of a package report as many pieces as the package holds (`groups_report`), however
the items are merged.
-/

namespace Stowage

/-! ## Counts -/

namespace Quantity

/-- The number of pieces a whole quantity stands for. -/
def pieces : Json → ℕ
  | .int q => q.toNat
  | _ => 0

@[simp] theorem pieces_natCast (n : ℕ) : pieces (.int n) = n := rfl

/-- A quantity is a count. -/
def IsCount (x : Json) : Prop := ∃ n : ℕ, x = .int n

theorem plus_int (a b : ℤ) : plus (.int a) (.int b) = .ok (.int (a + b)) := rfl

theorem isCount_zero : IsCount (.int 0) := ⟨0, rfl⟩

theorem IsCount.plus {x y : Json} (hx : IsCount x) (hy : IsCount y) :
    plus x y = .ok (.int ((pieces x + pieces y : ℕ) : ℤ)) := by
  obtain ⟨m, rfl⟩ := hx
  obtain ⟨n, rfl⟩ := hy
  simp [plus_int]

/-- Counts add up to a count. -/
theorem total_eq {xs : List Json} (h : ∀ x ∈ xs, IsCount x) :
    total xs = .ok (.int ((xs.map pieces).sum : ℕ)) := by
  have hfrom : ∀ n : ℕ,
      xs.foldlM plus (.int n) = .ok (.int ((n + (xs.map pieces).sum : ℕ) : ℤ)) := by
    induction xs with
    | nil => simp
    | cons x xs ih =>
      intro n
      obtain ⟨hx, hxs⟩ := List.forall_mem_cons.1 h
      rw [List.foldlM_cons, IsCount.plus ⟨n, rfl⟩ hx, ok_bind, ih hxs, List.map_cons, List.sum_cons,
        ← add_assoc]
      rfl
  simpa [total] using hfrom 0

end Quantity

/-! ## Names -/

namespace Json

theorem same_text_iff {x : Json} {k : RawText} : x.same (.text k) = true ↔ x = .text k := by
  cases x <;> simp [same, wholeValue?]

theorem text_same_iff {x : Json} {k : RawText} : (Json.text k).same x = true ↔ x = .text k := by
  constructor
  · intro h
    cases x <;> simp_all [same, wholeValue?]
  · rintro rfl
    simp [same]

/-- Values that agree are named by the same texts. -/
theorem same_text_congr {x y : Json} (h : x.same y = true) (k : RawText) :
    x.same (.text k) = y.same (.text k) := by
  rw [Bool.eq_iff_iff, same_text_iff, same_text_iff]
  constructor
  · rintro rfl
    exact text_same_iff.1 h
  · rintro rfl
    exact same_text_iff.1 h

end Json

/-! ## Pieces of lines -/

namespace Item

/-- The pieces that the lines of some kind stand for. -/
def piecesWhere (kind : Item → Bool) (items : List Item) : ℕ :=
  (items.map fun i => if kind i then Quantity.pieces i.quantity else 0).sum

/-- The pieces of a stock keeping unit. -/
def piecesOf (k : RawText) (items : List Item) : ℕ :=
  piecesWhere (fun i => i.sku.same (.text k)) items

theorem piecesWhere_append (kind : Item → Bool) (is js : List Item) :
    piecesWhere kind (is ++ js) = piecesWhere kind is + piecesWhere kind js := by
  simp [piecesWhere]

theorem piecesOf_append (k : RawText) (is js : List Item) :
    piecesOf k (is ++ js) = piecesOf k is + piecesOf k js := piecesWhere_append _ is js

theorem piecesWhere_perm (kind : Item → Bool) {is js : List Item} (h : is.Perm js) :
    piecesWhere kind is = piecesWhere kind js := (h.map _).sum_eq

theorem piecesWhere_true (items : List Item) :
    piecesWhere (fun _ => true) items = (items.map fun i => Quantity.pieces i.quantity).sum := rfl

/-- The single pieces of lines with whole quantities. -/
def singles (items : List Item) : List Item :=
  items.flatMap fun i => List.replicate (Quantity.pieces i.quantity) i.single

theorem exists_line_of_mem_singles {items : List Item} {i : Item} (h : i ∈ singles items) :
    ∃ line ∈ items, i = line.single := by
  obtain ⟨line, hline, hi⟩ := List.mem_flatMap.1 h
  exact ⟨line, hline, (List.mem_replicate.1 hi).2⟩

theorem mem_singles {items : List Item} {i : Item} (h : i ∈ singles items) :
    i.quantity = .int 1 ∧ ∃ line ∈ items, i.sku = line.sku := by
  obtain ⟨line, hline, rfl⟩ := exists_line_of_mem_singles h
  exact ⟨rfl, line, hline, rfl⟩

/-- Splitting lines into single pieces keeps the count of every kind. -/
theorem piecesWhere_singles {kind : Item → Bool} (hkind : ∀ i : Item, kind i.single = kind i)
    (items : List Item) : piecesWhere kind (singles items) = piecesWhere kind items := by
  induction items with
  | nil => rfl
  | cons i items ih =>
    have hline : piecesWhere kind (List.replicate (Quantity.pieces i.quantity) i.single) =
        if kind i then Quantity.pieces i.quantity else 0 := by
      have hone : Quantity.pieces i.single.quantity = 1 := rfl
      simp [piecesWhere, hkind, hone]
    rw [singles, List.flatMap_cons, piecesWhere_append, hline, ← singles, ih]
    rfl

end Item

namespace Package

open Quantity

/-- The count of a package. -/
theorem itemCount_eq {p : Package} (h : ∀ i ∈ p.items, IsCount i.quantity) :
    p.itemCount = .ok (.int ((p.items.map fun i => pieces i.quantity).sum : ℕ)) := by
  rw [itemCount, total_eq (by simpa using h), List.map_map]
  rfl

/-- The counts of several packages. -/
theorem exists_itemCounts {ps : List Package} (h : ∀ i ∈ ps.flatMap (·.items), IsCount i.quantity) :
    ∃ counts, ps.mapM itemCount = .ok counts ∧ (∀ x ∈ counts, IsCount x) ∧
      (counts.map pieces).sum = ((ps.flatMap (·.items)).map fun i => pieces i.quantity).sum := by
  induction ps with
  | nil => exact ⟨[], rfl, by simp, rfl⟩
  | cons p ps ih =>
    rw [List.flatMap_cons] at h ⊢
    obtain ⟨counts, hcounts, hall, hsum⟩ := ih fun i hi => h i (List.mem_append_right _ hi)
    have hp := itemCount_eq fun i hi => h i (List.mem_append_left _ hi)
    refine ⟨_, mapM_eq_ok_cons.2 ⟨_, _, hp, hcounts, rfl⟩,
      List.forall_mem_cons.2 ⟨⟨_, rfl⟩, hall⟩, ?_⟩
    rw [List.map_cons, List.sum_cons, pieces_natCast, hsum, List.map_append, List.sum_append]

/-! ## Groups -/

variable {i : Item} {gs gs' : List Group}

/-- The pieces of a stock keeping unit in groups. -/
def reported (k : RawText) (gs : List Group) : ℕ :=
  (gs.map fun g => if g.item.sku.same (.text k) then pieces g.quantity else 0).sum

theorem reported_append (k : RawText) (gs gs' : List Group) :
    reported k (gs ++ gs') = reported k gs + reported k gs' := by
  simp [reported]

/-- What groups report of a stock keeping unit is the total of the quantities of its groups. -/
theorem total_filter (k : RawText) (h : ∀ g ∈ gs, IsCount g.quantity) :
    total ((gs.filter fun g => g.item.sku.same (.text k)).map (·.quantity)) =
      .ok (.int (reported k gs)) := by
  have hsum : (((gs.filter fun g => g.item.sku.same (.text k)).map (·.quantity)).map pieces).sum =
      reported k gs := by
    simp [reported, List.sum_map_ite, Function.comp_def]
  rw [total_eq, hsum]
  intro x hx
  obtain ⟨g, hg, rfl⟩ := List.mem_map.1 hx
  exact h g (List.mem_filter.1 hg).1

/-- An item adds its pieces to those of its stock keeping unit. -/
theorem addToGroups_report (hi : IsCount i.quantity) (hgs : ∀ g ∈ gs, IsCount g.quantity) :
    ∃ gs', addToGroups i gs = .ok gs' ∧ (∀ g ∈ gs', IsCount g.quantity) ∧
      ∀ k, reported k gs' = reported k gs + Item.piecesOf k [i] := by
  induction gs with
  | nil =>
    refine ⟨[⟨i, .int (pieces i.quantity)⟩], ?_, by simp [IsCount], fun k => ?_⟩
    · rw [addToGroups, isCount_zero.plus hi]
      simp [pieces]
    · simp [reported, Item.piecesOf, Item.piecesWhere]
  | cons g gs ih =>
    obtain ⟨hg, hgs⟩ := List.forall_mem_cons.1 hgs
    by_cases hsame : g.item.sku.same i.sku = true
    · refine ⟨⟨g.item, .int ((pieces g.quantity + pieces i.quantity : ℕ) : ℤ)⟩ :: gs, ?_, ?_,
        fun k => ?_⟩
      · rw [addToGroups, if_pos hsame, hg.plus hi]
        rfl
      · exact List.forall_mem_cons.2 ⟨⟨_, rfl⟩, hgs⟩
      · rw [reported, reported, List.map_cons, List.sum_cons, List.map_cons, List.sum_cons,
          Item.piecesOf, Item.piecesWhere, List.map_singleton, List.sum_singleton,
          Json.same_text_congr hsame k]
        split_ifs
        · rw [pieces_natCast]
          omega
        · rfl
    · obtain ⟨gs', hgs', hcount, hreport⟩ := ih hgs
      refine ⟨g :: gs', ?_, List.forall_mem_cons.2 ⟨hg, hcount⟩, fun k => ?_⟩
      · rw [addToGroups, if_neg hsame, hgs']
        rfl
      · have h := hreport k
        rw [reported, reported] at h
        rw [reported, reported, List.map_cons, List.sum_cons, List.map_cons, List.sum_cons, h,
          add_assoc]

theorem groupStep_report (hi : IsCount i.quantity) (hgs : ∀ g ∈ gs, IsCount g.quantity)
    (h : groupStep gs i = .ok gs') : (∀ g ∈ gs', IsCount g.quantity) ∧
      ∀ k, reported k gs' = reported k gs + Item.piecesOf k [i] := by
  obtain ⟨gs'', hadd, hcount, hreport⟩ := addToGroups_report hi hgs
  unfold groupStep at h
  split_ifs at h
  cases hadd.symm.trans h
  exact ⟨hcount, hreport⟩

theorem foldlM_groupStep_report {items : List Item} (hitems : ∀ i ∈ items, IsCount i.quantity)
    (h : items.foldlM groupStep [] = .ok gs) :
    (∀ g ∈ gs, IsCount g.quantity) ∧ ∀ k, reported k gs = Item.piecesOf k items := by
  induction items using List.reverseRecOn generalizing gs with
  | nil =>
    cases h
    exact ⟨by simp, fun k => rfl⟩
  | append_singleton items i ih =>
    obtain ⟨m, hm, hstep⟩ := foldlM_concat_eq_ok.1 h
    obtain ⟨hcount, hreport⟩ := ih (fun j hj => hitems j (List.mem_append_left _ hj)) hm
    obtain ⟨hcount', hreport'⟩ := groupStep_report (hitems i (by simp)) hcount hstep
    exact ⟨hcount', fun k => by rw [hreport', hreport, Item.piecesOf_append]⟩

theorem exists_foldlM_groupStep {items : List Item} (hitems : ∀ i ∈ items, IsCount i.quantity)
    (hsku : ∀ i ∈ items, i.sku.isScalar = true) (hgs : ∀ g ∈ gs, IsCount g.quantity) :
    ∃ gs', items.foldlM groupStep gs = .ok gs' := by
  induction items generalizing gs with
  | nil => exact ⟨gs, rfl⟩
  | cons i items ih =>
    obtain ⟨hi, hitems⟩ := List.forall_mem_cons.1 hitems
    obtain ⟨hscalar, hscalars⟩ := List.forall_mem_cons.1 hsku
    obtain ⟨gs', hadd, hcount, -⟩ := addToGroups_report hi hgs
    obtain ⟨gs'', h⟩ := ih hitems hscalars hcount
    refine ⟨gs'', ?_⟩
    rw [List.foldlM_cons, groupStep, if_pos hscalar, hadd, ok_bind, h]

/-- **The groups of a package report the pieces it holds.** -/
theorem groups_report {p : Package} (hp : ∀ i ∈ p.items, IsCount i.quantity)
    (h : p.groups = .ok gs) :
    (∀ g ∈ gs, IsCount g.quantity) ∧ ∀ k, reported k gs = Item.piecesOf k p.items :=
  foldlM_groupStep_report hp h

/-- What the groups of several packages report together. -/
theorem mapM_groups_report {ps : List Package} {reports : List (List Group)}
    (hps : ∀ i ∈ ps.flatMap (·.items), IsCount i.quantity) (h : ps.mapM groups = .ok reports) :
    (∀ g ∈ reports.flatten, IsCount g.quantity) ∧
      ∀ k, reported k reports.flatten = Item.piecesOf k (ps.flatMap (·.items)) := by
  induction ps generalizing reports with
  | nil =>
    cases h
    exact ⟨by simp, fun k => rfl⟩
  | cons p ps ih =>
    obtain ⟨gs, rest, hgs, hrest, rfl⟩ := mapM_eq_ok_cons.1 h
    rw [List.flatMap_cons] at hps
    obtain ⟨hcount, hreport⟩ := ih (fun i hi => hps i (List.mem_append_right _ hi)) hrest
    obtain ⟨hcount', hreport'⟩ := groups_report (fun i hi => hps i (List.mem_append_left _ hi)) hgs
    refine ⟨fun g hg => ?_, fun k => ?_⟩
    · rw [List.flatten_cons] at hg
      exact (List.mem_append.1 hg).elim (hcount' g) (hcount g)
    · rw [List.flatten_cons, reported_append, hreport', hreport, List.flatMap_cons,
        Item.piecesOf_append]

/-- A group stands for the item that came first. -/
theorem item_of_addToGroups (h : addToGroups i gs = .ok gs') {g : Group} (hg : g ∈ gs') :
    g.item = i ∨ ∃ old ∈ gs, g.item = old.item := by
  induction gs generalizing gs' with
  | nil =>
    obtain ⟨quantity, -, h⟩ := bind_eq_ok.1 h
    obtain rfl := pure_eq_ok.1 h
    exact .inl (congrArg Group.item (List.mem_singleton.1 hg))
  | cons old gs ih =>
    unfold addToGroups at h
    split_ifs at h
    · obtain ⟨quantity, -, h⟩ := bind_eq_ok.1 h
      obtain rfl := pure_eq_ok.1 h
      rcases List.mem_cons.1 hg with rfl | hg
      · exact .inr ⟨old, List.mem_cons_self, rfl⟩
      · exact .inr ⟨g, List.mem_cons_of_mem _ hg, rfl⟩
    · obtain ⟨rest, hrest, h⟩ := bind_eq_ok.1 h
      obtain rfl := pure_eq_ok.1 h
      rcases List.mem_cons.1 hg with rfl | hg
      · exact .inr ⟨g, List.mem_cons_self, rfl⟩
      · exact (ih hrest hg).imp_right fun ⟨old', hold, heq⟩ =>
          ⟨old', List.mem_cons_of_mem _ hold, heq⟩

theorem mem_of_foldlM_groupStep {items : List Item} (h : items.foldlM groupStep [] = .ok gs)
    {g : Group} (hg : g ∈ gs) : g.item ∈ items := by
  induction items using List.reverseRecOn generalizing gs g with
  | nil =>
    cases h
    nomatch hg
  | append_singleton items i ih =>
    obtain ⟨m, hm, hstep⟩ := foldlM_concat_eq_ok.1 h
    unfold groupStep at hstep
    split_ifs at hstep
    rcases item_of_addToGroups hstep hg with heq | ⟨old, hold, heq⟩
    · simp [heq]
    · exact heq ▸ List.mem_append_left _ (ih hm hold)

/-- Groups are made of the items of a package. -/
theorem mem_of_groups {p : Package} (h : p.groups = .ok gs) {g : Group} (hg : g ∈ gs) :
    g.item ∈ p.items := mem_of_foldlM_groupStep h hg

/-- A package whose stock keeping units are scalars has groups. -/
theorem exists_groups {p : Package} (hp : ∀ i ∈ p.items, IsCount i.quantity)
    (hsku : ∀ i ∈ p.items, i.sku.isScalar = true) : ∃ gs, p.groups = .ok gs :=
  exists_foldlM_groupStep hp hsku (by simp)

end Package

end Stowage
