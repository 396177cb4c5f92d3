import Stowage.Proofs.Packing.Run

/-!
# What a solution keeps to

Every package of a solution is on an active carton and keeps the rules of that carton and of the
policy, and the packages together hold exactly the single pieces of the request.
-/

namespace Stowage

open Packing Quantity

variable {items : List Item} {cartons : List Carton} {policy : Policy} {supply : Supply}
  {s : Solution}

/-- **Every package of a solution keeps the rules**: its carton is one of the active ones that were
given, each of its items fits into the carton on its own, its totals are the sums over its items and
stay within the weight that the carton carries and the threshold, and its items may share a package.
Categories that are texts are equal where they may not be mixed. -/
theorem pack_keeps_rules (h : (pack items cartons policy supply).1 = .ok s) :
    ∀ p ∈ s.packages, p.carton ∈ cartons ∧ p.carton.isActive = true ∧ p.items ≠ [] ∧
      p.Filled policy ∧ (policy.mixedCategories = false →
        ∀ i ∈ p.items, ∀ j ∈ p.items, i.category.AgreeAsTexts j.category) := by
  obtain ⟨units, cs, -, hcs, hrun⟩ := run_of_pack h
  intro p hp
  have hused := hrun.inUse p hp
  have hfilled := hused.built.filled hused.nonempty
  obtain ⟨hmem, hactive⟩ := (mem_of_sortCartons hcs).1 hused.carton
  refine ⟨hmem, hactive, hused.nonempty, hfilled, fun hmixed i hi j hj s t hs ht => ?_⟩
  exact hfilled.category_eq hmixed hi hj hs ht

/-- The crates with bricks in them keep the rules. -/
theorem pack_keeps_rules_bricks :
    (pack [bricks] [crate] .usual .start).1 =
        .ok (Solution.create [crateOfBrick, crateOfBrick] none .start).1 ∧
      crate ∈ [crate] ∧ crate.isActive = true ∧ crateOfBrick.Filled .usual :=
  have h := pack_keeps_rules pack_bricks crateOfBrick List.mem_cons_self
  ⟨pack_bricks, h.1, h.2.1, h.2.2.2.1⟩

/-! ## Conservation -/

theorem Solution.totalItems_eq (h : ∀ i ∈ s.allItems, IsCount i.quantity) :
    s.totalItems = .ok (.int ((s.allItems.map fun i => pieces i.quantity).sum : ℕ)) := by
  obtain ⟨counts, hmap, hall, hsum⟩ := Package.exists_itemCounts h
  rw [totalItems, hmap, ok_bind, total_eq hall, hsum]
  rfl

/-- **A solution holds exactly the single pieces of the request.** No package is empty, and the
total and the groups of the packages report the quantities of the request. -/
theorem pack_conserves_pieces (hq : ∀ i ∈ items, ∃ q, i.quantity = .int q)
    (h : (pack items cartons policy supply).1 = .ok s) :
    s.allItems.Perm (Item.singles items) ∧ (∀ p ∈ s.packages, p.isEmpty = false) ∧
      s.totalItems = .ok (.int ((items.map fun i => pieces i.quantity).sum : ℕ)) ∧
      ((∀ i ∈ items, i.sku.isScalar = true) →
        ∃ reports, s.packages.mapM Package.groups = .ok reports) ∧
      ∀ reports, s.packages.mapM Package.groups = .ok reports → ∀ k : RawText,
        total ((reports.flatten.filter fun g => g.item.sku.same (.text k)).map (·.quantity)) =
          .ok (.int (Item.piecesOf k items)) := by
  obtain ⟨units, cs, hunits, -, hrun⟩ := run_of_pack h
  obtain ⟨us, hus, hperm⟩ := sortItems_perm hunits
  rw [allUnits_eq hq hus] at hperm
  have hall : s.allItems.Perm (Item.singles items) := hrun.contents.trans hperm
  have hsingle : ∀ i ∈ s.allItems, i.quantity = .int 1 ∧ ∃ line ∈ items, i.sku = line.sku :=
    fun i hi => Item.mem_singles (hall.mem_iff.1 hi)
  have hcount : ∀ i ∈ s.allItems, IsCount i.quantity := fun i hi => ⟨1, (hsingle i hi).1⟩
  refine ⟨hall, fun p hp => ?_, ?_, fun hsku => ?_, fun reports hreports k => ?_⟩
  · simpa [Package.isEmpty] using (hrun.inUse p hp).nonempty
  · rw [Solution.totalItems_eq hcount, ← Item.piecesWhere_true, Item.piecesWhere_perm _ hall,
      Item.piecesWhere_singles (fun _ => rfl), Item.piecesWhere_true]
  · refine exists_mapM fun p hp => Package.exists_groups (fun i hi => ?_) (fun i hi => ?_)
    · exact hcount i (List.mem_flatMap.2 ⟨p, hp, hi⟩)
    · obtain ⟨-, line, hline, hi⟩ := hsingle i (List.mem_flatMap.2 ⟨p, hp, hi⟩)
      rw [hi]
      exact hsku line hline
  · obtain ⟨hcounts, hreport⟩ := Package.mapM_groups_report hcount hreports
    have hpieces : Item.piecesOf k s.allItems = Item.piecesOf k items :=
      (Item.piecesWhere_perm _ hall).trans (Item.piecesWhere_singles (fun _ => rfl) items)
    rw [Package.total_filter k hcounts, hreport, ← hpieces]
    rfl

/-- The solution for two bricks holds two single bricks. -/
theorem pack_conserves_pieces_bricks :
    (Solution.create [crateOfBrick, crateOfBrick] none .start).1.allItems.Perm
        (Item.singles [bricks]) ∧
      (Solution.create [crateOfBrick, crateOfBrick] none .start).1.totalItems = .ok (.int 2) :=
  have h := pack_conserves_pieces (by simp [bricks]) pack_bricks
  ⟨h.1, h.2.2.1⟩

end Stowage
