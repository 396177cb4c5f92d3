import Stowage.Proofs.Catalogue.Failure
import Stowage.Proofs.Packing.Feasibility
import Stowage.Warehouse.Calculation

/-!
# Where solutions clash

Only the table of solutions tells of a second solution for a request. Fetching the cartons,
preparing the items, packing them and making the view of a solution may fail in many ways, but not
in this one (`Unclashing`).
-/

namespace Stowage

/-- The computation does not fail because there is a solution for the request already. -/
def Unclashing {α : Type} (x : Fallible α) : Prop := x ≠ .error .duplicateRequest

namespace Unclashing

variable {α β : Type} {x y : Fallible α} {f : α → Fallible β}

theorem ok (a : α) : Unclashing (.ok a) := nofun

theorem pure (a : α) : Unclashing (Pure.pure a) := nofun

theorem refuse (e : DomainError) : Unclashing (Fallible.refuse e : Fallible α) := nofun

theorem refuseShowing (shown : Json) (e : DomainError) :
    Unclashing (Fallible.refuseShowing shown e : Fallible α) := by
  intro h
  rcases Fallible.refuseShowing_eq_error.1 h with ⟨-, h⟩ | ⟨-, h⟩ <;> nomatch h

theorem of_signals (h : Signals False x) : Unclashing x := fun hx => (h.isBreak hx).elim id id

theorem bind (hx : Unclashing x) (hf : ∀ a, Unclashing (f a)) : Unclashing (x >>= f) := by
  intro h
  rcases bind_eq_error.1 h with h | ⟨a, -, h⟩
  · exact hx h
  · exact hf a h

theorem ite {c : Prop} [Decidable c] (hx : Unclashing x) (hy : Unclashing y) :
    Unclashing (if c then x else y) := by
  split_ifs
  · exact hx
  · exact hy

theorem ofDecimal (r : Except Decimal.Signal α) : Unclashing (Fallible.ofDecimal r) :=
  of_signals (.ofDecimal r)

theorem settle (c : Checked α) : Unclashing c.settle := by
  cases c <;> nofun

theorem mapM {f : α → Fallible β} (hf : ∀ a, Unclashing (f a)) (xs : List α) :
    Unclashing (xs.mapM f) := by
  intro he
  obtain ⟨x, -, hx⟩ := mapM_eq_error he
  exact hf x hx

theorem foldlM {step : β → α → Fallible β} (h : ∀ b a, Unclashing (step b a)) (xs : List α)
    (b : β) : Unclashing (xs.foldlM step b) := by
  intro he
  obtain ⟨_, y, _, m, -, -, hy⟩ := foldlM_eq_error he
  exact h m y hy

end Unclashing

/-! ## The cartons -/

theorem Amount.unclashing_ofNumeral (what : Measured) (n : Numeral) :
    Unclashing (Amount.ofNumeral what n) := by
  cases n with
  | finite d => exact .of_signals (Amount.signals_ofDecimal what d)
  | _ => exact .refuse _

theorem StoredCarton.unclashing_toCarton (r : StoredCarton) : Unclashing r.toCarton := by
  have hamount : ∀ what x, Unclashing (StoredCarton.amount what x) := fun what x =>
    Amount.unclashing_ofNumeral what _
  have hdimensions : Unclashing r.dimensions := (hamount _ _).bind fun _ =>
    (hamount _ _).bind fun _ => (hamount _ _).bind fun _ => .pure _
  exact hdimensions.bind fun _ => ((hamount _ _).bind fun _ => .pure _).bind fun _ => .pure _

theorem CartonTable.unclashing_list (t : CartonTable) (activeOnly : Bool) :
    Unclashing (t.list activeOnly) := .mapM StoredCarton.unclashing_toCarton _

/-! ## The items -/

/-- The conversation does not end because there is a solution for the request already. -/
def Dialogue.Unclashing {α : Type} (d : Dialogue α) : Prop :=
  ∀ log, Stowage.Unclashing (d.run.run log).1

namespace Dialogue.Unclashing

variable {α β : Type} {d : Dialogue α} {f : α → Dialogue β}

theorem pure (a : α) : Unclashing (Pure.pure a : Dialogue α) := fun _ => .ok a

theorem ofFallible {x : Fallible α} (h : Stowage.Unclashing x) :
    Unclashing (Dialogue.ofFallible x) := by
  intro log
  rw [run_ofFallible]
  exact h

theorem bind (hd : Unclashing d) (hf : ∀ a, Unclashing (f a)) : Unclashing (d >>= f) := by
  intro log h
  rcases bind_eq_error.1 (Prod.ext h rfl) with h | ⟨a, between, -, h⟩
  · exact hd log (congrArg Prod.fst h)
  · exact hf a between (congrArg Prod.fst h)

end Dialogue.Unclashing

theorem Enrichment.unclashing_enrich (client : CatalogueClient) (useDefaults : Bool)
    (lines : List OrderLine) : (enrich client useDefaults lines).Unclashing := by
  intro log h
  rcases failure_of_enrich (Prod.ext h rfl) with hkind | hkind | hescape
  · exact hkind
  · exact hkind
  · rcases hescape.cases with h | h | ⟨_, h⟩ | h | h <;> nomatch h

namespace Validation

theorem unclashing_checkItem (entry : Option Item) : Unclashing (checkItem entry) := by
  cases entry with
  | none => exact .refuse _
  | some i =>
    exact .ite (.bind (.of_signals (Attribute.signals_get nofun)) fun _ => .ite (.refuse _)
      (.bind (.of_signals (Attribute.signals_get nofun)) fun _ => .ite (.refuse _)
        (.of_signals (Quantity.signals_factor nofun)))) (.refuseShowing _ _)

theorem unclashing_checkThreshold (threshold : Numeral) : Unclashing (checkThreshold threshold) :=
  (Unclashing.ofDecimal _).bind fun _ => (Unclashing.ofDecimal _).bind fun _ =>
    .ite (.refuse _) (.pure _)

theorem unclashing_checkCompatibility (items : List Item) (policy : Policy) :
    Unclashing (checkCompatibility items policy) := by
  have hfragile : Unclashing (if policy.separateFragile &&
      !allSame (· == ·) (items.map (·.fragile)) then
        Fallible.refuse (.invalidRequest .mixedFragility) else pure ()) :=
    .ite (.refuse _) (.pure _)
  refine .ite (.ite (.bind nofun fun _ => ?_) ?_) hfragile
  all_goals exact .ite (.bind (.refuse _) fun _ => hfragile) hfragile

theorem unclashing_check (items : Option (List (Option Item))) (policy : Option Policy) :
    Unclashing (check items policy) := by
  unfold check
  split
  · exact .refuse _
  · exact .refuse _
  · split
    · exact .refuse _
    · refine (unclashing_checkThreshold _).bind fun _ => .bind ?_ fun _ => ?_
      · exact .foldlM (fun _ entry => (unclashing_checkItem entry).bind fun _ => .pure _) _ _
      · exact .ite ((Unclashing.refuseShowing _ _).bind fun _ => unclashing_checkCompatibility _ _)
          (unclashing_checkCompatibility _ _)

end Validation

/-! ## The solution -/

theorem unclashing_pack (items : List Item) (cartons : List Carton) (policy : Policy)
    (supply : Supply) : Unclashing (pack items cartons policy supply).1 := by
  intro h
  obtain ⟨f, hf, hbreak⟩ | ⟨_, -, ⟨s, hs, -⟩ | ⟨i, hi, -⟩⟩ :=
    pack_breaks_or items cartons policy supply
  · cases h.symm.trans hf
    exact hbreak.elim id id
  · cases h.symm.trans hs
  · cases h.symm.trans hi

theorem Quantity.unclashing_plus (a b : Json) : Unclashing (plus a b) := by
  unfold plus
  split <;> first | exact .ok _ | (split <;> nofun)

theorem Quantity.unclashing_total (quantities : List Json) : Unclashing (total quantities) :=
  .foldlM unclashing_plus _ _

namespace Package

theorem unclashing_addToGroups (i : Item) (groups : List Group) :
    Unclashing (addToGroups i groups) := by
  induction groups with
  | nil => exact (Quantity.unclashing_plus _ _).bind fun _ => .pure _
  | cons g groups ih =>
    exact .ite ((Quantity.unclashing_plus _ _).bind fun _ => .pure _) (ih.bind fun _ => .pure _)

theorem unclashing_view (p : Package) : Unclashing p.view := by
  have hgroups : Unclashing p.groups := by
    refine .foldlM (fun groups i => ?_) p.items []
    exact .ite (unclashing_addToGroups i groups) nofun
  have hgroup : ∀ g : Group, Unclashing g.view := fun g =>
    (Unclashing.settle _).bind fun _ => .pure _
  exact hgroups.bind fun _ => (Unclashing.mapM hgroup _).bind fun _ =>
    (Quantity.unclashing_total _).bind fun _ =>
    .bind (.of_signals (Attribute.signals_get nofun)) fun _ =>
    .bind (.of_signals (Attribute.signals_get nofun)) fun _ =>
    .bind (.of_signals (Package.signals_cartonVolume nofun)) fun _ =>
    .bind (.of_signals (Package.signals_utilization nofun)) fun _ =>
    (Unclashing.settle _).bind fun _ => .pure _

end Package

namespace Solution

theorem unclashing_sumOver (s : Solution) {figure : Package → Fallible Decimal}
    (h : ∀ p, Unclashing (figure p)) : Unclashing (s.sumOver figure) :=
  .foldlM (fun _ p => (h p).bind fun _ => .ofDecimal _) _ _

theorem unclashing_view (s : Solution) : Unclashing s.view := by
  have hvolumeIn : ∀ (p : Package) v unit, Unclashing (p.volumeIn v unit) := fun p _ _ =>
    .bind (.of_signals (Attribute.signals_get nofun)) fun _ => .ofDecimal _
  have hitems : Unclashing s.totalItems :=
    (Unclashing.mapM (fun _ => Quantity.unclashing_total _) _).bind Quantity.unclashing_total
  have hweight : Unclashing s.totalWeight := s.unclashing_sumOver fun p =>
    .bind (.of_signals (Attribute.signals_get nofun)) fun _ => .ofDecimal _
  have hvolume : Unclashing s.totalVolume := s.unclashing_sumOver fun p =>
    .bind (.of_signals (Package.signals_cartonVolume nofun)) fun _ => hvolumeIn _ _ _
  have hused : Unclashing s.usedVolume := s.unclashing_sumOver fun p => hvolumeIn _ _ _
  exact hitems.bind fun _ => hweight.bind fun _ => hvolume.bind fun _ => hused.bind fun _ =>
    .bind (.of_signals (signals_averageUtilization nofun)) fun _ =>
    (Unclashing.mapM Package.unclashing_view _).bind fun _ =>
    (Unclashing.settle _).bind fun _ => .pure _

end Solution

theorem Calculation.unclashing_prepare (desk : Desk) (order : PackingOrder) :
    (prepare desk order).Unclashing :=
  (Enrichment.unclashing_enrich _ _ _).bind fun _ =>
    .bind (.ofFallible (Validation.unclashing_check _ _)) fun _ => .pure _

end Stowage
