import Stowage.Proofs.Packing.Run

/-!
# Feasibility

A calculation is infeasible exactly when some single piece is refused by a new package on every
active carton, and it names the first such piece (`pack_infeasible_iff`). The packages that are
already open make no difference: what one of them accepts, a new package on its carton accepts as
well. So the answer does not depend on how an open package is looked for.
-/

namespace Stowage

namespace Packing

open Package

variable {policy : Policy} {cartons cs : List Carton} {items units : List Item} {i : Item}
  {ps ps' : List Package}

/-- No active carton takes an item on its own. -/
def Refused (policy : Policy) (cartons : List Carton) (i : Item) : Prop :=
  ∀ c ∈ cartons, c.isActive = true → (ofCarton c).accepts i policy = .ok false

/-- An item is the first of a list that no active carton takes on its own. -/
def FirstRefused (policy : Policy) (cartons : List Carton) (units : List Item) (i : Item) : Prop :=
  ∃ before after, units = before ++ i :: after ∧ Refused policy cartons i ∧
    ∀ v ∈ before, ¬ Refused policy cartons v

section Classical

open Classical

theorem firstRefused_iff_find? : FirstRefused policy cartons units i ↔
    units.find? (fun v => decide (Refused policy cartons v)) = some i := by
  simp only [FirstRefused, List.find?_eq_some_iff_append, decide_eq_true_eq, Bool.not_eq_true',
    decide_eq_false_iff_not]
  tauto

theorem FirstRefused.unique {j : Item} (hi : FirstRefused policy cartons units i)
    (hj : FirstRefused policy cartons units j) : i = j := by
  rw [firstRefused_iff_find?] at hi hj
  exact Option.some.inj (hi.symm.trans hj)

end Classical

theorem FirstRefused.mem (h : FirstRefused policy cartons units i) : i ∈ units := by
  obtain ⟨before, after, rfl, -⟩ := h
  simp

/-! ## What is accepted alone -/

/-- What is placed is accepted by a new package on one of the cartons. -/
theorem Placed.accepted_alone (h : Placed policy cs i ps ps')
    (hps : ∀ p ∈ ps, InUse policy cs p) :
    ∃ c ∈ cs, (ofCarton c).accepts i policy = .ok true := by
  obtain ⟨before, p, q, after, rfl, hadd, hold⟩ := h.exists_add
  have ha := (add_eq_ok_iff.1 hadd).1
  rcases hold with rfl | ⟨-, -, c, hc, rfl⟩
  · have hp := hps p (by simp)
    exact ⟨p.carton, hp.carton,
      accepts_of_stageOf (sound_ofCarton _) (stageOf_ofCarton hp.built.sound) ha⟩
  · exact ⟨c, hc, ha⟩

theorem Run.accepted_alone (h : Run policy cs units ps) :
    ∀ i ∈ units, ∃ c ∈ cs, (ofCarton c).accepts i policy = .ok true := by
  induction h with
  | start => simp
  | place h hplaced ih =>
    intro i hi
    rcases List.mem_append.1 hi with hi | hi
    · exact ih i hi
    · rw [List.mem_singleton.1 hi]
      exact hplaced.accepted_alone h.inUse

theorem Run.not_refused (h : Run policy cs units ps) (hcs : sortCartons cartons = .ok cs) :
    ∀ i ∈ units, ¬ Refused policy cartons i := by
  intro i hi hrefused
  obtain ⟨c, hc, ha⟩ := h.accepted_alone i hi
  obtain ⟨hmem, hactive⟩ := (mem_of_sortCartons hcs).1 hc
  simp [hrefused c hmem hactive] at ha

end Packing

open Packing

variable {items : List Item} {cartons : List Carton} {policy : Policy} {supply : Supply}
  {whole : Prop}

/-- A calculation breaks off, or returns when no piece is refused, or names the first piece that
is. -/
theorem pack_cases (hitems : whole → ∀ i ∈ items, i.IsWhole)
    (hcartons : whole → ∀ c ∈ cartons, c.IsKnown) (policy : Policy) (supply : Supply) :
    (∃ f, (pack items cartons policy supply).1 = .error f ∧
        (f.IsSignal ∨ f.IsDefect ∧ ¬ whole)) ∨
      ∃ units, sortItems items = .ok units ∧
        ((∃ s, (pack items cartons policy supply).1 = .ok s ∧
            ∀ i ∈ units, ¬ Refused policy cartons i) ∨
          ∃ i, (pack items cartons policy supply).1 = .error (.domain (.infeasible i.sku)) ∧
            FirstRefused policy cartons units i) := by
  cases h : (pack items cartons policy supply).1 with
  | ok s =>
    obtain ⟨units, cs, hunits, hcs, hrun⟩ := run_of_pack h
    exact .inr ⟨units, hunits, .inl ⟨s, rfl, hrun.not_refused hcs⟩⟩
  | error f =>
    obtain hf | ⟨units, cs, hunits, hcs, hplace⟩ := pack_eq_error hitems hcartons h
    · exact .inl ⟨f, rfl, hf⟩
    obtain ⟨done, i, rest, ps, rfl, hrun, hi⟩ := placeAll_eq_error hplace
    have hknown (hwhole : whole) : ∀ c ∈ cs, c.IsKnown := fun c hc =>
      hcartons hwhole c ((mem_of_sortCartons hcs).1 hc).1
    have hpiece (hwhole : whole) : i.IsWhole :=
      isWhole_of_mem_sortItems (hitems hwhole) hunits i (by simp)
    obtain hf | ⟨rfl, hrefuse⟩ := place_eq_error hknown
      (fun hwhole p hp => hknown hwhole _ (hrun.inUse p hp).carton) hpiece hi
    · exact .inl ⟨f, rfl, hf⟩
    have hrefused : Refused policy cartons i := fun c hc hactive =>
      hrefuse c ((mem_of_sortCartons hcs).2 ⟨hc, hactive⟩)
    exact .inr ⟨_, hunits, .inr ⟨i, rfl, done, rest, rfl, hrefused, hrun.not_refused hcs⟩⟩

theorem pack_breaks_or (items : List Item) (cartons : List Carton) (policy : Policy)
    (supply : Supply) : (∃ f, (pack items cartons policy supply).1 = .error f ∧ f.IsBreak) ∨
      ∃ units, sortItems items = .ok units ∧
        ((∃ s, (pack items cartons policy supply).1 = .ok s ∧
            ∀ i ∈ units, ¬ Refused policy cartons i) ∨
          ∃ i, (pack items cartons policy supply).1 = .error (.domain (.infeasible i.sku)) ∧
            FirstRefused policy cartons units i) :=
  (pack_cases (fun h : False => h.elim) nofun policy supply).imp_left fun ⟨f, hf, hbreak⟩ =>
    ⟨f, hf, hbreak.imp_right And.left⟩

/-- No defect comes to light in a calculation on items and cartons that have none. -/
theorem pack_not_isDefect (hitems : ∀ i ∈ items, i.IsWhole) (hcartons : ∀ c ∈ cartons, c.IsKnown)
    {f : Failure} (h : (pack items cartons policy supply).1 = .error f) : ¬ f.IsDefect := by
  obtain ⟨g, hg, hbreak⟩ | ⟨_, -, ⟨s, hs, -⟩ | ⟨i, hi, -⟩⟩ :=
    pack_cases (fun _ : True => hitems) (fun _ => hcartons) policy supply
  · obtain rfl : f = g := Except.error.inj (h.symm.trans hg)
    exact (hbreak.resolve_right fun hdefect => hdefect.2 trivial).not_isDefect
  · nomatch h.symm.trans hs
  · obtain rfl : f = _ := Except.error.inj (h.symm.trans hi)
    exact id

/-- The outcome of a calculation that does not break off, in terms of the pieces in order. -/
theorem exists_units_of_clean
    (hclean : ∀ f, (pack items cartons policy supply).1 = .error f → ¬ f.IsSignal)
    (hdefects : ∀ f, (pack items cartons policy supply).1 = .error f → ¬ f.IsDefect) :
    ∃ units, sortItems items = .ok units ∧
      ((∃ s, (pack items cartons policy supply).1 = .ok s) ↔
        ∀ i ∈ units, ¬ Refused policy cartons i) ∧
      ∀ k, (pack items cartons policy supply).1 = .error (.domain (.infeasible k)) ↔
        ∃ i, FirstRefused policy cartons units i ∧ i.sku = k := by
  obtain ⟨f, hf, hbreak⟩ | ⟨units, hunits, ⟨s, hs, hnone⟩ | ⟨i, hi, hfirst⟩⟩ :=
    pack_breaks_or items cartons policy supply
  · exact (hbreak.elim (hclean f hf) (hdefects f hf)).elim
  · refine ⟨units, hunits, ⟨fun _ => hnone, fun _ => ⟨s, hs⟩⟩, fun k => ⟨fun h => ?_, ?_⟩⟩
    · simp [hs] at h
    · rintro ⟨j, hj, -⟩
      obtain ⟨_, _, -, hrefused, -⟩ := id hj
      exact absurd hrefused (hnone j hj.mem)
  · obtain ⟨_, _, -, hrefused, -⟩ := id hfirst
    refine ⟨units, hunits, ⟨?_, fun hnone => absurd hrefused (hnone i hfirst.mem)⟩, fun k => ?_⟩
    · rintro ⟨s, hs⟩
      simp [hi] at hs
    · constructor
      · intro h
        refine ⟨i, hfirst, ?_⟩
        simpa [hi] using h
      · rintro ⟨j, hj, rfl⟩
        rw [hi, hfirst.unique hj]

theorem pack_ne_constraint (items : List Item) (cartons : List Carton) (policy : Policy)
    (supply : Supply) (k : Json) :
    (pack items cartons policy supply).1 ≠ .error (.domain (.constraint k)) := by
  intro h
  obtain ⟨f, hf, hbreak⟩ | ⟨_, -, ⟨s, hs, -⟩ | ⟨i, hi, -⟩⟩ :=
    pack_breaks_or items cartons policy supply
  · obtain rfl : Failure.domain (.constraint k) = f := by simpa [h] using hf
    exact hbreak.elim id id
  · simp [h] at hs
  · simp [h] at hi

/-- **When a calculation is infeasible.** As long as nothing signals and no defect of an item or a
carton comes to light, which it cannot where they have none (`pack_not_isDefect`), it returns when
every single piece is accepted by a new package on some active carton, and otherwise names the first
piece that is not. Which open package is looked for makes no difference, and no item is ever added
to a package that does not accept it. -/
theorem pack_infeasible_iff
    (hclean : ∀ f, (pack items cartons policy supply).1 = .error f → ¬ f.IsSignal)
    (hdefects : ∀ f, (pack items cartons policy supply).1 = .error f → ¬ f.IsDefect) :
    (∃ units, sortItems items = .ok units ∧
      ((∃ s, (pack items cartons policy supply).1 = .ok s) ↔
        ∀ i ∈ units, ¬ Refused policy cartons i) ∧
      ∀ k, (pack items cartons policy supply).1 = .error (.domain (.infeasible k)) ↔
        ∃ i, FirstRefused policy cartons units i ∧ i.sku = k) ∧
    (∀ tightest supply', let policy' := { policy with tightest }
      (∀ f, (pack items cartons policy' supply').1 = .error f → ¬ f.IsSignal) →
      (∀ f, (pack items cartons policy' supply').1 = .error f → ¬ f.IsDefect) →
        ((∃ s, (pack items cartons policy supply).1 = .ok s) ↔
          ∃ s, (pack items cartons policy' supply').1 = .ok s) ∧
        ∀ k, (pack items cartons policy supply).1 = .error (.domain (.infeasible k)) ↔
          (pack items cartons policy' supply').1 = .error (.domain (.infeasible k))) ∧
    ∀ k, (pack items cartons policy supply).1 ≠ .error (.domain (.constraint k)) := by
  obtain ⟨units, hunits, hok, hinfeasible⟩ := exists_units_of_clean hclean hdefects
  refine ⟨⟨units, hunits, hok, hinfeasible⟩, fun tightest supply' hclean' hdefects' => ?_,
    pack_ne_constraint items cartons policy supply⟩
  obtain ⟨units', hunits', hok', hinfeasible'⟩ := exists_units_of_clean hclean' hdefects'
  cases hunits.symm.trans hunits'
  exact ⟨hok.trans hok'.symm, fun k => (hinfeasible k).trans (hinfeasible' k).symm⟩

/-- Two bricks are feasible, whichever crate is looked for. -/
theorem pack_infeasible_iff_bricks :
    (∀ f, (pack [bricks] [crate] .usual .start).1 = .error f → ¬ f.IsSignal) ∧
      (∀ f, (pack [bricks] [crate] .usual .start).1 = .error f → ¬ f.IsDefect) ∧
      ∀ k, (pack [bricks] [crate] .usual .start).1 ≠ .error (.domain (.constraint k)) := by
  have hclean : ∀ f, (pack [bricks] [crate] .usual .start).1 = .error f → ¬ f.IsSignal := by
    simp [pack_bricks]
  have hdefects : ∀ f, (pack [bricks] [crate] .usual .start).1 = .error f → ¬ f.IsDefect := by
    simp [pack_bricks]
  exact ⟨hclean, hdefects, (pack_infeasible_iff hclean hdefects).2.2⟩

end Stowage
