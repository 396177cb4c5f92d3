import Stowage.Proofs.Measure.Fit
import Stowage.Proofs.Packing.Order
import Stowage.Proofs.Packing.Step
import Stowage.Proofs.Package.Built
import Stowage.Solution.Basic

/-!
# Runs

A run places items one after the other (`Run`), and every calculation that returns is one
(`run_of_pack`). Along a run the packages are built under the policy on the given cartons
(`Run.built`), and they hold the items that were placed and nothing else (`Run.contents`).
-/

namespace Stowage

namespace Packing

open Package

/-- The packages after items have been placed one after the other. -/
inductive Run (policy : Policy) (cartons : List Carton) : List Item → List Package → Prop
  | start : Run policy cartons [] []
  | place {items : List Item} {i : Item} {ps ps' : List Package} (h : Run policy cartons items ps)
      (hplaced : Placed policy cartons i ps ps') : Run policy cartons (items ++ [i]) ps'

variable {policy : Policy} {cartons : List Carton} {items : List Item} {i : Item}
  {ps ps' : List Package} {f : Failure}

theorem placeAll_eq_ok_iff :
    placeAll policy cartons items = .ok ps ↔ Run policy cartons items ps := by
  constructor
  · intro h
    induction items using List.reverseRecOn generalizing ps with
    | nil =>
      cases h
      exact .start
    | append_singleton items i ih =>
      obtain ⟨qs, hqs, hplace⟩ := foldlM_concat_eq_ok.1 h
      exact .place (ih hqs) (place_eq_ok_iff.1 hplace)
  · intro h
    induction h with
    | start => rfl
    | place _ hplaced ih => exact foldlM_concat_eq_ok.2 ⟨_, ih, place_eq_ok_iff.2 hplaced⟩

/-- Placing items fails at some item, after a run that placed those before it. -/
theorem placeAll_eq_error (h : placeAll policy cartons items = .error f) :
    ∃ done i rest ps, items = done ++ i :: rest ∧ Run policy cartons done ps ∧
      place policy cartons ps i = .error f := by
  obtain ⟨done, i, rest, ps, hitems, hdone, hi⟩ := foldlM_eq_error h
  exact ⟨done, i, rest, ps, hitems, placeAll_eq_ok_iff.1 hdone, hi⟩

/-- Two policies place items alike when they do at every item of a run under one of them. -/
theorem placeAll_congr {policy' : Policy}
    (h : ∀ done i rest ps, items = done ++ i :: rest → Run policy cartons done ps →
      place policy' cartons ps i = place policy cartons ps i) :
    placeAll policy' cartons items = placeAll policy cartons items := by
  induction items using List.reverseRecOn with
  | nil => rfl
  | append_singleton items i ih =>
    have hbefore : placeAll policy' cartons items = placeAll policy cartons items :=
      ih fun done j rest ps hitems => h done j (rest ++ [i]) ps (by simp [hitems])
    rw [placeAll] at hbefore ⊢
    rw [placeAll] at hbefore ⊢
    rw [List.foldlM_append, List.foldlM_append, hbefore]
    cases hps : items.foldlM (place policy cartons) [] with
    | error f => rfl
    | ok ps =>
      have hlast := h items i [] ps rfl (placeAll_eq_ok_iff.1 hps)
      simp only [ok_bind, List.foldlM_cons, List.foldlM_nil, hlast]

/-! ## What a step does to the packages -/

/-- A step adds the item to one package, an open one or a new one. -/
theorem Placed.exists_add (h : Placed policy cartons i ps ps') :
    ∃ before p q after, ps' = before ++ q :: after ∧ p.add i policy = .ok q ∧
      (ps = before ++ p :: after ∨
        ps = before ∧ after = [] ∧ ∃ c ∈ cartons, p = ofCarton c) := by
  cases h with
  | inserted hchoose hadd => exact ⟨_, _, _, _, rfl, hadd, .inl rfl⟩
  | opened hchoose hopen hadd =>
    obtain ⟨before, c, after, rfl, hp, -⟩ := openPackage_eq_ok hopen
    exact ⟨_, _, _, [], rfl, hadd, .inr ⟨rfl, rfl, c, by simp, hp⟩⟩

/-- A package in use: built under the policy, on one of the cartons, and not empty. -/
structure InUse (policy : Policy) (cartons : List Carton) (p : Package) : Prop where
  built : Built (· = policy) p
  nonempty : p.items ≠ []
  carton : p.carton ∈ cartons

theorem InUse.built_inRange {p : Package} (h : InUse policy cartons p) (hpolicy : policy.InRange) :
    Built Policy.InRange p := by
  refine h.built.mono ?_
  rintro _ rfl
  exact hpolicy

theorem Placed.inUse (h : Placed policy cartons i ps ps')
    (hps : ∀ p ∈ ps, InUse policy cartons p) : ∀ p ∈ ps', InUse policy cartons p := by
  obtain ⟨before, p, q, after, rfl, hadd, hold⟩ := h.exists_add
  have hp : Built (· = policy) p ∧ p.carton ∈ cartons := by
    rcases hold with rfl | ⟨-, -, c, hc, rfl⟩
    · have hp := hps p (by simp)
      exact ⟨hp.built, hp.carton⟩
    · exact ⟨.ofCarton c, hc⟩
  have hq : InUse policy cartons q :=
    ⟨.add hp.1 rfl hadd, by simp [items_of_add hadd], carton_of_add hadd ▸ hp.2⟩
  intro r hr
  rcases List.mem_append.1 hr with hr | hr
  · refine hps r ?_
    rcases hold with rfl | ⟨rfl, -, -⟩
    · exact List.mem_append_left _ hr
    · exact hr
  · rcases List.mem_cons.1 hr with rfl | hr
    · exact hq
    · rcases hold with rfl | ⟨-, rfl, -⟩
      · exact hps r (by simp [hr])
      · simp at hr

/-- The contents of the packages after a step are those before it and the item. -/
theorem Placed.contents (h : Placed policy cartons i ps ps') :
    (ps'.flatMap (·.items)).Perm (ps.flatMap (·.items) ++ [i]) := by
  obtain ⟨before, p, q, after, rfl, hadd, hold⟩ := h.exists_add
  have hq := items_of_add hadd
  rcases hold with rfl | ⟨rfl, rfl, c, -, rfl⟩
  · simp only [List.flatMap_append, List.flatMap_cons, hq, List.append_assoc]
    exact (List.perm_append_comm.append_left _).append_left _
  · simp [hq, ofCarton]

/-! ## Along a run -/

theorem Run.inUse (h : Run policy cartons items ps) : ∀ p ∈ ps, InUse policy cartons p := by
  induction h with
  | start => simp
  | place _ hplaced ih => exact hplaced.inUse ih

/-- **A run neither loses nor adds an item.** -/
theorem Run.contents (h : Run policy cartons items ps) : (ps.flatMap (·.items)).Perm items := by
  induction h with
  | start => exact .nil
  | place _ hplaced ih => exact hplaced.contents.trans (ih.append_right _)

/-- A run opens at most one package for each item. -/
theorem Run.length_le (h : Run policy cartons items ps) : ps.length ≤ items.length := by
  induction h with
  | start => simp
  | place h hplaced ih =>
    obtain ⟨before, p, q, after, rfl, -, hold⟩ := hplaced.exists_add
    rcases hold with rfl | ⟨rfl, rfl, -⟩ <;>
      simp only [List.length_append, List.length_cons, List.length_nil] at ih ⊢ <;> omega

end Packing

/-! ## Calculations -/

open Packing

variable {items : List Item} {cartons : List Carton} {policy : Policy} {supply : Supply}
  {whole : Prop}

theorem Solution.signals_averageUtilization {s : Solution}
    (h : whole → ∀ p ∈ s.packages, p.carton.IsKnown) : Signals whole s.averageUtilization := by
  have hsum : ∀ sum : Decimal, ∀ p ∈ s.packages, Signals whole (do
      let u ← p.utilization
      Fallible.ofDecimal (sum.add u)) := fun _ p hp =>
    (Package.signals_utilization fun hwhole => h hwhole p hp).bind fun _ => .ofDecimal _
  exact .ite (.ok _) ((Signals.foldlM hsum _).bind fun _ => .ofDecimal _)

theorem packages_eq_ok_iff {ps : List Package} : packages items cartons policy = .ok ps ↔
    ∃ units cs, sortItems items = .ok units ∧ sortCartons cartons = .ok cs ∧
      Run policy cs units ps := by
  simp only [packages, bind_eq_ok, placeAll_eq_ok_iff]
  tauto

/-- A piece and a carton that takes it make one package. -/
theorem packages_singleton {i : Item} {c : Carton} {q : Package} {v w : Decimal}
    (hunits : allUnits [i] = .ok [i]) (hitem : i.sortVolume = .ok v) (hactive : c.isActive = true)
    (hcarton : cartonVolume c = .ok w) (hfit : c.canFit i.dimensions i.weight = .ok true)
    (hadd : (Package.ofCarton c).add i policy = .ok q) : packages [i] [c] policy = .ok [q] :=
  have hchoose : choose policy i [] = .ok none := choose_eq_none_iff.2 (by simp)
  packages_eq_ok_iff.2 ⟨_, _, sortItems_singleton hunits hitem,
    sortCartons_singleton hactive hcarton,
    .place .start (.opened hchoose (openPackage_cons hfit hadd) hadd)⟩

theorem pack_eq_ok_iff {s : Solution} : (pack items cartons policy supply).1 = .ok s ↔
    ∃ ps mean, packages items cartons policy = .ok ps ∧ s = (Solution.create ps none supply).1 ∧
      s.averageUtilization = .ok mean := by
  unfold pack
  cases hps : packages items cartons policy with
  | error f => simp
  | ok ps =>
    constructor
    · intro h
      cases hmean : (Solution.create ps none supply).1.averageUtilization with
      | error f => simp [hmean, Except.map] at h
      | ok mean =>
        obtain rfl : (Solution.create ps none supply).1 = s := by
          simpa [hmean, Except.map] using h
        exact ⟨ps, mean, rfl, rfl, hmean⟩
    · rintro ⟨_, mean, ⟨⟩, rfl, hmean⟩
      simp [hmean, Except.map]

/-- **A calculation that returns is a run** over the sorted items and cartons. -/
theorem run_of_pack {s : Solution} (h : (pack items cartons policy supply).1 = .ok s) :
    ∃ units cs, sortItems items = .ok units ∧ sortCartons cartons = .ok cs ∧
      Run policy cs units s.packages := by
  obtain ⟨ps, mean, hps, rfl, -⟩ := pack_eq_ok_iff.1 h
  exact packages_eq_ok_iff.1 hps

/-- A calculation breaks off, or fails because some item cannot be placed. -/
theorem pack_eq_error {f : Failure} (hitems : whole → ∀ i ∈ items, i.IsWhole)
    (hcartons : whole → ∀ c ∈ cartons, c.IsKnown)
    (h : (pack items cartons policy supply).1 = .error f) :
    (f.IsSignal ∨ f.IsDefect ∧ ¬ whole) ∨ ∃ units cs, sortItems items = .ok units ∧
      sortCartons cartons = .ok cs ∧ placeAll policy cs units = .error f := by
  unfold pack at h
  split at h
  · rename_i g hg
    cases h
    obtain hg | ⟨units, hunits, hg⟩ := bind_eq_error.1 hg
    · exact .inl (signals_sortItems hitems f hg)
    obtain hg | ⟨cs, hcs, hg⟩ := bind_eq_error.1 hg
    · exact .inl (signals_sortCartons hcartons f hg)
    exact .inr ⟨units, cs, hunits, hcs, hg⟩
  · rename_i ps hps
    left
    cases hmean : (Solution.create ps none supply).1.averageUtilization with
    | ok => simp [hmean, Except.map] at h
    | error g =>
      obtain rfl : g = f := by simpa [hmean, Except.map] using h
      obtain ⟨units, cs, -, hcs, hrun⟩ := packages_eq_ok_iff.1 hps
      have hknown (hwhole : whole) : ∀ p ∈ ps, p.carton.IsKnown := fun p hp =>
        hcartons hwhole _ ((mem_of_sortCartons hcs).1 (hrun.inUse p hp).carton).1
      exact Solution.signals_averageUtilization hknown _ hmean

/-! ## Two bricks

A small request, for later: two bricks, of which a crate takes one. -/

/-- A crate of eight cubic inches. -/
def crate : Carton :=
  let side : Amount := ⟨⟨false, 2, 0⟩, Eq.refl true⟩
  Carton.restore "CRATE" (.text "Crate") (.known ⟨side, side, side, .inches⟩)
    (.known ⟨⟨⟨false, 50, 0⟩, Eq.refl true⟩, .pounds⟩) .active .epoch .epoch

/-- A brick that takes up three quarters of a crate. -/
def brick : Item :=
  let side : Amount := ⟨⟨false, 2, 0⟩, Eq.refl true⟩
  { sku := .text "BRICK"
    quantity := .int 1
    dimensions := .known ⟨⟨⟨false, 15, -1⟩, Eq.refl true⟩, side, side, .inches⟩
    weight := .known ⟨⟨⟨false, 3, 0⟩, Eq.refl true⟩, .pounds⟩
    category := .text "bricks"
    fragile := false }

/-- Two bricks. -/
def bricks : Item := { brick with quantity := .int 2 }

/-- A crate with a brick in it. -/
def crateOfBrick : Package :=
  { carton := crate
    items := [brick]
    currentWeight := ⟨false, 3, 0⟩
    usedVolume := ⟨false, 600, -2⟩ }

-- so that roundings of given decimals can be computed
attribute [local semireducible] digitCount

theorem brick_fits : crate.canFit brick.dimensions brick.weight = .ok true :=
  Carton.canFit_of_pairwise ⟨rfl, rfl⟩ (by decide) (by decide) (by decide) (by decide) (by decide)

theorem crate_accepts : (Package.ofCarton crate).accepts brick .usual = .ok true :=
  bind_eq_ok_of_toOption brick_fits (by decide)

theorem add_brick : (Package.ofCarton crate).add brick .usual = .ok crateOfBrick :=
  Package.add_eq_ok_iff.2 ⟨crate_accepts, _, _, eq_ok_of_toOption (by decide),
    eq_ok_of_toOption (by decide), rfl⟩

theorem crateOfBrick_refuses : crateOfBrick.accepts brick .usual = .ok false :=
  bind_eq_ok_of_toOption brick_fits (by decide)

theorem sortItems_bricks : sortItems [bricks] = .ok [brick, brick] := by
  have hv : brick.sortVolume = .ok ⟨false, 9832, -2⟩ := eq_ok_of_toOption (by decide)
  have hkeyed : keyed Item.sortVolume [brick, brick] =
      .ok [(⟨false, 9832, -2⟩, brick), (⟨false, 9832, -2⟩, brick)] := by
    simp [keyed, hv]
  exact sortItems_of_pairwise rfl hkeyed (by simp; decide)

theorem sortCartons_crate : sortCartons [crate] = .ok [crate] := by
  have hv : cartonVolume crate = .ok ⟨false, 13110, -2⟩ := eq_ok_of_toOption (by decide)
  exact sortCartons_singleton rfl hv

theorem run_bricks : Run .usual [crate] [brick, brick] [crateOfBrick, crateOfBrick] := by
  have hopen : openPackage .usual brick [crate] = .ok (Package.ofCarton crate) :=
    openPackage_cons brick_fits add_brick
  have hfirst : Run .usual [crate] [brick] [crateOfBrick] :=
    .place .start (.opened rfl hopen add_brick)
  have hrefuse : choose .usual brick [crateOfBrick] = .ok none :=
    choose_eq_none_iff.2 (by simpa using crateOfBrick_refuses)
  exact .place hfirst (.opened hrefuse hopen add_brick)

theorem pack_bricks : (pack [bricks] [crate] .usual .start).1 =
    .ok (Solution.create [crateOfBrick, crateOfBrick] none .start).1 := by
  have hmean : (Solution.create [crateOfBrick, crateOfBrick] none .start).1.averageUtilization =
      .ok ⟨false, 7500, -4⟩ := eq_ok_of_toOption (by decide)
  have hpackages := packages_eq_ok_iff.2 ⟨_, _, sortItems_bricks, sortCartons_crate, run_bricks⟩
  exact pack_eq_ok_iff.2 ⟨_, _, hpackages, rfl, hmean⟩

/-! ## A brick and a kerbstone

Two different pieces, for chests that are weighed in kilograms. Each needs a chest of its own. -/

/-- A chest of the size of a crate that carries kilograms. -/
def chest : Carton :=
  { crate with
    id := "CHEST"
    name := .text "Chest"
    maxWeight := .known ⟨⟨⟨false, 20, 0⟩, Eq.refl true⟩, .kilograms⟩ }

/-- A kerbstone that takes up half of a chest and a little more. -/
def kerb : Item :=
  let side : Amount := ⟨⟨false, 2, 0⟩, Eq.refl true⟩
  { brick with
    sku := .text "KERB"
    dimensions := .known ⟨⟨⟨false, 10025, -4⟩, Eq.refl true⟩, side, side, .inches⟩
    weight := .known ⟨⟨⟨false, 2, 0⟩, Eq.refl true⟩, .kilograms⟩ }

/-- A chest with a brick in it. -/
def chestOfBrick : Package := ⟨chest, [brick], ⟨false, 1360776, -6⟩, ⟨false, 600, -2⟩⟩

/-- A chest with a kerbstone in it. -/
def chestOfKerb : Package := ⟨chest, [kerb], ⟨false, 2, 0⟩, ⟨false, 401, -2⟩⟩

theorem brick_fits_chest : chest.canFit brick.dimensions brick.weight = .ok true :=
  Carton.canFit_of_not_heavier ⟨rfl, rfl⟩ (eq_ok_of_toOption (by decide)) (by decide) (by decide)
    (by decide) (by decide)

theorem kerb_fits_chest : chest.canFit kerb.dimensions kerb.weight = .ok true :=
  Carton.canFit_of_pairwise ⟨rfl, rfl⟩ (by decide) (by decide) (by decide) (by decide) (by decide)

theorem add_brick_chest : (Package.ofCarton chest).add brick .usual = .ok chestOfBrick :=
  Package.add_eq_ok_iff.2 ⟨bind_eq_ok_of_toOption brick_fits_chest (by decide), _, _,
    eq_ok_of_toOption (by decide), eq_ok_of_toOption (by decide), rfl⟩

theorem add_kerb_chest : (Package.ofCarton chest).add kerb .usual = .ok chestOfKerb :=
  Package.add_eq_ok_iff.2 ⟨bind_eq_ok_of_toOption kerb_fits_chest (by decide), _, _,
    eq_ok_of_toOption (by decide), eq_ok_of_toOption (by decide), rfl⟩

theorem chestOfBrick_refuses : chestOfBrick.accepts kerb .usual = .ok false :=
  bind_eq_ok_of_toOption kerb_fits_chest (by decide)

theorem run_brick_and_kerb :
    Run .usual [chest] [brick, kerb] [chestOfBrick, chestOfKerb] := by
  have hfirst : Run .usual [chest] [brick] [chestOfBrick] :=
    .place .start (.opened rfl (openPackage_cons brick_fits_chest add_brick_chest) add_brick_chest)
  have hrefuse : choose .usual kerb [chestOfBrick] = .ok none :=
    choose_eq_none_iff.2 (by simpa using chestOfBrick_refuses)
  exact .place hfirst
    (.opened hrefuse (openPackage_cons kerb_fits_chest add_kerb_chest) add_kerb_chest)

theorem pack_brick_and_kerb : (pack [brick, kerb] [chest] .usual .start).1 =
    .ok (Solution.create [chestOfBrick, chestOfKerb] none .start).1 := by
  have hbrick : brick.sortVolume = .ok ⟨false, 9832, -2⟩ := eq_ok_of_toOption (by decide)
  have hkerb : kerb.sortVolume = .ok ⟨false, 6571, -2⟩ := eq_ok_of_toOption (by decide)
  have hkeyed : keyed Item.sortVolume [brick, kerb] =
      .ok [(⟨false, 9832, -2⟩, brick), (⟨false, 6571, -2⟩, kerb)] := by
    simp [keyed, hbrick, hkerb]
  have hitems : sortItems [brick, kerb] = .ok [brick, kerb] :=
    sortItems_of_pairwise rfl hkeyed (by simp; decide)
  have hchest : cartonVolume chest = .ok ⟨false, 13110, -2⟩ := eq_ok_of_toOption (by decide)
  have hpackages := packages_eq_ok_iff.2
    ⟨_, _, hitems, sortCartons_singleton rfl hchest, run_brick_and_kerb⟩
  have hmean : (Solution.create [chestOfBrick, chestOfKerb] none .start).1.averageUtilization =
      .ok ⟨false, 6257, -4⟩ := eq_ok_of_toOption (by decide)
  exact pack_eq_ok_iff.2 ⟨_, _, hpackages, rfl, hmean⟩

end Stowage
