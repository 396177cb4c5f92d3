import Stowage.Proofs.Packing.Run
import Stowage.Proofs.Package.Refusal

/-!
# What older packages decline

A package is opened for an item that all older packages refuse, and they keep declining it for the
rest of the calculation (`pack_later_declined`). So the contents of a package never fit into an
older one as a whole. Without the search for the tightest fit, an older package declines everything
in a later one.
-/

namespace Stowage

namespace Packing

open Package

variable {policy : Policy} {cs : List Carton} {units : List Item} {i u : Item}
  {ps ps' before after : List Package} {p q b : Package}

/-- A stage of the package refused an item. -/
def Rejected (policy : Policy) (p : Package) (u : Item) : Prop :=
  ∃ p₀ : Package, p₀.Sound ∧ p₀.StageOf p ∧ p₀.accepts u policy = .ok false

theorem Rejected.of_stageOf (h : Rejected policy p u) (hpq : p.StageOf q) :
    Rejected policy q u := by
  obtain ⟨p₀, hsound, hstage, hrefuse⟩ := h
  exact ⟨p₀, hsound, hstage.trans hpq, hrefuse⟩

/-- Of two packages the first is older: it rejected the item for which the second was opened, and,
unless the tightest fit is looked for, everything in it. -/
def Older (policy : Policy) (p q : Package) : Prop :=
  ∀ u ∈ q.items, q.items.head? = some u ∨ policy.tightest = false → Rejected policy p u

theorem Older.of_stageOf (h : Older policy p b) (hpq : p.StageOf q) : Older policy q b :=
  fun u hu hfirst => (h u hu hfirst).of_stageOf hpq

/-- An older package stays older when the later one gets an item it need not take. -/
theorem Older.concat (h : Older policy b p) (hne : p.items ≠ []) (hq : q.items = p.items ++ [i])
    (hi : policy.tightest = false → Rejected policy b i) : Older policy b q := by
  obtain ⟨x, xs, hp⟩ := List.exists_cons_of_ne_nil hne
  intro u hu hfirst
  rw [hq] at hu hfirst
  rcases hfirst with hhead | htightest
  · have hhead' : p.items.head? = some u := by simpa [hp] using hhead
    exact h u (List.mem_of_head? hhead') (.inl hhead')
  · rcases List.mem_append.1 hu with hu | hu
    · exact h u hu (.inr htightest)
    · rw [List.mem_singleton.1 hu]
      exact hi htightest

/-- **A step keeps older packages older.** -/
theorem Placed.pairwise_older (h : Placed policy cs i ps ps') (hps : ∀ p ∈ ps, InUse policy cs p)
    (hold : ps.Pairwise (Older policy)) : ps'.Pairwise (Older policy) := by
  cases h with
  | @inserted before after p q hchoose hadd =>
    have hp := hps p (by simp)
    have hstage := stageOf_of_add hp.built.sound hadd
    rw [List.pairwise_append, List.pairwise_cons] at hold ⊢
    obtain ⟨hbefore, ⟨hafter, hrest⟩, hacross⟩ := hold
    refine ⟨hbefore, ⟨fun a ha => (hafter a ha).of_stageOf hstage, hrest⟩, fun b hb x hx => ?_⟩
    rcases List.mem_cons.1 hx with rfl | hx
    · refine (hacross b hb p List.mem_cons_self).concat hp.nonempty (items_of_add hadd)
        fun hoff => ?_
      obtain ⟨-, hrefuse⟩ | ⟨hon, -⟩ := cases_of_choose hchoose
      · exact ⟨b, (hps b (by simp [hb])).built.sound, .refl b, hrefuse b hb⟩
      · simp [hoff] at hon
    · exact hacross b hb x (List.mem_cons_of_mem _ hx)
  | @opened _ c q hchoose hopen hadd =>
    have hitems : q.items = [i] := items_of_add hadd
    refine List.pairwise_append.2 ⟨hold, List.pairwise_singleton _ _, fun b hb x hx => ?_⟩
    rw [List.mem_singleton.1 hx]
    intro u hu _
    rw [hitems, List.mem_singleton] at hu
    rw [hu]
    exact ⟨b, (hps b hb).built.sound, .refl b, choose_eq_none_iff.1 hchoose b hb⟩

theorem Run.pairwise_older (h : Run policy cs units ps) : ps.Pairwise (Older policy) := by
  induction h with
  | start => exact .nil
  | place h hplaced ih => exact hplaced.pairwise_older h.inUse ih

/-- Whatever is added to a package was accepted by it from the start. -/
theorem accepts_of_foldlM_add {order : List Item} {r : Package} (hp : p.Sound)
    (h : order.foldlM (fun p i => p.add i policy) p = .ok r) :
    ∀ u ∈ order, p.accepts u policy = .ok true := by
  induction order generalizing p with
  | nil => simp
  | cons i order ih =>
    rw [List.foldlM_cons] at h
    obtain ⟨q, hq, h⟩ := bind_eq_ok.1 h
    refine List.forall_mem_cons.2 ⟨(add_eq_ok_iff.1 hq).1, fun u hu => ?_⟩
    exact accepts_of_stageOf hp (stageOf_of_add hp hq) (ih (hp.of_add hq) h u hu)

end Packing

open Packing

variable {items : List Item} {cartons : List Carton} {policy : Policy} {supply : Supply}
  {s : Solution}

/-- **An older package declines what a later one was opened for**, and so the contents of the later
one cannot be added to it in any order. Without the search for the tightest fit it declines
everything in the later one. -/
theorem pack_later_declined (hrange : policy.InRange)
    (h : (pack items cartons policy supply).1 = .ok s) :
    s.packages.Pairwise fun p q =>
      (∀ u ∈ q.items, q.items.head? = some u ∨ policy.tightest = false → p.Declines u policy) ∧
        ∀ (order : List Item) (r : Package), order.Perm q.items →
          order.foldlM (fun p i => p.add i policy) p ≠ .ok r := by
  obtain ⟨units, cs, -, -, hrun⟩ := run_of_pack h
  refine hrun.pairwise_older.imp_of_mem fun {p q} hp hq hold => ?_
  have hbuilt := (hrun.inUse p hp).built_inRange hrange
  have hdeclines : ∀ u ∈ q.items, q.items.head? = some u ∨ policy.tightest = false →
      p.Declines u policy := by
    intro u hu hfirst
    obtain ⟨p₀, hsound, hstage, hrefuse⟩ := hold u hu hfirst
    exact Package.declines_of_stageOf hsound hbuilt hstage hrange hrefuse
  refine ⟨hdeclines, fun order r hperm hr => ?_⟩
  obtain ⟨u, us, hitems⟩ := List.exists_cons_of_ne_nil (hrun.inUse q hq).nonempty
  have hu : u ∈ q.items := by simp [hitems]
  exact (hdeclines u hu (.inl (by simp [hitems]))).not_accepts
    (accepts_of_foldlM_add hbuilt.sound hr u (hperm.mem_iff.2 hu))

/-- A crate with a brick in it declines the brick for which the other crate was opened. -/
theorem pack_later_declined_bricks :
    Policy.usual.InRange ∧ crateOfBrick.Declines brick .usual :=
  have h := pack_later_declined Policy.usual_inRange pack_bricks
  ⟨Policy.usual_inRange, (List.pairwise_pair.1 h).1 brick List.mem_cons_self (.inl rfl)⟩

/-! ## Weights at the limit

Three cubes whose weights are among the largest decimals. The last of them goes into the first
press, whose weight can no longer be added to that of the second cube. -/

/-- The largest power of ten that a decimal may have in front, taken several times. -/
def heavy (n : ℕ) : Decimal := ⟨false, n, 999999⟩

/-- A press of ten centimetres each way that carries six times that power. -/
def press : Carton :=
  let side : Amount := ⟨⟨false, 10, 0⟩, Eq.refl true⟩
  Carton.restore "PRESS" (.text "Press") (.known ⟨side, side, side, .centimeters⟩)
    (.known ⟨⟨heavy 6, Eq.refl true⟩, .pounds⟩) .active .epoch .epoch

/-- A heavy cube. -/
def heavyCube (sku : String) (side weight : Amount) : Item :=
  { sku := .text sku
    quantity := .int 1
    dimensions := .known ⟨side, side, side, .centimeters⟩
    weight := .known ⟨weight, .pounds⟩
    category := unknownCategory
    fragile := false }

def slab : Item := heavyCube "SLAB" ⟨⟨false, 4, 0⟩, Eq.refl true⟩ ⟨heavy 3, Eq.refl true⟩

def block : Item := heavyCube "BLOCK" ⟨⟨false, 3, 0⟩, Eq.refl true⟩ ⟨heavy 5, Eq.refl true⟩

def chip : Item := heavyCube "CHIP" ⟨⟨false, 2, 0⟩, Eq.refl true⟩ ⟨heavy 3, Eq.refl true⟩

/-- The usual policy without the search for the tightest fit. -/
def firstFit : Policy := { Policy.usual with tightest := false }

/-- A press with cubes in it. -/
def pressOf (items : List Item) (weight : ℕ) (volume : ℕ) : Package :=
  { carton := press
    items := items
    currentWeight := ⟨false, weight * 10 ^ 27, 999972⟩
    usedVolume := ⟨false, volume, -2⟩ }

-- so that roundings of given decimals can be computed
attribute [local semireducible] digitCount

theorem heavyCube_fits (sku : String) {side weight : Amount}
    (hside : side.value.le ⟨false, 10, 0⟩ = true) (hweight : (heavy 6).lt weight.value = false) :
    press.canFit (heavyCube sku side weight).dimensions (heavyCube sku side weight).weight =
      .ok true := by
  have hself : side.value.le side.value = true := (Decimal.le_iff _ _).2 le_rfl
  exact Carton.canFit_of_pairwise ⟨rfl, rfl⟩ ⟨rfl, rfl⟩ hweight (by decide) (by simp [hself])
    (by simp [Dimensions.fitsWithin, hside])

theorem slab_fits : press.canFit slab.dimensions slab.weight = .ok true :=
  heavyCube_fits "SLAB" (by decide) (by decide)

theorem block_fits : press.canFit block.dimensions block.weight = .ok true :=
  heavyCube_fits "BLOCK" (by decide) (by decide)

theorem chip_fits : press.canFit chip.dimensions chip.weight = .ok true :=
  heavyCube_fits "CHIP" (by decide) (by decide)

theorem add_slab : (Package.ofCarton press).add slab firstFit = .ok (pressOf [slab] 3 6400) := by
  have haccepts : (Package.ofCarton press).accepts slab firstFit = .ok true :=
    bind_eq_ok_of_toOption slab_fits (by decide)
  exact Package.add_eq_ok_iff.2 ⟨haccepts, _, _, eq_ok_of_toOption (by decide),
    eq_ok_of_toOption (by decide), rfl⟩

theorem add_block : (Package.ofCarton press).add block firstFit = .ok (pressOf [block] 5 2700) := by
  have haccepts : (Package.ofCarton press).accepts block firstFit = .ok true :=
    bind_eq_ok_of_toOption block_fits (by decide)
  exact Package.add_eq_ok_iff.2 ⟨haccepts, _, _, eq_ok_of_toOption (by decide),
    eq_ok_of_toOption (by decide), rfl⟩

theorem slab_refuses_block : (pressOf [slab] 3 6400).accepts block firstFit = .ok false :=
  bind_eq_ok_of_toOption block_fits (by decide)

theorem add_chip :
    (pressOf [slab] 3 6400).add chip firstFit = .ok (pressOf [slab, chip] 6 7200) := by
  have haccepts : (pressOf [slab] 3 6400).accepts chip firstFit = .ok true :=
    bind_eq_ok_of_toOption chip_fits (by decide)
  exact Package.add_eq_ok_iff.2 ⟨haccepts, _, _, eq_ok_of_toOption (by decide),
    eq_ok_of_toOption (by decide), rfl⟩

theorem slab_and_chip_overflow : (pressOf [slab, chip] 6 7200).accepts block firstFit =
    .error (.arithmetic .overflow) := by
  have hfits : (pressOf [slab, chip] 6 7200).carton.canFit _ _ = .ok true := block_fits
  have hsum : (pressOf [slab, chip] 6 7200).currentWeight.add (heavy 5) = .error .overflow := by
    decide
  have hblock : (pressOf [slab, chip] 6 7200).itemWeight block = .ok (heavy 5) := rfl
  have hweight :
      (pressOf [slab, chip] 6 7200).weightWith block = .error (.arithmetic .overflow) := by
    rw [Package.weightWith, hblock, ok_bind, hsum]
    rfl
  simp [Package.accepts, hfits, hweight]

theorem run_heavy : Run firstFit [press] [slab, block, chip]
    [pressOf [slab, chip] 6 7200, pressOf [block] 5 2700] := by
  have hslab : Run firstFit [press] [slab] [pressOf [slab] 3 6400] :=
    .place .start (.opened rfl (openPackage_cons slab_fits add_slab) add_slab)
  have hblock :
      Run firstFit [press] [slab, block] [pressOf [slab] 3 6400, pressOf [block] 5 2700] := by
    have hrefuse : choose firstFit block [pressOf [slab] 3 6400] = .ok none :=
      choose_eq_none_iff.2 (by simpa using slab_refuses_block)
    exact .place hslab (.opened hrefuse (openPackage_cons block_fits add_block) add_block)
  have haccepts := (Package.add_eq_ok_iff.1 add_chip).1
  have hfirst : firstFit.tightest = false := rfl
  have hchoose : choose firstFit chip [pressOf [slab] 3 6400, pressOf [block] 5 2700] =
      .ok (some 0) := by
    simp [choose, hfirst, firstAccepting, haccepts]
  exact .place hblock (@Placed.inserted _ _ _ [] _ _ _ hchoose add_chip)

theorem sortItems_heavy : sortItems [slab, block, chip] = .ok [slab, block, chip] := by
  have hslab : slab.sortVolume = .ok ⟨false, 6400, -2⟩ := eq_ok_of_toOption (by decide)
  have hblock : block.sortVolume = .ok ⟨false, 2700, -2⟩ := eq_ok_of_toOption (by decide)
  have hchip : chip.sortVolume = .ok ⟨false, 800, -2⟩ := eq_ok_of_toOption (by decide)
  have hkeyed : keyed Item.sortVolume [slab, block, chip] = .ok [(⟨false, 6400, -2⟩, slab),
      (⟨false, 2700, -2⟩, block), (⟨false, 800, -2⟩, chip)] := by
    simp [keyed, hslab, hblock, hchip]
  exact sortItems_of_pairwise rfl hkeyed (by simp; decide)

theorem sortCartons_press : sortCartons [press] = .ok [press] := by
  have hv : cartonVolume press = .ok ⟨false, 100000, -2⟩ := eq_ok_of_toOption (by decide)
  exact sortCartons_singleton rfl hv

/-- **A package may fail to decline.** The first press does not refuse the block for which the
second was opened: the sum of their weights overflows. -/
theorem press_overflows : firstFit.InRange ∧ (pack [slab, block, chip] [press] firstFit .start).1 =
      .ok (Solution.create [pressOf [slab, chip] 6 7200, pressOf [block] 5 2700] none .start).1 ∧
    ¬ [pressOf [slab, chip] 6 7200, pressOf [block] 5 2700].Pairwise fun p q =>
      ∀ u ∈ q.items, q.items.head? = some u → p.accepts u firstFit = .ok false := by
  have hpackages := packages_eq_ok_iff.2 ⟨_, _, sortItems_heavy, sortCartons_press, run_heavy⟩
  have hmean : (Solution.create [pressOf [slab, chip] 6 7200, pressOf [block] 5 2700] none
      .start).1.averageUtilization = .ok ⟨false, 495, -4⟩ := eq_ok_of_toOption (by decide)
  refine ⟨Policy.usual_inRange, pack_eq_ok_iff.2 ⟨_, _, hpackages, rfl, hmean⟩, fun h => ?_⟩
  have hrefuse := List.pairwise_pair.1 h block List.mem_cons_self rfl
  simp [slab_and_chip_overflow] at hrefuse

end Stowage
