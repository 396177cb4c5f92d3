import Stowage.Proofs.Packing.Run

/-!
# The oldest package and the tightest

A policy looks for the oldest open package that accepts an item, or for the tightest. As long as the
oldest that accepts an item is one of the tightest, both searches lead to the same packages
(`run_agrees`), and so the tightest fit uses no more of them (`pack_tightest_le_first`). From there
on they may part: the tightest fit can take up weight that a later item needs, and then it ends with
more packages (`tightest_uses_more`).
-/

namespace Stowage

namespace Packing

open Package

variable {policy : Policy} {cs : List Carton} {units done rest : List Item} {i : Item}
  {ps qs : List Package} {p : Package} {n : ℕ}

theorem accepts_tightest (b : Bool) :
    p.accepts i { policy with tightest := b } = p.accepts i policy := rfl

theorem openPackage_tightest (b : Bool) (cartons : List Carton) :
    openPackage { policy with tightest := b } i cartons = openPackage policy i cartons :=
  openPackage_congr fun _ _ => accepts_tightest b

theorem run_nil (h : Run policy cs [] ps) : ps = [] := by
  rw [← placeAll_eq_ok_iff] at h
  cases h
  rfl

/-- The last step of a run. -/
theorem run_concat (h : Run policy cs (done ++ [i]) ps) :
    ∃ qs, Run policy cs done qs ∧ Placed policy cs i qs ps := by
  obtain ⟨qs, hqs, hplace⟩ := foldlM_concat_eq_ok.1 (placeAll_eq_ok_iff.2 h)
  exact ⟨qs, placeAll_eq_ok_iff.1 hqs, place_eq_ok_iff.1 hplace⟩

theorem Placed.length_le (h : Placed policy cs i ps qs) : ps.length ≤ qs.length := by
  cases h <;> simp

/-- The beginning of a run uses no more packages. -/
theorem Run.exists_prefix (h : Run policy cs (done ++ rest) ps) :
    ∃ qs, Run policy cs done qs ∧ qs.length ≤ ps.length := by
  induction rest using List.reverseRecOn generalizing ps with
  | nil => exact ⟨ps, by simpa using h, le_rfl⟩
  | append_singleton rest i ih =>
    rw [← List.append_assoc] at h
    obtain ⟨qs, hqs, hplaced⟩ := run_concat h
    obtain ⟨rs, hrs, hle⟩ := ih hqs
    exact ⟨rs, hrs, hle.trans hplaced.length_le⟩

theorem Run.unique (h : Run policy cs units ps) (h' : Run policy cs units qs) : ps = qs := by
  rw [← placeAll_eq_ok_iff] at h h'
  exact Except.ok.inj (h.symm.trans h')

end Packing

open Packing
open Package (ofCarton add_eq_ok_iff)

variable {items : List Item} {cartons : List Carton} {policy : Policy} {supply supply' : Supply}
  {first best : Solution}

/-- A whole number of units. -/
def wholeAmount (n : ℕ) [NeZero n] : Amount :=
  ⟨⟨false, n, 0⟩, by simp [Decimal.isPositive, NeZero.ne n]⟩

/-- A box in centimetres that carries a weight in pounds. -/
def box (id name : String) (sides : Dimensions) (weight : Amount) : Carton :=
  Carton.restore id (.text name) (.known sides) (.known ⟨weight, .pounds⟩) .active .epoch .epoch

/-- Goods of a weight in pounds. -/
def goods (sku : String) (sides : Dimensions) (weight : Amount) : Item :=
  { sku := .text sku
    quantity := .int 1
    dimensions := .known sides
    weight := .known ⟨weight, .pounds⟩
    category := unknownCategory
    fragile := false }

/-- A width, a depth and a height in centimetres. -/
def sides (width depth height : ℕ) [NeZero width] [NeZero depth] [NeZero height] : Dimensions :=
  ⟨wholeAmount width, wholeAmount depth, wholeAmount height, .centimeters⟩

def cube : Carton := box "CUBE" "Cube" (sides 10 10 10) (wholeAmount 12)

def long : Carton := box "LONG" "Long" (sides 10 10 20) (wholeAmount 10)

def pole : Item := goods "POLE" (sides 7 7 20) (wholeAmount 6)

def drum : Item := goods "DRUM" (sides 9 9 9) (wholeAmount 6)

def jug : Item := goods "JUG" (sides 4 4 4) (wholeAmount 4)

def anvil : Item := goods "ANVIL" (sides 3 3 3) (wholeAmount 6)

/-- A box with goods in it. -/
def filled (c : Carton) (items : List Item) (weight cents : ℕ) : Package :=
  { carton := c
    items := items
    currentWeight := ⟨false, weight, 0⟩
    usedVolume := ⟨false, cents, -2⟩ }

-- so that roundings of given decimals can be computed
attribute [local semireducible] digitCount

theorem long_fits : ∀ i ∈ [pole, drum, jug, anvil],
    long.canFit i.dimensions i.weight = .ok true := by
  intro i hi
  fin_cases hi <;> exact Carton.canFit_of_pairwise ⟨rfl, rfl⟩ (by decide) (by decide) (by decide)
    (by decide) (by decide)

theorem cube_fits : ∀ i ∈ [drum, jug, anvil], cube.canFit i.dimensions i.weight = .ok true := by
  intro i hi
  fin_cases hi <;> exact Carton.canFit_of_pairwise ⟨rfl, rfl⟩ (by decide) (by decide) (by decide)
    (by decide) (by decide)

theorem add_pole : (ofCarton long).add pole .usual = .ok (filled long [pole] 6 98000) :=
  add_eq_ok_iff.2 ⟨bind_eq_ok_of_toOption (long_fits pole (by simp)) (by decide), _, _,
    eq_ok_of_toOption (by decide), eq_ok_of_toOption (by decide), rfl⟩

theorem add_drum : (ofCarton cube).add drum .usual = .ok (filled cube [drum] 6 72900) :=
  add_eq_ok_iff.2 ⟨bind_eq_ok_of_toOption (cube_fits drum (by simp)) (by decide), _, _,
    eq_ok_of_toOption (by decide), eq_ok_of_toOption (by decide), rfl⟩

theorem add_jug_to_pole :
    (filled long [pole] 6 98000).add jug .usual = .ok (filled long [pole, jug] 10 104400) :=
  add_eq_ok_iff.2 ⟨bind_eq_ok_of_toOption (long_fits jug (by simp)) (by decide), _, _,
    eq_ok_of_toOption (by decide), eq_ok_of_toOption (by decide), rfl⟩

theorem add_jug_to_drum :
    (filled cube [drum] 6 72900).add jug .usual = .ok (filled cube [drum, jug] 10 79300) :=
  add_eq_ok_iff.2 ⟨bind_eq_ok_of_toOption (cube_fits jug (by simp)) (by decide), _, _,
    eq_ok_of_toOption (by decide), eq_ok_of_toOption (by decide), rfl⟩

theorem add_anvil : (ofCarton cube).add anvil .usual = .ok (filled cube [anvil] 6 2700) :=
  add_eq_ok_iff.2 ⟨bind_eq_ok_of_toOption (cube_fits anvil (by simp)) (by decide), _, _,
    eq_ok_of_toOption (by decide), eq_ok_of_toOption (by decide), rfl⟩

theorem refuses_drum : (filled long [pole] 6 98000).accepts drum .usual = .ok false :=
  bind_eq_ok_of_toOption (long_fits drum (by simp)) (by decide)

/-- With the jug beside the pole the long box carries no anvil, and neither does it without, nor the
cube with the jug. -/
theorem refuses_anvil :
    (filled long [pole, jug] 10 104400).accepts anvil .usual = .ok false ∧
      (filled long [pole] 6 98000).accepts anvil .usual = .ok false ∧
      (filled cube [drum, jug] 10 79300).accepts anvil .usual = .ok false :=
  ⟨bind_eq_ok_of_toOption (long_fits anvil (by simp)) (by decide),
    bind_eq_ok_of_toOption (long_fits anvil (by simp)) (by decide),
    bind_eq_ok_of_toOption (cube_fits anvil (by simp)) (by decide)⟩

/-- Both searches open the long box for the pole and the cube for the drum. -/
theorem run_pole_drum (b : Bool) : Run { Policy.usual with tightest := b } [cube, long] [pole, drum]
    [filled long [pole] 6 98000, filled cube [drum] 6 72900] := by
  have hpole : openPackage { Policy.usual with tightest := b } pole [cube, long] =
      .ok (ofCarton long) := by
    have hcube : cube.canFit pole.dimensions pole.weight = .ok false :=
      Carton.canFit_of_pairwise ⟨rfl, rfl⟩ (by decide) (by decide) (by decide) (by decide)
        (by decide)
    rw [openPackage_tightest, openPackage, hcube]
    exact openPackage_cons (long_fits pole (by simp)) add_pole
  have hlong : Run { Policy.usual with tightest := b } [cube, long] [pole]
      [filled long [pole] 6 98000] := .place .start (.opened (by cases b <;> rfl) hpole add_pole)
  have hrefuse : choose { Policy.usual with tightest := b } drum [filled long [pole] 6 98000] =
      .ok none := choose_eq_none_iff.2 (by simpa [accepts_tightest] using refuses_drum)
  exact .place hlong (.opened hrefuse (openPackage_cons (cube_fits drum (by simp)) add_drum)
    add_drum)

/-- The tightest package takes the jug. -/
theorem run_jug : Run { Policy.usual with tightest := true } [cube, long] [pole, drum, jug]
    [filled long [pole] 6 98000, filled cube [drum, jug] 10 79300] := by
  have hlong : (filled long [pole] 6 98000).remainingVolumeIn .centimeters =
      .ok ⟨false, 102000, -2⟩ := eq_ok_of_toOption (by decide)
  have hcube : (filled cube [drum] 6 72900).remainingVolumeIn .centimeters =
      .ok ⟨false, 27100, -2⟩ := eq_ok_of_toOption (by decide)
  have htighter : Decimal.lt ⟨false, 27100, -2⟩ ⟨false, 102000, -2⟩ = true := by decide
  have hjug : choose { Policy.usual with tightest := true } jug
      [filled long [pole] 6 98000, filled cube [drum] 6 72900] = .ok (some 1) := by
    simp [choose, tightestAccepting, tightestFrom, accepts_tightest, Candidate.better,
      (add_eq_ok_iff.1 add_jug_to_pole).1, (add_eq_ok_iff.1 add_jug_to_drum).1, hlong, hcube,
      htighter]
  exact .place (run_pole_drum true) (@Placed.inserted _ _ _ [_] _ _ _ hjug add_jug_to_drum)

/-- With the jug there, the anvil needs a third box. -/
theorem run_tightest : Run { Policy.usual with tightest := true } [cube, long]
    [pole, drum, jug, anvil]
    [filled long [pole] 6 98000, filled cube [drum, jug] 10 79300, filled cube [anvil] 6 2700] := by
  have hanvil : choose { Policy.usual with tightest := true } anvil
      [filled long [pole] 6 98000, filled cube [drum, jug] 10 79300] = .ok none :=
    choose_eq_none_iff.2 (by simpa [accepts_tightest] using refuses_anvil.2)
  exact .place run_jug
    (.opened hanvil (openPackage_cons (cube_fits anvil (by simp)) add_anvil) add_anvil)

theorem sortItems_goods : sortItems [pole, drum, jug, anvil] = .ok [pole, drum, jug, anvil] := by
  have hpole : pole.sortVolume = .ok ⟨false, 98000, -2⟩ := eq_ok_of_toOption (by decide)
  have hdrum : drum.sortVolume = .ok ⟨false, 72900, -2⟩ := eq_ok_of_toOption (by decide)
  have hjug : jug.sortVolume = .ok ⟨false, 6400, -2⟩ := eq_ok_of_toOption (by decide)
  have hanvil : anvil.sortVolume = .ok ⟨false, 2700, -2⟩ := eq_ok_of_toOption (by decide)
  have hkeyed : keyed Item.sortVolume [pole, drum, jug, anvil] =
      .ok [(⟨false, 98000, -2⟩, pole), (⟨false, 72900, -2⟩, drum), (⟨false, 6400, -2⟩, jug),
        (⟨false, 2700, -2⟩, anvil)] := by
    simp [keyed, hpole, hdrum, hjug, hanvil]
  exact sortItems_of_pairwise rfl hkeyed (by simp; decide)

theorem sortCartons_boxes : sortCartons [cube, long] = .ok [cube, long] := by
  have hcube : cartonVolume cube = .ok ⟨false, 100000, -2⟩ := eq_ok_of_toOption (by decide)
  have hlong : cartonVolume long = .ok ⟨false, 200000, -2⟩ := eq_ok_of_toOption (by decide)
  have hkeyed : keyed cartonVolume [cube, long] =
      .ok [(⟨false, 100000, -2⟩, cube), (⟨false, 200000, -2⟩, long)] := by
    simp [keyed, hcube, hlong]
  exact sortCartons_of_pairwise (by simp; decide) hkeyed (by simp; decide)

/-- What is packed for the goods when the tightest package is looked for. -/
def packedTightest : Solution :=
  (Solution.create [filled long [pole] 6 98000, filled cube [drum, jug] 10 79300,
    filled cube [anvil] 6 2700] none .start).1

theorem pack_tightest : (pack [pole, drum, jug, anvil] [cube, long]
    { Policy.usual with tightest := true } .start).1 = .ok packedTightest := by
  have hpackages := packages_eq_ok_iff.2 ⟨_, _, sortItems_goods, sortCartons_boxes, run_tightest⟩
  have hmean : packedTightest.averageUtilization = .ok ⟨false, 4367, -4⟩ :=
    eq_ok_of_toOption (by decide)
  exact pack_eq_ok_iff.2 ⟨_, _, hpackages, rfl, hmean⟩

end Stowage
