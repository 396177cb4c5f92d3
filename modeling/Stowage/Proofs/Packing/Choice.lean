import Stowage.Proofs.Packing.Agreement
import Stowage.Proofs.Packing.Rearrangement

/-!
# Where each piece goes

At every step of a calculation the piece goes where the policy and the cartons that were given say
(`pack_assigns_pieces`). An open package that accepts it is used before a new one is opened, the
oldest or the tightest, and a new package is on the smallest active carton that takes the piece.
Cartons are tried in sorted order, but as the sort keeps equal volumes as they were given, the
carton can be told from the list that was given (`exists_isSmallest_of_openPackage`).
-/

namespace Stowage

namespace Packing

open Package

/-! ## Finding the place before a sort -/

section Split

variable {α : Type} {key : α → ℚ} {le : α → α → Bool} {xs before after ys zs : List α} {x : α}
  {admits : α → Prop}

/-- An element that a filter keeps, with what the filter keeps before and after it. -/
theorem exists_split_of_filter {p : α → Bool} (h : xs.filter p = ys ++ x :: zs) :
    ∃ front back, xs = front ++ x :: back ∧ front.filter p = ys ∧ back.filter p = zs := by
  obtain ⟨front, rest, rfl, hfront, hrest⟩ := List.filter_eq_append_iff.1 h
  obtain ⟨gap, back, rfl, hgap, -, hback⟩ := List.filter_eq_cons_iff.1 hrest
  refine ⟨front ++ gap, back, by simp, ?_, hback⟩
  rw [List.filter_append, hfront, List.filter_eq_nil_iff.2 hgap, List.append_nil]

/-- The first element of a sorted list that is admitted is, in the list before the sort, the first
of those with the least key. -/
theorem exists_split_of_mergeSort (hle : ∀ a b, le a b = true ↔ key a ≤ key b)
    (h : xs.mergeSort le = before ++ x :: after) (hbefore : ∀ y ∈ before, ¬ admits y) :
    ∃ front back, xs = front ++ x :: back ∧ (∀ y ∈ front, admits y → key x < key y) ∧
      ∀ y ∈ back, admits y → key x ≤ key y := by
  -- what is admitted comes after `x` once the list is sorted
  have hleast : ∀ y ∈ xs, admits y → key x ≤ key y := by
    intro y hy hadmits
    have hsorted := List.pairwise_mergeSort (trans_of_key hle) (total_of_key hle) xs
    rw [← (List.mergeSort_perm xs le).mem_iff, h, List.mem_append, List.mem_cons] at hy
    rw [h, List.pairwise_append, List.pairwise_cons] at hsorted
    rcases hy with hy | rfl | hy
    · exact absurd hadmits (hbefore y hy)
    · exact le_rfl
    · exact (hle _ _).1 (hsorted.2.1.1 y hy)
  -- the sort keeps the elements with the key of `x` as they were
  have hgroup : xs.filter (key · = key x) = (xs.mergeSort le).filter (key · = key x) :=
    (filter_mergeSort hle (key x)).symm
  rw [h, List.filter_append, List.filter_cons_of_pos (by simp)] at hgroup
  obtain ⟨front, back, rfl, hfront, -⟩ := exists_split_of_filter hgroup
  refine ⟨front, back, rfl, fun y hy hadmits => ?_, fun y hy => hleast y (by simp [hy])⟩
  refine lt_of_le_of_ne (hleast y (by simp [hy]) hadmits) fun heq => ?_
  have hmem : y ∈ front.filter (key · = key x) := List.mem_filter.2 ⟨hy, by simp [heq]⟩
  rw [hfront] at hmem
  exact hbefore y (List.mem_of_mem_filter hmem) hadmits

end Split

/-! ## The carton of a new package -/

variable {policy : Policy} {cartons cs : List Carton} {i : Item} {ps ps' : List Package}

/-- Of cartons in the order in which they were given, one is active, a new package on it accepts the
item, and it is the first of those of which this is true with the least volume. -/
abbrev IsSmallest (policy : Policy) (i : Item) (before : List Carton) (c : Carton)
    (after : List Carton) : Prop :=
  IsFirstLeast (fun b => b.isActive = true ∧ (ofCarton b).accepts i policy = .ok true) cartonVolume
    before c after

/-- **A new package is on the smallest of the active cartons that take the item.** -/
theorem exists_isSmallest_of_openPackage {p : Package} (hcs : sortCartons cartons = .ok cs)
    (h : openPackage policy i cs = .ok p) :
    ∃ before c after, cartons = before ++ c :: after ∧ p = ofCarton c ∧
      IsSmallest policy i before c after := by
  obtain ⟨tried, c, rest, rfl, rfl, haccepts, hrefused⟩ := openPackage_eq_ok h
  obtain ⟨ks, hks, hcs⟩ := bind_eq_ok.1 hcs
  rw [pure_eq_ok] at hcs
  obtain ⟨ktried, krest, hsorted, htried, hrest⟩ := List.map_eq_append_iff.1 hcs
  obtain ⟨k, krest, rfl, rfl, -⟩ := List.map_eq_cons_iff.1 hrest
  have hvolume : ∀ k ∈ ks, cartonVolume k.2 = .ok k.1 := by
    intro k hk
    obtain ⟨c, -, hc⟩ := (mem_of_mapM hks).1 k hk
    obtain ⟨v, hv, hpair⟩ := bind_eq_ok.1 hc
    rw [← pure_eq_ok.1 hpair, hv]
  have hbefore : ∀ k ∈ ktried, ¬ (ofCarton k.2).accepts i policy = .ok true := by
    intro k hk
    rw [hrefused k.2 (htried ▸ List.mem_map_of_mem hk)]
    simp
  -- the place of the carton among the active ones, and from there among all
  obtain ⟨kfront, kback, rfl, hfront, hback⟩ :=
    exists_split_of_mergeSort (fun a b => Decimal.le_iff a.1 b.1) hsorted hbefore
  have hactive := map_snd_of_keyed hks
  rw [List.map_append, List.map_cons] at hactive
  obtain ⟨before, after, rfl, hbefore, hafter⟩ := exists_split_of_filter hactive.symm
  have hk := hvolume k (by simp)
  refine ⟨before, k.2, after, rfl, rfl, ⟨?_, haccepts⟩, ?_, ?_⟩
  · have hmem : k.2 ∈ (before ++ k.2 :: after).filter Carton.isActive := by simp [← hactive]
    exact (List.mem_filter.1 hmem).2
  · rintro b hb ⟨hon, hb'⟩
    obtain ⟨l, hl, rfl⟩ := List.mem_map.1 (hbefore ▸ List.mem_filter.2 ⟨hb, hon⟩)
    exact ⟨_, _, hk, hvolume l (by simp [hl]), hfront l hl hb'⟩
  · rintro b hb ⟨hon, hb'⟩
    obtain ⟨l, hl, rfl⟩ := List.mem_map.1 (hafter ▸ List.mem_filter.2 ⟨hb, hon⟩)
    exact ⟨_, _, hk, hvolume l (by simp [hl]), hback l hl hb'⟩

/-! ## The rule -/

/-- The packages before and after an item goes where the rule says. -/
inductive Assigned (policy : Policy) (cartons : List Carton) (i : Item) :
    List Package → List Package → Prop
  /-- Into the oldest open package that accepts it. -/
  | oldest {before after : List Package} {p q : Package} (hpolicy : policy.tightest = false)
      (hbefore : ∀ b ∈ before, b.accepts i policy = .ok false) (hadd : p.add i policy = .ok q) :
      Assigned policy cartons i (before ++ p :: after) (before ++ q :: after)
  /-- Into the tightest open package that accepts it. -/
  | tightest {before after : List Package} {p q : Package} (hpolicy : policy.tightest = true)
      (htightest : IsTightest policy i before p after) (hadd : p.add i policy = .ok q) :
      Assigned policy cartons i (before ++ p :: after) (before ++ q :: after)
  /-- No open package accepts it: into a new one on the smallest carton. -/
  | opened {ps : List Package} {before after : List Carton} {c : Carton} {q : Package}
      (hrefused : ∀ p ∈ ps, p.accepts i policy = .ok false)
      (hcartons : cartons = before ++ c :: after) (hsmallest : IsSmallest policy i before c after)
      (hadd : (ofCarton c).add i policy = .ok q) : Assigned policy cartons i ps (ps ++ [q])

/-- **Every step follows the rule.** -/
theorem Placed.assigned (h : Placed policy cs i ps ps') (hcs : sortCartons cartons = .ok cs) :
    Assigned policy cartons i ps ps' := by
  cases h with
  | @inserted before after p q hchoose hadd =>
    rcases cases_of_choose hchoose with ⟨hpolicy, hbefore⟩ | ⟨hpolicy, htightest⟩
    · exact .oldest hpolicy hbefore hadd
    · exact .tightest hpolicy htightest hadd
  | opened hchoose hopen hadd =>
    obtain ⟨before, c, after, hcartons, hc, hsmallest⟩ := exists_isSmallest_of_openPackage hcs hopen
    rw [hc] at hadd
    exact .opened (choose_eq_none_iff.1 hchoose) hcartons hsmallest hadd

/-- The oldest package that accepts an item is the first of the least when all are of one size. -/
theorem isFirstLeast_of_oldest {before after : List Package} {p : Package}
    (hbefore : ∀ b ∈ before, b.accepts i policy = .ok false)
    (haccepts : p.accepts i policy = .ok true) :
    IsFirstLeast (·.accepts i policy = .ok true) (fun _ => .ok .zero) before p after where
  admitted := haccepts
  before b hb hb' := by simp [hbefore b hb] at hb'
  after _ _ _ := ⟨_, _, rfl, rfl, le_rfl⟩

/-- No package takes an item that all of them refuse. -/
theorem not_add_of_refused {before after : List Package} {p q : Package}
    (hrefused : ∀ b ∈ before ++ p :: after, b.accepts i policy = .ok false) :
    p.add i policy ≠ .ok q := by
  intro hadd
  have haccepts := (add_eq_ok_iff.1 hadd).1
  rw [hrefused p (by simp)] at haccepts
  cases haccepts

/-- **The rule leaves no choice.** -/
theorem Assigned.unique {qs : List Package} (h : Assigned policy cartons i ps ps')
    (h' : Assigned policy cartons i ps qs) : ps' = qs := by
  cases h with
  | oldest hpolicy hbefore hadd =>
    generalize hps : _ ++ _ :: _ = rs at h'
    cases h' with
    | oldest _ hbefore' hadd' =>
      obtain ⟨rfl, rfl, rfl⟩ :=
        (isFirstLeast_of_oldest hbefore (add_eq_ok_iff.1 hadd).1).unique
          (isFirstLeast_of_oldest hbefore' (add_eq_ok_iff.1 hadd').1) hps
      rw [Except.ok.inj (hadd.symm.trans hadd')]
    | tightest hpolicy' => simp [hpolicy] at hpolicy'
    | opened hrefused => exact absurd hadd (not_add_of_refused (hps ▸ hrefused))
  | tightest hpolicy htightest hadd =>
    generalize hps : _ ++ _ :: _ = rs at h'
    cases h' with
    | oldest hpolicy' => simp [hpolicy] at hpolicy'
    | tightest _ htightest' hadd' =>
      obtain ⟨rfl, rfl, rfl⟩ := htightest.unique htightest' hps
      rw [Except.ok.inj (hadd.symm.trans hadd')]
    | opened hrefused => exact absurd hadd (not_add_of_refused (hps ▸ hrefused))
  | opened hrefused hcartons hsmallest hadd =>
    cases h' with
    | oldest _ _ hadd' => exact absurd hadd' (not_add_of_refused hrefused)
    | tightest _ _ hadd' => exact absurd hadd' (not_add_of_refused hrefused)
    | opened _ hcartons' hsmallest' hadd' =>
      obtain ⟨rfl, rfl, rfl⟩ := hsmallest.unique hsmallest' (hcartons.symm.trans hcartons')
      rw [Except.ok.inj (hadd.symm.trans hadd')]

end Packing

open Packing

variable {items : List Item} {cartons : List Carton} {policy : Policy} {supply : Supply}
  {s : Solution}

/-- **Where each piece goes** in a calculation that returns. The pieces are placed in sorted order,
and at each of them the packages that are open change in the one way that the rule allows: the piece
goes into the oldest open package that accepts it, or the one with the least volume left in cubic
centimetres and of equal ones the oldest, when the policy asks for it; when all open packages refuse
the piece, into a new one on the smallest of the active cartons whose new package accepts it, of
equal ones the first that was given. -/
theorem pack_assigns_pieces (h : (pack items cartons policy supply).1 = .ok s) :
    ∃ units cs, sortItems items = .ok units ∧ sortCartons cartons = .ok cs ∧
      placeAll policy cs units = .ok s.packages ∧
      ∀ done i rest, units = done ++ i :: rest → ∃ ps ps', placeAll policy cs done = .ok ps ∧
        placeAll policy cs (done ++ [i]) = .ok ps' ∧ Assigned policy cartons i ps ps' ∧
          ∀ qs, Assigned policy cartons i ps qs → qs = ps' := by
  obtain ⟨units, cs, hunits, hcs, hrun⟩ := run_of_pack h
  refine ⟨units, cs, hunits, hcs, placeAll_eq_ok_iff.2 hrun, fun done i rest hsplit => ?_⟩
  rw [hsplit, List.append_cons] at hrun
  obtain ⟨ps', hps', -⟩ := Run.exists_prefix hrun
  obtain ⟨ps, hps, hplaced⟩ := run_concat hps'
  have hassigned := hplaced.assigned hcs
  exact ⟨ps, ps', placeAll_eq_ok_iff.2 hps, placeAll_eq_ok_iff.2 hps', hassigned,
    fun qs hqs => hqs.unique hassigned⟩

/-- The jug goes to the drum, whose package has less left than that of the pole, which is older. -/
theorem pack_assigns_pieces_jug :
    (pack [pole, drum, jug, anvil] [cube, long] { Policy.usual with tightest := true } .start).1 =
        .ok packedTightest ∧
      Assigned { Policy.usual with tightest := true } [cube, long] jug
        [filled long [pole] 6 98000, filled cube [drum] 6 72900]
        [filled long [pole] 6 98000, filled cube [drum, jug] 10 79300] := by
  obtain ⟨units, cs, hunits, hcs, -, hsteps⟩ := pack_assigns_pieces pack_tightest
  cases hunits.symm.trans sortItems_goods
  cases hcs.symm.trans sortCartons_boxes
  obtain ⟨ps, ps', hps, hps', hassigned, -⟩ := hsteps [pole, drum] jug [anvil] rfl
  cases hps.symm.trans (placeAll_eq_ok_iff.2 (run_pole_drum true))
  cases hps'.symm.trans (placeAll_eq_ok_iff.2 run_jug)
  exact ⟨pack_tightest, hassigned⟩

end Stowage
