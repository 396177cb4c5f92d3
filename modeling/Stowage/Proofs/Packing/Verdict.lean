import Stowage.Proofs.Packing.Compatibility
import Stowage.Proofs.Packing.Validated

/-!
# The verdict on a request

A request passes exactly when it is in order as a whole (`Validation.InOrder`), nothing but a
refusal comes of one that is not, unless what the refusal shows is too long (`Validation.TooLong`),
and the order of its lines does not matter (`check_verdict`).
-/

namespace Stowage

namespace Validation

variable {policy : Policy} {entries entries' : List (Option Item)} {i : Item}

/-! ## What lines have in common -/

/-- Items with texts for categories are checked for what the policy asks of any two of them. -/
theorem checkCompatibility_decides {items : List Item} (htexts : ∀ i ∈ items, i.HasTextCategory) :
    Decides (checkCompatibility items policy) (∀ i ∈ items, ∀ j ∈ items, policy.Allows i j) False
      () := by
  refine ⟨(checkCompatibility_eq_ok_iff htexts).2, fun hnot _ => ?_, nofun⟩
  rw [← checkCompatibility_eq_ok_iff htexts] at hnot
  have hscalar := all_isScalar_of_texts htexts
  rw [checkCompatibility] at hnot ⊢
  simp only [hscalar, Bool.not_true, Bool.false_eq_true, if_false] at hnot ⊢
  split_ifs at hnot ⊢ <;> first
    | exact ⟨_, rfl⟩
    | exact absurd rfl hnot

/-! ## Requests -/

/-- A request that is in order: there are lines, all of them pass, the threshold is in range, there
are at most 5000 pieces, and any two lines agree on what the policy asks for. -/
structure InOrder (entries : List (Option Item)) (policy : Policy) : Prop where
  nonempty : entries ≠ []
  threshold : policy.InRange
  passes : ∀ entry ∈ entries, ∃ i, entry = some i ∧ Passes i
  units : (entries.map piecesOf).sum ≤ 5000
  allows : ∀ i j, some i ∈ entries → some j ∈ entries → policy.Allows i j

theorem InOrder.perm (h : InOrder entries policy) (hperm : entries.Perm entries') :
    InOrder entries' policy where
  nonempty hnil := h.nonempty (hperm.trans (.of_eq hnil)).eq_nil
  threshold := h.threshold
  passes entry hentry := h.passes entry (hperm.mem_iff.2 hentry)
  units := (hperm.map piecesOf).sum_eq ▸ h.units
  allows i j hi hj := h.allows i j (hperm.mem_iff.2 hi) (hperm.mem_iff.2 hj)

/-- The categories of all lines that are there are texts. -/
def HaveTextCategories (entries : List (Option Item)) : Prop :=
  ∀ i, some i ∈ entries → i.HasTextCategory

theorem mem_filterMap_id : i ∈ entries.filterMap id ↔ some i ∈ entries := by
  simp

/-- A request that is refused with an integer which is too long to be shown: in the name of the
first line that does not pass, or in the number of pieces of lines that all pass. -/
inductive TooLong (entries : List (Option Item)) : Prop
  | line (hfault : FirstUnnamable entries) : TooLong entries
  | units (hpasses : ∀ entry ∈ entries, ∃ i, entry = some i ∧ Passes i)
    (hlong : (Json.int (entries.map piecesOf).sum).hasLongNumber = true) : TooLong entries

theorem units_nonneg (entries : List (Option Item)) : 0 ≤ (entries.map piecesOf).sum := by
  refine List.sum_nonneg fun n hn => ?_
  obtain ⟨entry, -, rfl⟩ := List.mem_map.1 hn
  cases entry with
  | none => exact le_rfl
  | some i => exact Int.natCast_nonneg _

-- a power of naturals is that of the core library, whatever else is imported
attribute [local instance (2000)] instPowNat

theorem hasLongNumber_int_iff {n : ℤ} :
    (Json.int n).hasLongNumber = true ↔ 10 ^ Text.maxDigits ≤ n.natAbs := by
  rw [Json.hasLongNumber, Text.isLong, decide_eq_true_iff]

/-- A number of pieces that cannot be shown is larger than allowed. -/
theorem maxUnits_lt_of_long {n : ℤ} (hn : 0 ≤ n) (hlong : (Json.int n).hasLongNumber = true) :
    maxUnits < n := by
  have hpow : 10 ^ 4 ≤ 10 ^ Text.maxDigits := Nat.pow_le_pow_right (by decide) (by decide)
  have hle : 10 ^ 4 ≤ n.natAbs := hpow.trans (hasLongNumber_int_iff.1 hlong)
  clear hlong hpow
  rw [maxUnits]
  omega

theorem not_tooLong_nil : ¬ TooLong [] := by
  rintro (⟨before, i, after, heq, -⟩ | ⟨-, hlong⟩)
  · simp at heq
  · exact absurd (maxUnits_lt_of_long le_rfl hlong) (by decide)

/-- A request with lines and a policy is checked for being in order. -/
theorem check_decides_inOrder (htexts : HaveTextCategories entries)
    (hnan : policy.threshold.isNan = false) :
    Decides (check (some entries) (some policy)) (InOrder entries policy)
      (policy.InRange ∧ TooLong entries) () := by
  cases entries with
  | nil =>
    exact (Decides.refuse _ _).congr (iff_of_false id fun h => h.nonempty rfl)
      (iff_of_false id fun h => not_tooLong_nil h.2)
  | cons entry entries =>
    have hcompatible : Decides (checkCompatibility ((entry :: entries).filterMap id) policy) _ _
        () := checkCompatibility_decides fun i hi => htexts i (mem_filterMap_id.1 hi)
    have hunits (units : ℤ) := Decides.guard (c := maxUnits < units)
      (.refuseShowing (.int units) (.tooManyUnits units maxUnits) ()) fun _ => hcompatible
    have hsteps : check (some (entry :: entries)) (some policy) = (do
        checkThreshold policy.threshold
        let units ← checkItems (entry :: entries)
        if maxUnits < units then
          Fallible.refuseShowing (.int units) (.invalidRequest (.tooManyUnits units maxUnits))
        else checkCompatibility ((entry :: entries).filterMap id) policy) := by
      refine bind_congr fun _ => bind_congr fun units => ?_
      by_cases hlt : maxUnits < units
      · cases hlong : (Json.int units).hasLongNumber <;>
          simp [hlt, Fallible.refuseShowing, hlong, Fallible.refuse]
      · simp [hlt]
    rw [hsteps]
    refine ((checkThreshold_decides hnan).bind fun _ => (checkItems_decides _).bind fun _ =>
      hunits _).congr ⟨?_, fun h => ?_⟩ ⟨?_, ?_⟩
    · rintro ⟨hthreshold, hpasses, hle, hallows⟩
      exact ⟨List.cons_ne_nil _ _, hthreshold, hpasses, not_lt.1 hle, fun i j hi hj =>
        hallows i (mem_filterMap_id.2 hi) j (mem_filterMap_id.2 hj)⟩
    · exact ⟨h.threshold, h.passes, not_lt.2 h.units, fun i hi j hj =>
        h.allows i j (mem_filterMap_id.1 hi) (mem_filterMap_id.1 hj)⟩
    · rintro (⟨⟨⟩⟩ | ⟨hthreshold, hfault | ⟨hpasses, ⟨-, hlong⟩ | ⟨-, ⟨⟩⟩⟩⟩)
      · exact ⟨hthreshold, .line hfault⟩
      · exact ⟨hthreshold, .units hpasses hlong⟩
    · rintro ⟨hthreshold, hfault | ⟨hpasses, hlong⟩⟩
      · exact .inr ⟨hthreshold, .inl hfault⟩
      · exact .inr ⟨hthreshold, .inr ⟨hpasses,
          .inl ⟨maxUnits_lt_of_long (units_nonneg _) hlong, hlong⟩⟩⟩

/-- **The verdict on a request.** With texts for categories and a threshold that is a number, a
request passes exactly when there are lines and a policy and the lines are in order under the
policy. Otherwise it is refused as invalid, whatever a line lacks, unless the refusal would show an
integer that is too long, and nothing else goes wrong. The verdict does not depend on the order of
the lines. -/
theorem check_verdict {entries : Option (List (Option Item))} {policy : Option Policy}
    (htexts : ∀ es, entries = some es → HaveTextCategories es)
    (hnan : ∀ p, policy = some p → p.threshold.isNan = false) :
    (check entries policy = .ok () ↔
      ∃ es p, entries = some es ∧ policy = some p ∧ InOrder es p) ∧
    (check entries policy = .error .longNumber ↔
      ∃ es p, entries = some es ∧ policy = some p ∧ p.InRange ∧ TooLong es) ∧
    (check entries policy ≠ .ok () → check entries policy ≠ .error .longNumber →
      ∃ fault, check entries policy = .error (.domain (.invalidRequest fault))) ∧
    ∀ es es', entries = some es → es.Perm es' →
      (check (some es') policy = .ok () ↔ check entries policy = .ok ()) := by
  have hdecides : ∀ es, HaveTextCategories es →
      Decides (check (some es) policy) (∃ p, policy = some p ∧ InOrder es p)
        (∃ p, policy = some p ∧ p.InRange ∧ TooLong es) () := by
    intro es hes
    cases policy with
    | none => cases es <;> exact (Decides.refuse _ _).congr (by simp) (by simp)
    | some p => exact (check_decides_inOrder hes (hnan p rfl)).congr (by simp) (by simp)
  cases entries with
  | none =>
    exact ⟨iff_of_false nofun (by simp), iff_of_false nofun (by simp), fun _ _ => ⟨.noItems, rfl⟩,
      nofun⟩
  | some es =>
    have hcheck := hdecides es (htexts es rfl)
    refine ⟨hcheck.ok_iff.trans (by simp), hcheck.break_iff.trans (by simp), fun hok hlong =>
      hcheck.refuses (mt hcheck.passes hok) (mt hcheck.breaks hlong), ?_⟩
    rintro _ es' ⟨⟩ hperm
    have htexts' : HaveTextCategories es' := fun i hi => htexts es rfl i (hperm.mem_iff.2 hi)
    rw [hcheck.ok_iff, (hdecides es' htexts').ok_iff]
    exact exists_congr fun p => and_congr_right fun _ => ⟨(·.perm hperm.symm), (·.perm hperm)⟩

-- so that the decimals of given lines can be compared
attribute [local semireducible] digitCount

theorem check_brick_and_tile : check (some ([brick, tile].map some)) (some .usual) = .ok () :=
  eq_ok_of_toOption (by decide)

/-- A brick and a tile pass in either order, and a list with a gap does not. -/
theorem check_verdict_bricks : check (some [some brick, some tile]) (some .usual) = .ok () ∧
    check (some [some tile, some brick]) (some .usual) = .ok () ∧
    ∃ fault, check (some [some brick, none]) (some .usual) =
      .error (.domain (.invalidRequest fault)) := by
  have hnan : ∀ p, some Policy.usual = some p → p.threshold.isNan = false := by
    rintro _ ⟨⟩
    rfl
  have hpass : check (some [some brick, some tile]) (some .usual) = .ok () := check_brick_and_tile
  have htexts : ∀ es, some [some brick, some tile] = some es → HaveTextCategories es := by
    rintro _ ⟨⟩ i hi
    simp only [List.mem_cons, Option.some.injEq, List.not_mem_nil, or_false] at hi
    rcases hi with rfl | rfl <;> exact ⟨_, rfl⟩
  have htexts' : ∀ es, some [some brick, none] = some es → HaveTextCategories es := by
    rintro _ ⟨⟩ i hi
    simp only [List.mem_cons, Option.some.injEq, reduceCtorEq, List.not_mem_nil, or_false] at hi
    exact hi ▸ ⟨_, rfl⟩
  obtain ⟨-, -, -, hperm⟩ := check_verdict htexts hnan
  obtain ⟨-, -, hrefused, -⟩ := check_verdict htexts' hnan
  have hgap : check (some [some brick, none]) (some .usual) =
      .error (.domain (.invalidRequest (.item .null))) := rfl
  refine ⟨hpass, (hperm _ _ rfl (.swap _ _ _)).2 hpass, hrefused ?_ ?_⟩ <;> simp [hgap]

/-! ### A heap of bricks -/

/-- A line that passes does so with any other positive quantity. -/
theorem Passes.withQuantity (h : Passes i) {q : ℤ} (hq : 0 < q) :
    Passes { i with quantity := .int q } where
  usable := by
    have husable := h.usable
    simp only [isUsable, Bool.and_eq_true] at husable ⊢
    obtain ⟨⟨⟨hsku, -⟩, hdimensions⟩, hweight⟩ := husable
    exact ⟨⟨⟨hsku, decide_eq_true hq⟩, hdimensions⟩, hweight⟩
  size := h.size
  weight := h.weight

/-- As many bricks as can be written. -/
def heap : Item := { brick with quantity := .int (10 ^ Text.maxDigits - 1 : ℕ) }

theorem two_le_pow_maxDigits : 2 ≤ 10 ^ Text.maxDigits :=
  Nat.le_trans (by decide) (Nat.le_self_pow (by decide) 10)

theorem passes_heap : Passes heap :=
  have hbrick : Passes brick := passes_of_check check_brick_and_tile brick (by simp)
  hbrick.withQuantity (Int.natCast_pos.2 (Nat.sub_pos_of_lt two_le_pow_maxDigits))

theorem tooLong_heaps : TooLong [some heap, some heap] := by
  have hunits : ([some heap, some heap].map piecesOf).sum =
      ((10 ^ Text.maxDigits - 1 + (10 ^ Text.maxDigits - 1) : ℕ) : ℤ) := by
    simp only [List.map_cons, List.map_nil, List.sum_cons, List.sum_nil, piecesOf, Option.elim,
      heap, Quantity.pieces_natCast, add_zero, Nat.cast_add]
  have htwice : ∀ n, 2 ≤ n → n ≤ n - 1 + (n - 1) := by omega
  refine .units (fun entry hentry => ⟨heap, by simpa using hentry, passes_heap⟩) ?_
  rw [hunits]
  exact hasLongNumber_int_iff.2 (htwice _ two_le_pow_maxDigits)

/-- Two heaps are too many bricks, but the request is not refused as invalid. -/
theorem heaps_are_not_refused :
    ¬ ∀ (entries : Option (List (Option Item))) (policy : Option Policy),
      (∀ es, entries = some es → HaveTextCategories es) →
      (∀ p, policy = some p → p.threshold.isNan = false) → check entries policy ≠ .ok () →
        ∃ fault, check entries policy = .error (.domain (.invalidRequest fault)) := by
  intro h
  have htexts : HaveTextCategories [some heap, some heap] := by
    intro i hi
    obtain rfl : i = heap := by simpa using hi
    exact ⟨_, rfl⟩
  have hcheck : check (some [some heap, some heap]) (some .usual) = .error .longNumber :=
    (check_decides_inOrder htexts rfl).breaks ⟨Policy.usual_inRange, tooLong_heaps⟩
  obtain ⟨fault, hfault⟩ := h (some [some heap, some heap]) (some .usual)
    (by rintro _ ⟨⟩; exact htexts) (by rintro _ ⟨⟩; rfl) (by simp [hcheck])
  nomatch hcheck.symm.trans hfault

end Validation

end Stowage
