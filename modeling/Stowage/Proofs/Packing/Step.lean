import Stowage.Packing.Placement
import Stowage.Proofs.Package.Acceptance

/-!
# One placement

What placing a single item does (`place_eq_ok_iff`) and how it can fail (`place_eq_error`). The
item goes into an open package that accepts it, or, when all of them refuse it, into a new one
(`Placed`); apart from signals the only failure is that no carton takes the item on its own.
The package that is chosen is the oldest that accepts the item, or the first of those with the least
volume left (`choose_eq_some`). Policies under which the packages at hand accept alike place alike
(`place_congr`).
-/

namespace Stowage.Packing

open Package

/-! ## The first of the least -/

/-- Of the elements of `before ++ x :: after` that are admitted, `x` is the first of those with the
least size. -/
structure IsFirstLeast {α : Type} (admits : α → Prop) (size : α → Fallible Decimal)
    (before : List α) (x : α) (after : List α) : Prop where
  admitted : admits x
  before : ∀ y ∈ before, admits y →
    ∃ v w, size x = .ok v ∧ size y = .ok w ∧ v.toRat < w.toRat
  after : ∀ y ∈ after, admits y →
    ∃ v w, size x = .ok v ∧ size y = .ok w ∧ v.toRat ≤ w.toRat

section FirstLeast

variable {α : Type} {admits : α → Prop} {size : α → Fallible Decimal} {x y : α}
  {before before' after after' : List α}

/-- What comes before a first of the least is not one as well. -/
theorem IsFirstLeast.not_mem_before (h : IsFirstLeast admits size before x after)
    (h' : IsFirstLeast admits size before' y after') (hy : y ∈ before) : x ∉ after' := by
  intro hx
  obtain ⟨v, w, hv, hw, hlt⟩ := h.before y hy h'.admitted
  obtain ⟨w', v', hw', hv', hle⟩ := h'.after x hx h.admitted
  cases hv.symm.trans hv'
  cases hw.symm.trans hw'
  exact hle.not_gt hlt

/-- **There is one first of the least**, in one place. -/
theorem IsFirstLeast.unique (h : IsFirstLeast admits size before x after)
    (h' : IsFirstLeast admits size before' y after')
    (heq : before ++ x :: after = before' ++ y :: after') :
    before = before' ∧ x = y ∧ after = after' := by
  rcases List.append_eq_append_iff.1 heq with ⟨middle, rfl, hrest⟩ | ⟨middle, rfl, hrest⟩
  · cases middle with
    | nil => simpa using hrest
    | cons z middle =>
      obtain ⟨rfl, rfl⟩ := List.cons.inj hrest
      exact absurd (by simp) (h'.not_mem_before h (by simp))
  · cases middle with
    | nil => simpa [eq_comm] using hrest
    | cons z middle =>
      obtain ⟨rfl, rfl⟩ := List.cons.inj hrest
      exact absurd (by simp) (h.not_mem_before h' (by simp))

end FirstLeast

variable {policy policy' : Policy} {i : Item} {cartons : List Carton} {ps ps' : List Package}
  {n : ℕ} {f : Failure}

/-! ## Choosing an open package -/

/-- Of packages in order of age, one accepts the item and is the first of those that do with the
least volume left, in cubic centimetres. -/
abbrev IsTightest (policy : Policy) (i : Item) (before : List Package) (p : Package)
    (after : List Package) : Prop :=
  IsFirstLeast (·.accepts i policy = .ok true) (·.remainingVolumeIn .centimeters) before p after

theorem firstAccepting_eq_none (h : firstAccepting policy i ps = .ok none) :
    ∀ p ∈ ps, p.accepts i policy = .ok false := by
  induction ps with
  | nil => simp
  | cons p ps ih =>
    obtain ⟨accepted, ha, h⟩ := bind_eq_ok.1 h
    cases accepted with
    | true => simp at h
    | false =>
      obtain ⟨found, hfound, h⟩ := bind_eq_ok.1 h
      cases found with
      | some => simp at h
      | none => exact List.forall_mem_cons.2 ⟨ha, ih hfound⟩

theorem firstAccepting_of_refused (h : ∀ p ∈ ps, p.accepts i policy = .ok false) :
    firstAccepting policy i ps = .ok none := by
  induction ps with
  | nil => rfl
  | cons p ps ih =>
    obtain ⟨hp, hps⟩ := List.forall_mem_cons.1 h
    simp [firstAccepting, hp, ih hps]

theorem firstAccepting_eq_some (h : firstAccepting policy i ps = .ok (some n)) :
    ∃ before p after, ps = before ++ p :: after ∧ n = before.length ∧
      p.accepts i policy = .ok true ∧ ∀ q ∈ before, q.accepts i policy = .ok false := by
  induction ps generalizing n with
  | nil => simp [firstAccepting] at h
  | cons p ps ih =>
    obtain ⟨accepted, ha, h⟩ := bind_eq_ok.1 h
    cases accepted with
    | true =>
      obtain rfl : 0 = n := by simpa using h
      exact ⟨[], p, ps, rfl, rfl, ha, by simp⟩
    | false =>
      obtain ⟨found, hfound, h⟩ := bind_eq_ok.1 h
      cases found with
      | none => simp at h
      | some m =>
        obtain rfl : m + 1 = n := by simpa using h
        obtain ⟨before, q, after, rfl, rfl, hq, hbefore⟩ := ih hfound
        exact ⟨p :: before, q, after, rfl, rfl, hq, List.forall_mem_cons.2 ⟨ha, hbefore⟩⟩

theorem signals_firstAccepting (hps : whole → ∀ p ∈ ps, p.carton.IsKnown)
    (hi : whole → i.IsKnown) : Signals whole (firstAccepting policy i ps) := by
  induction ps with
  | nil => exact .ok _
  | cons p ps ih =>
    have hp (h : whole) := List.forall_mem_cons.1 (hps h)
    exact (signals_accepts (fun h => (hp h).1) hi policy).bind fun _ =>
      .ite (.pure _) ((ih fun h => (hp h).2).bind fun _ => .pure _)

theorem tightestFrom_eq_none {best : Option Candidate}
    (h : tightestFrom policy i n best ps = .ok none) :
    best = none ∧ ∀ p ∈ ps, p.accepts i policy = .ok false := by
  induction ps generalizing n best with
  | nil =>
    obtain rfl : best = none := by simpa [tightestFrom] using h
    exact ⟨rfl, by simp⟩
  | cons p ps ih =>
    obtain ⟨accepted, ha, h⟩ := bind_eq_ok.1 h
    cases accepted with
    | true =>
      obtain ⟨remaining, -, h⟩ := bind_eq_ok.1 h
      exact absurd (ih h).1 (by simp)
    | false =>
      obtain ⟨rfl, hall⟩ := ih h
      exact ⟨rfl, List.forall_mem_cons.2 ⟨ha, hall⟩⟩

theorem tightestFrom_of_refused (h : ∀ p ∈ ps, p.accepts i policy = .ok false)
    (best : Option Candidate) : tightestFrom policy i n best ps = .ok best := by
  induction ps generalizing n with
  | nil => rfl
  | cons p ps ih =>
    obtain ⟨hp, hps⟩ := List.forall_mem_cons.1 h
    simp [tightestFrom, hp, ih hps]

/-- The better of two candidates is the new one, with strictly less left than the old one, or the
old one, with no more left than the new one. -/
theorem better_cases (best : Option Candidate) (c : Candidate) :
    (Candidate.better best c = c ∧ ∀ b ∈ best, c.remaining.toRat < b.remaining.toRat) ∨
      best = some (Candidate.better best c) ∧
        (Candidate.better best c).remaining.toRat ≤ c.remaining.toRat := by
  cases best with
  | none => exact .inl ⟨rfl, by simp⟩
  | some b =>
    by_cases h : c.remaining.lt b.remaining = true
    · refine .inl ⟨if_pos h, ?_⟩
      rw [Decimal.lt_iff] at h
      simpa using h
    · have hold : Candidate.better (some b) c = b := if_neg h
      rw [hold]
      exact .inr ⟨rfl, (Decimal.lt_eq_false_iff _ _).1 (by simpa using h)⟩

theorem better_le (best : Option Candidate) (c : Candidate) :
    (Candidate.better best c).remaining.toRat ≤ c.remaining.toRat ∧
      ∀ b ∈ best, (Candidate.better best c).remaining.toRat ≤ b.remaining.toRat := by
  rcases better_cases best c with ⟨heq, hlt⟩ | ⟨heq, hle⟩
  · rw [heq]
    exact ⟨le_rfl, fun b hb => (hlt b hb).le⟩
  · refine ⟨hle, fun b hb => ?_⟩
    rw [heq] at hb
    rw [Option.mem_some_iff.1 hb]

/-- The search ends with the best candidate so far, when no package that accepts the item has less
left, and otherwise with the tightest of the packages, which has less left than that candidate. -/
theorem tightestFrom_eq_some {best : Option Candidate} {c : Candidate}
    (h : tightestFrom policy i n best ps = .ok (some c)) :
    (best = some c ∧ ∀ p ∈ ps, p.accepts i policy = .ok true →
      ∃ r, p.remainingVolumeIn .centimeters = .ok r ∧ c.remaining.toRat ≤ r.toRat) ∨
    ∃ before p after, ps = before ++ p :: after ∧ c.position = n + before.length ∧
      p.remainingVolumeIn .centimeters = .ok c.remaining ∧ IsTightest policy i before p after ∧
        ∀ b ∈ best, c.remaining.toRat < b.remaining.toRat := by
  induction ps generalizing n best with
  | nil => exact .inl ⟨by simpa [tightestFrom] using h, by simp⟩
  | cons p ps ih =>
    obtain ⟨accepted, ha, h⟩ := bind_eq_ok.1 h
    cases accepted with
    | true =>
      obtain ⟨r, hr, h⟩ := bind_eq_ok.1 h
      obtain ⟨hnew, hold⟩ := better_le best ⟨n, r⟩
      rcases ih h with ⟨hbest, hrest⟩ | ⟨before, q, after, rfl, hc, hq, htightest, hless⟩
      · obtain rfl : Candidate.better best ⟨n, r⟩ = c := by simpa using hbest
        rcases better_cases best ⟨n, r⟩ with ⟨heq, hlt⟩ | ⟨heq, hle⟩
        · rw [heq] at hrest ⊢
          refine .inr ⟨[], p, ps, rfl, rfl, hr, ⟨ha, by simp, fun q hq haq => ?_⟩, hlt⟩
          obtain ⟨s, hs, hle⟩ := hrest q hq haq
          exact ⟨r, s, hr, hs, hle⟩
        · exact .inl ⟨heq, List.forall_mem_cons.2 ⟨fun _ => ⟨r, hr, hle⟩, hrest⟩⟩
      · have hlt : c.remaining.toRat < r.toRat := (hless _ rfl).trans_le hnew
        refine .inr ⟨p :: before, q, after, rfl, ?_, hq, ⟨htightest.admitted, ?_, htightest.after⟩,
          fun b hb => (hless _ rfl).trans_le (hold b hb)⟩
        · rw [hc, List.length_cons]
          omega
        · exact List.forall_mem_cons.2 ⟨fun _ => ⟨_, r, hq, hr, hlt⟩, htightest.before⟩
    | false =>
      have hrefuses : p.accepts i policy ≠ .ok true := by simp [ha]
      rcases ih h with ⟨hbest, hrest⟩ | ⟨before, q, after, rfl, hc, hq, htightest, hless⟩
      · exact .inl ⟨hbest, List.forall_mem_cons.2 ⟨fun hp => absurd hp hrefuses, hrest⟩⟩
      · refine .inr ⟨p :: before, q, after, rfl, ?_, hq, ⟨htightest.admitted, ?_, htightest.after⟩,
          hless⟩
        · rw [hc, List.length_cons]
          omega
        · exact List.forall_mem_cons.2 ⟨fun hp => absurd hp hrefuses, htightest.before⟩

theorem signals_tightestFrom (hps : whole → ∀ p ∈ ps, p.carton.IsKnown) (hi : whole → i.IsKnown)
    (n : ℕ) (best : Option Candidate) : Signals whole (tightestFrom policy i n best ps) := by
  induction ps generalizing n best with
  | nil => exact .ok _
  | cons p ps ih =>
    have hp (h : whole) := List.forall_mem_cons.1 (hps h)
    have hrest := ih fun h => (hp h).2
    exact (signals_accepts (fun h => (hp h).1) hi policy).bind fun _ =>
      .ite ((signals_remainingVolumeIn (fun h => (hp h).1) _).bind fun _ => hrest _ _) (hrest _ _)

/-- No package is chosen when all of them refuse the item, and only then. -/
theorem choose_eq_none_iff :
    choose policy i ps = .ok none ↔ ∀ p ∈ ps, p.accepts i policy = .ok false := by
  constructor
  · intro h
    unfold choose at h
    split_ifs at h
    · obtain ⟨best, hbest, h⟩ := bind_eq_ok.1 h
      cases best with
      | none => exact (tightestFrom_eq_none hbest).2
      | some => simp at h
    · exact firstAccepting_eq_none h
  · intro h
    simp [choose, tightestAccepting, firstAccepting_of_refused h, tightestFrom_of_refused h]

/-- The chosen package accepts the item. It is the oldest that does or, when the tightest fit is
looked for, the tightest. -/
theorem choose_eq_some (h : choose policy i ps = .ok (some n)) :
    ∃ before p after, ps = before ++ p :: after ∧ n = before.length ∧
      p.accepts i policy = .ok true ∧
        (policy.tightest = false → ∀ q ∈ before, q.accepts i policy = .ok false) ∧
        (policy.tightest = true → IsTightest policy i before p after) := by
  unfold choose at h
  split_ifs at h with htightest
  · obtain ⟨best, hbest, h⟩ := bind_eq_ok.1 h
    cases best with
    | none => simp at h
    | some c =>
      obtain rfl : c.position = n := by simpa using h
      obtain ⟨hnone, -⟩ | ⟨before, p, after, rfl, hc, -, hleast, -⟩ := tightestFrom_eq_some hbest
      · simp at hnone
      · exact ⟨before, p, after, rfl, by rw [hc, Nat.zero_add], hleast.admitted,
          by simp [htightest], fun _ => hleast⟩
  · obtain ⟨before, p, after, rfl, hn, ha, hbefore⟩ := firstAccepting_eq_some h
    exact ⟨before, p, after, rfl, hn, ha, fun _ => hbefore, by simp [htightest]⟩

/-- Why a package was chosen that stands behind some and before others. -/
theorem cases_of_choose {before after : List Package} {p : Package}
    (h : choose policy i (before ++ p :: after) = .ok (some before.length)) :
    policy.tightest = false ∧ (∀ b ∈ before, b.accepts i policy = .ok false) ∨
      policy.tightest = true ∧ IsTightest policy i before p after := by
  obtain ⟨before', p', after', heq, hlength, -, holdest, htightest⟩ := choose_eq_some h
  obtain ⟨rfl, hrest⟩ := List.append_inj heq hlength
  obtain ⟨rfl, rfl⟩ := List.cons.inj hrest
  cases hpolicy : policy.tightest with
  | false => exact .inl ⟨rfl, holdest hpolicy⟩
  | true => exact .inr ⟨rfl, htightest hpolicy⟩

theorem signals_choose (hps : whole → ∀ p ∈ ps, p.carton.IsKnown) (hi : whole → i.IsKnown) :
    Signals whole (choose policy i ps) :=
  .ite ((signals_tightestFrom hps hi 0 none).bind fun _ => .pure _) (signals_firstAccepting hps hi)

/-! ## Opening a package -/

/-- A new package is on the first carton that takes the item on its own. -/
theorem openPackage_eq_ok {p : Package} (h : openPackage policy i cartons = .ok p) :
    ∃ before c after, cartons = before ++ c :: after ∧ p = ofCarton c ∧
      (ofCarton c).accepts i policy = .ok true ∧
        ∀ b ∈ before, (ofCarton b).accepts i policy = .ok false := by
  induction cartons with
  | nil => simp [openPackage] at h
  | cons c cartons ih =>
    have hlater : (ofCarton c).accepts i policy = .ok false →
        openPackage policy i cartons = .ok p →
        ∃ before d after, c :: cartons = before ++ d :: after ∧ p = ofCarton d ∧
          (ofCarton d).accepts i policy = .ok true ∧
            ∀ b ∈ before, (ofCarton b).accepts i policy = .ok false := by
      intro hc h
      obtain ⟨before, d, after, rfl, hp, hd, hbefore⟩ := ih h
      exact ⟨c :: before, d, after, rfl, hp, hd, List.forall_mem_cons.2 ⟨hc, hbefore⟩⟩
    obtain ⟨fits, hfits, h⟩ := bind_eq_ok.1 h
    cases fits with
    | true =>
      obtain ⟨accepted, ha, h⟩ := bind_eq_ok.1 h
      cases accepted with
      | true => exact ⟨[], c, cartons, rfl, (pure_eq_ok.1 h).symm, ha, by simp⟩
      | false => exact hlater ha h
    | false => exact hlater (accepts_of_not_fits hfits) h

/-- The first carton is taken when a new package on it takes the item. -/
theorem openPackage_cons {c : Carton} {q : Package}
    (hfit : c.canFit i.dimensions i.weight = .ok true)
    (hadd : (ofCarton c).add i policy = .ok q) :
    openPackage policy i (c :: cartons) = .ok (ofCarton c) := by
  simp [openPackage, hfit, (add_eq_ok_iff.1 hadd).1]

/-- Opening a package breaks off, or fails because no carton takes the item on its own. -/
theorem openPackage_eq_error (hcartons : whole → ∀ c ∈ cartons, c.IsKnown)
    (hi : whole → i.IsWhole) (h : openPackage policy i cartons = .error f) :
    (f.IsSignal ∨ f.IsDefect ∧ ¬ whole) ∨ f = .domain (.infeasible i.sku) ∧
      ∀ c ∈ cartons, (ofCarton c).accepts i policy = .ok false := by
  have hknown (hwhole : whole) : i.IsKnown := (hi hwhole).toIsKnown
  induction cartons with
  | nil =>
    obtain ⟨hlong, rfl⟩ | ⟨-, rfl⟩ := Fallible.refuseShowing_eq_error.1 h
    · exact .inl (.inr ⟨trivial, fun hwhole => by simp [(hi hwhole).shown] at hlong⟩)
    · exact .inr ⟨rfl, by simp⟩
  | cons c cartons ih =>
    have hc (hwhole : whole) := List.forall_mem_cons.1 (hcartons hwhole)
    have hlater : (ofCarton c).accepts i policy = .ok false →
        openPackage policy i cartons = .error f →
        (f.IsSignal ∨ f.IsDefect ∧ ¬ whole) ∨ f = .domain (.infeasible i.sku) ∧
          ∀ d ∈ c :: cartons, (ofCarton d).accepts i policy = .ok false := fun hfalse h =>
      (ih (fun hwhole => (hc hwhole).2) h).imp_right fun ⟨hf, hall⟩ =>
        ⟨hf, List.forall_mem_cons.2 ⟨hfalse, hall⟩⟩
    obtain h | ⟨fits, hfits, h⟩ := bind_eq_error.1 h
    · exact .inl (Carton.signals_canFit (fun hwhole => (hc hwhole).1) hknown f h)
    cases fits with
    | true =>
      obtain h | ⟨accepted, ha, h⟩ := bind_eq_error.1 h
      · have hsides := fun hwhole => (hc hwhole).1
        exact .inl (signals_accepts (p := ofCarton c) hsides hknown policy f h)
      cases accepted with
      | true => simp at h
      | false => exact hlater ha h
    | false => exact hlater (accepts_of_not_fits hfits) h

/-! ## Placing an item -/

theorem addAt_append (before after : List Package) (p : Package) :
    addAt policy i before.length (before ++ p :: after) = (p.add i policy).map fun q =>
      before ++ q :: after := by
  induction before with
  | nil => cases h : p.add i policy <;> simp [addAt, h, Except.map]
  | cons b before ih =>
    rw [List.length_cons, List.cons_append, addAt, ih]
    cases p.add i policy <;> rfl

/-- The packages after an item has been placed: it is added to the one that was chosen, or, if none
was, to a new one at the end. -/
inductive Placed (policy : Policy) (cartons : List Carton) (i : Item) :
    List Package → List Package → Prop
  | inserted {before after : List Package} {p q : Package}
      (hchoose : choose policy i (before ++ p :: after) = .ok (some before.length))
      (hadd : p.add i policy = .ok q) :
      Placed policy cartons i (before ++ p :: after) (before ++ q :: after)
  | opened {ps : List Package} {c : Carton} {q : Package}
      (hchoose : choose policy i ps = .ok none)
      (hopen : openPackage policy i cartons = .ok (ofCarton c))
      (hadd : (ofCarton c).add i policy = .ok q) : Placed policy cartons i ps (ps ++ [q])

/-- **What placing an item does.** -/
theorem place_eq_ok_iff : place policy cartons ps i = .ok ps' ↔ Placed policy cartons i ps ps' := by
  constructor
  · intro h
    obtain ⟨chosen, hchoose, h⟩ := bind_eq_ok.1 h
    cases chosen with
    | some n =>
      obtain ⟨before, p, after, rfl, rfl, ha, -⟩ := choose_eq_some hchoose
      obtain ⟨q, hq⟩ := exists_add ha
      simp only [addAt_append, hq, Except.map, Except.ok.injEq] at h
      exact h ▸ .inserted hchoose hq
    | none =>
      obtain ⟨fresh, hopen, h⟩ := bind_eq_ok.1 h
      obtain ⟨-, c, -, -, rfl, -⟩ := openPackage_eq_ok hopen
      obtain ⟨q, hq, h⟩ := bind_eq_ok.1 h
      exact pure_eq_ok.1 h ▸ .opened hchoose hopen hq
  · rintro (⟨hchoose, hadd⟩ | ⟨hchoose, hopen, hadd⟩)
    · rw [place, hchoose, ok_bind]
      simp only [addAt_append, hadd, Except.map]
    · rw [place, hchoose, ok_bind]
      simp [hopen, hadd]

/-- **How placing an item fails.** -/
theorem place_eq_error (hcartons : whole → ∀ c ∈ cartons, c.IsKnown)
    (hps : whole → ∀ p ∈ ps, p.carton.IsKnown) (hi : whole → i.IsWhole)
    (h : place policy cartons ps i = .error f) :
    (f.IsSignal ∨ f.IsDefect ∧ ¬ whole) ∨ f = .domain (.infeasible i.sku) ∧
      ∀ c ∈ cartons, (ofCarton c).accepts i policy = .ok false := by
  obtain h | ⟨chosen, hchoose, h⟩ := bind_eq_error.1 h
  · exact .inl (signals_choose hps (fun hwhole => (hi hwhole).toIsKnown) f h)
  cases chosen with
  | some n =>
    obtain ⟨before, p, after, rfl, rfl, ha, -⟩ := choose_eq_some hchoose
    obtain ⟨q, hq⟩ := exists_add ha
    simp [addAt_append, hq, Except.map] at h
  | none =>
    obtain h | ⟨fresh, hopen, h⟩ := bind_eq_error.1 h
    · exact openPackage_eq_error hcartons hi h
    obtain ⟨-, c, -, -, rfl, ha, -⟩ := openPackage_eq_ok hopen
    obtain ⟨q, hq⟩ := exists_add ha
    simp [hq] at h

/-! ## Policies that accept alike

Of a policy, placing an item reads how an open package is looked for, and otherwise only which
packages accept the item. -/

theorem firstAccepting_congr (h : ∀ p ∈ ps, p.accepts i policy = p.accepts i policy') :
    firstAccepting policy i ps = firstAccepting policy' i ps := by
  induction ps with
  | nil => rfl
  | cons p ps ih =>
    obtain ⟨hp, hps⟩ := List.forall_mem_cons.1 h
    rw [firstAccepting, firstAccepting, hp, ih hps]

theorem tightestFrom_congr (h : ∀ p ∈ ps, p.accepts i policy = p.accepts i policy')
    (best : Option Candidate) :
    tightestFrom policy i n best ps = tightestFrom policy' i n best ps := by
  induction ps generalizing n best with
  | nil => rfl
  | cons p ps ih =>
    obtain ⟨hp, hps⟩ := List.forall_mem_cons.1 h
    simp only [tightestFrom, hp, ih hps]

theorem choose_congr (htightest : policy.tightest = policy'.tightest)
    (h : ∀ p ∈ ps, p.accepts i policy = p.accepts i policy') :
    choose policy i ps = choose policy' i ps := by
  rw [choose, choose, htightest, tightestAccepting, tightestAccepting, tightestFrom_congr h,
    firstAccepting_congr h]

theorem openPackage_congr
    (h : ∀ c ∈ cartons, (ofCarton c).accepts i policy = (ofCarton c).accepts i policy') :
    openPackage policy i cartons = openPackage policy' i cartons := by
  induction cartons with
  | nil => rfl
  | cons c cartons ih =>
    obtain ⟨hc, hcartons⟩ := List.forall_mem_cons.1 h
    rw [openPackage, openPackage, hc, ih hcartons]

theorem add_congr {p : Package} (h : p.accepts i policy = p.accepts i policy') :
    p.add i policy = p.add i policy' := by
  rw [add, add, h]

theorem addAt_congr (h : ∀ p ∈ ps, p.accepts i policy = p.accepts i policy') :
    addAt policy i n ps = addAt policy' i n ps := by
  induction ps generalizing n with
  | nil => cases n <;> rfl
  | cons p ps ih =>
    obtain ⟨hp, hps⟩ := List.forall_mem_cons.1 h
    cases n with
    | zero => rw [addAt, addAt, add_congr hp]
    | succ n => rw [addAt, addAt, ih hps]

/-- **Policies that accept alike place alike.** -/
theorem place_congr (htightest : policy.tightest = policy'.tightest)
    (hopen : ∀ p ∈ ps, p.accepts i policy = p.accepts i policy')
    (hfresh : ∀ c ∈ cartons, (ofCarton c).accepts i policy = (ofCarton c).accepts i policy') :
    place policy cartons ps i = place policy' cartons ps i := by
  rw [place, place, choose_congr htightest hopen]
  cases choose policy' i ps with
  | error f => rfl
  | ok chosen =>
    cases chosen with
    | some n => exact addAt_congr hopen
    | none =>
      simp only [ok_bind, openPackage_congr hfresh]
      cases hp : openPackage policy' i cartons with
      | error f => rfl
      | ok p =>
        obtain ⟨before, c, after, rfl, rfl, -⟩ := openPackage_eq_ok hp
        rw [ok_bind, ok_bind, add_congr (hfresh c (by simp))]

end Stowage.Packing
