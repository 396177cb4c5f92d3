import Stowage.Proofs.Decimal.Error

/-!
# Sums of decimals

A sum is rounded after each addition. Numbers that are not huge can always be added up
(`exists_sum`). Unless an addition underflows, the sum differs from the exact one by a factor of at
most `drift` for each addition and the factor by which the summands differ from the exact ones
(`within_sum`).
-/

namespace Stowage.Decimal

/-! ## Numbers within a factor -/

/-- Neither number is more than `k` times the other. -/
def Within (k x y : ℚ) : Prop := x ≤ k * y ∧ y ≤ k * x

variable {j k x y z u v c : ℚ}

namespace Within

theorem refl (hk : 1 ≤ k) (hx : 0 ≤ x) : Within k x x :=
  ⟨le_mul_of_one_le_left hx hk, le_mul_of_one_le_left hx hk⟩

theorem nonneg (h : Within k x y) (hk : 0 < k) (hy : 0 ≤ y) : 0 ≤ x :=
  nonneg_of_mul_nonneg_right (hy.trans h.2) hk

theorem mono (h : Within j x y) (hjk : j ≤ k) (hx : 0 ≤ x) (hy : 0 ≤ y) : Within k x y :=
  ⟨h.1.trans (mul_le_mul_of_nonneg_right hjk hy), h.2.trans (mul_le_mul_of_nonneg_right hjk hx)⟩

theorem trans (h : Within j x y) (h' : Within k y z) (hj : 0 ≤ j) (hk : 0 ≤ k) :
    Within (j * k) x z := by
  constructor
  · calc x ≤ j * y := h.1
      _ ≤ j * (k * z) := mul_le_mul_of_nonneg_left h'.1 hj
      _ = j * k * z := (mul_assoc j k z).symm
  · calc z ≤ k * y := h'.2
      _ ≤ k * (j * x) := mul_le_mul_of_nonneg_left h.2 hk
      _ = j * k * x := by ring

theorem add (h : Within k x y) (h' : Within k u v) : Within k (x + u) (y + v) := by
  constructor
  · linarith [h.1, h'.1]
  · linarith [h.2, h'.2]

theorem sum {α : Type} {f g : α → ℚ} {xs : List α} (h : ∀ a ∈ xs, Within k (f a) (g a)) :
    Within k (xs.map f).sum (xs.map g).sum := by
  induction xs with
  | nil => simp [Within]
  | cons a xs ih =>
    obtain ⟨ha, hxs⟩ := List.forall_mem_cons.1 h
    simpa using ha.add (ih hxs)

theorem mul_right (h : Within k x y) (hc : 0 ≤ c) : Within k (x * c) (y * c) := by
  constructor
  · simpa only [mul_assoc] using mul_le_mul_of_nonneg_right h.1 hc
  · simpa only [mul_assoc] using mul_le_mul_of_nonneg_right h.2 hc

/-- The difference of numbers within a factor, as a share of the second. -/
theorem abs_sub_le (h : Within (1 + c) x y) (hc : c ≤ 1) (hx : 0 ≤ x) : |x - y| ≤ y * c := by
  have hupper := h.1
  have hlower := mul_le_mul_of_nonneg_left h.2 (sub_nonneg.2 hc)
  have hsquare := mul_nonneg (mul_self_nonneg c) hx
  rw [abs_le]
  constructor <;> linarith

end Within

theorem within_nearest (hx : 0 ≤ x) (h : ¬ Underflows x) : Within drift (nearest x) x :=
  ⟨nearest_le_drift_mul_of_not_underflows hx h, le_drift_mul_nearest_of_not_underflows hx h⟩

/-- Roundings by the thousand matter for next to nothing. -/
theorem drift_pow_le {n : ℕ} (hn : n ≤ 10 ^ 5) : drift ^ n ≤ 1 + 10 ^ (-20 : ℤ) := by
  have hbernoulli := one_add_mul_le_pow (a := -(10 : ℚ) ^ (-27 : ℤ)) (by norm_num) n
  have hn' : (n : ℚ) ≤ 10 ^ 5 := by exact_mod_cast hn
  have hpow := pow_pos drift_pos n
  -- the factors of `drift` are undone, and a little more, by as many factors just below one
  have hundone : drift ^ n * (1 + -(10 : ℚ) ^ (-27 : ℤ)) ^ n ≤ 1 := by
    rw [← mul_pow]
    exact pow_le_one₀ (by norm_num [drift]) (by norm_num [drift])
  have hle := (mul_le_mul_of_nonneg_left hbernoulli hpow.le).trans hundone
  have hshare : (n : ℚ) * 10 ^ (-27 : ℤ) ≤ 10 ^ (-22 : ℤ) := by
    norm_num
    linarith
  have hlow := mul_le_mul_of_nonneg_left hshare hpow.le
  norm_num at hle hlow ⊢
  linarith

/-! ## Numbers that can be added -/

/-- The number is a multiple of the least positive one. -/
def OnGrid (x : ℚ) : Prop := ∃ n : ℕ, x = n * 10 ^ tiniest

/-- What has been rounded is a multiple of the least number. -/
theorem onGrid_nearest (x : ℚ) : OnGrid (nearest x) := by
  refine ⟨Rounding.halfEven.nearest (x / 10 ^ place x) * 10 ^ (place x - tiniest).toNat, ?_⟩
  push_cast
  rw [nearest, ten_pow_toNat (tiniest_le_place x), mul_assoc,
    div_mul_cancel₀ _ (ten_zpow_pos tiniest).ne']

theorem OnGrid.add (hx : OnGrid x) (hy : OnGrid y) : OnGrid (x + y) := MultipleOf.add hx hy

/-- Multiples of the least number do not underflow: where they are small, no digit is lost. -/
theorem OnGrid.not_underflows (hx : OnGrid x) : ¬ Underflows x := by
  rintro ⟨hsmall, hlost⟩
  obtain ⟨n, rfl⟩ := hx
  refine hlost (nearest_eq_self n rfl ?_ le_rfl)
  rw [add_comm, ten_zpow_add, mul_lt_mul_iff_of_pos_right (ten_zpow_pos tiniest)] at hsmall
  have hn : (n : ℚ) ≤ ((10 ^ 28 : ℕ) : ℚ) := by
    norm_num at hsmall ⊢
    linarith
  exact Nat.cast_le.1 hn

/-- No addition underflows when the numbers are added up from left to right. -/
def AddsUp (xs : List Decimal) : Prop :=
  ∀ before x after u, xs = before ++ x :: after → Decimal.sum before = .ok u →
    ¬ Underflows (u.toRat + x.toRat)

/-- A sum of numbers that are not negative is not negative, and has been rounded. -/
theorem nonneg_of_sum {xs : List Decimal} {t : Decimal} (hxs : ∀ x ∈ xs, 0 ≤ x.toRat)
    (h : Decimal.sum xs = .ok t) : 0 ≤ t.toRat ∧ OnGrid t.toRat := by
  induction xs using List.reverseRecOn generalizing t with
  | nil =>
    cases h
    exact ⟨toRat_zero.ge, 0, by simp⟩
  | append_singleton xs x ih =>
    obtain ⟨u, hu, ht⟩ := foldlM_concat_eq_ok.1 h
    obtain ⟨hxs, hx⟩ := List.forall_mem_append.1 hxs
    have hsum := add_nonneg (ih hxs hu).1 (hx x List.mem_cons_self)
    rw [(add_rounds u x).toRat_eq ht, rounded_of_nonneg hsum]
    exact ⟨nearest_nonneg _, onGrid_nearest _⟩

/-- Numbers that are already rounded can be added up. -/
theorem addsUp_of_onGrid {xs : List Decimal} (hxs : ∀ x ∈ xs, 0 ≤ x.toRat ∧ OnGrid x.toRat) :
    AddsUp xs := by
  rintro before x after u rfl hu
  have hbefore := (nonneg_of_sum (fun y hy => (hxs y (by simp [hy])).1) hu).2
  exact (hbefore.add (hxs x (by simp)).2).not_underflows

/-- Numbers that are not tiny can be added up. -/
theorem addsUp_of_le {xs : List Decimal} (hxs : ∀ x ∈ xs, 10 ^ (-99 : ℤ) ≤ x.toRat) :
    AddsUp xs := by
  rintro before x after u rfl hu
  have hbefore := (nonneg_of_sum (fun y hy =>
    (ten_zpow_pos _).le.trans (hxs y (by simp [hy]))) hu).1
  exact not_underflows ((hxs x (by simp)).trans (le_add_of_nonneg_left hbefore))

/-- **Numbers that are not huge can be added up.** -/
theorem exists_sum {xs : List Decimal} {e : ℤ} (he : tiniest ≤ e) (htop : e ≤ topExponent - 2)
    (hlength : xs.length ≤ 10 ^ 28) (hxs : ∀ x ∈ xs, 0 ≤ x.toRat ∧ x.toRat ≤ 10 ^ e) :
    ∃ t, Decimal.sum xs = .ok t ∧ 0 ≤ t.toRat ∧ t.toRat ≤ xs.length * 10 ^ e := by
  induction xs using List.reverseRecOn with
  | nil => exact ⟨zero, rfl, by simp⟩
  | append_singleton xs x ih =>
    obtain ⟨hxs, hx⟩ := List.forall_mem_append.1 hxs
    obtain ⟨hx0, hx1⟩ := hx x List.mem_cons_self
    rw [List.length_append, List.length_singleton] at hlength ⊢
    obtain ⟨t, ht, ht0, hle⟩ := ih (by omega) hxs
    have hsum : t.toRat + x.toRat ≤ (xs.length + 1 : ℕ) * 10 ^ e := by
      push_cast
      linarith
    have hcount : ((xs.length + 1 : ℕ) : ℚ) ≤ 10 ^ (28 : ℤ) := by exact_mod_cast hlength
    have hhuge : t.toRat + x.toRat < 10 ^ (e + 29) :=
      calc t.toRat + x.toRat ≤ 10 ^ (28 : ℤ) * 10 ^ e :=
            hsum.trans (mul_le_mul_of_nonneg_right hcount (ten_zpow_pos e).le)
        _ = 10 ^ (e + 28) := by rw [← ten_zpow_add, add_comm]
        _ < 10 ^ (e + 29) := zpow_lt_zpow_right₀ (by norm_num) (by omega)
    obtain ⟨s, hs, hval⟩ := (add_rounds t x).exists_ok (by
      rw [abs_of_nonneg (add_nonneg ht0 hx0)]
      exact lt_limit_of_lt (by omega) hhuge)
    rw [rounded_of_nonneg (add_nonneg ht0 hx0)] at hval
    refine ⟨s, foldlM_concat_eq_ok.2 ⟨t, ht, hs⟩, hval ▸ nearest_nonneg _, ?_⟩
    rw [hval]
    -- the bound has at most 28 digits, so that rounding does not lead beyond it
    calc nearest (t.toRat + x.toRat) ≤ nearest ((xs.length + 1 : ℕ) * 10 ^ e) :=
          nearest_mono (add_nonneg ht0 hx0) hsum
      _ = (xs.length + 1 : ℕ) * 10 ^ e := nearest_eq_self _ rfl hlength he

/-! ## The error of a sum -/

/-- The error of adding numbers to one that has been added up. -/
theorem within_foldlM {xs : List Decimal} {ys : List ℚ} {s t : Decimal} {n : ℕ} (hk : 1 ≤ k)
    (hs : Within (k * drift ^ n) s.toRat y) (hy : 0 ≤ y)
    (h : List.Forall₂ (fun x y => 0 ≤ y ∧ Within k x.toRat y) xs ys)
    (hadds : ∀ before x after u, xs = before ++ x :: after → before.foldlM add s = .ok u →
      ¬ Underflows (u.toRat + x.toRat))
    (ht : xs.foldlM add s = .ok t) :
    Within (k * drift ^ (n + xs.length)) t.toRat (y + ys.sum) := by
  induction h generalizing s y n with
  | nil =>
    cases ht
    simpa using hs
  | @cons x z xs ys hxz _ ih =>
    obtain ⟨hz, hx⟩ := hxz
    rw [List.foldlM_cons] at ht
    obtain ⟨u, hu, ht⟩ := bind_eq_ok.1 ht
    have hkn : 0 < k * drift ^ n := mul_pos (by linarith) (pow_pos drift_pos n)
    have hx0 := hx.nonneg (by linarith) hz
    have hsum0 := add_nonneg (hs.nonneg hkn hy) hx0
    -- the number that comes next is at least as close as what has been added up
    have hsum : Within (k * drift ^ n) (s.toRat + x.toRat) (y + z) :=
      hs.add (hx.mono (le_mul_of_one_le_right (by linarith) (one_le_pow₀ one_le_drift)) hx0 hz)
    have hround : Within (k * drift ^ (n + 1)) u.toRat (y + z) := by
      have hnear := within_nearest hsum0 (hadds [] x xs s rfl rfl)
      rw [← rounded_of_nonneg hsum0, ← (add_rounds s x).toRat_eq hu] at hnear
      have htrans := hnear.trans hsum drift_pos.le hkn.le
      rwa [mul_left_comm, ← pow_succ'] at htrans
    have hrest := ih hround (add_nonneg hy hz) (fun before x' after v hxs hv =>
      hadds (x :: before) x' after v (by rw [hxs, List.cons_append]) (by
        rw [List.foldlM_cons, hu, ok_bind, hv])) ht
    rwa [List.length_cons, List.sum_cons, ← add_assoc y, add_comm xs.length 1, ← add_assoc n]

/-- **The error of a sum** of measures: a factor of `drift` for each addition. -/
theorem within_sum {α : Type} {measure : α → Fallible Decimal} {exact : α → ℚ} {as : List α}
    {xs : List Decimal} {t : Decimal} (hk : 1 ≤ k)
    (h : ∀ a ∈ as, ∀ x, measure a = .ok x → 0 ≤ exact a ∧ Within k x.toRat (exact a))
    (hxs : as.mapM measure = .ok xs) (hadds : AddsUp xs) (ht : Decimal.sum xs = .ok t) :
    Within (k * drift ^ as.length) t.toRat (as.map exact).sum := by
  have hzero : Within (k * drift ^ 0) zero.toRat 0 := by simp [Within]
  have hall : List.Forall₂ (fun x y => 0 ≤ y ∧ Within k x.toRat y) xs (as.map exact) :=
    List.forall₂_map_right_iff.2 (forall₂_of_mapM h hxs).flip
  rw [length_of_mapM hxs]
  simpa using within_foldlM hk hzero le_rfl hall hadds ht

end Stowage.Decimal
