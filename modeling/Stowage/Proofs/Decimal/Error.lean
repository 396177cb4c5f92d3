import Stowage.Proofs.Decimal.Rounds
import Stowage.Proofs.Failure.Fallible

/-!
# The error of decimal arithmetic

Rounding to 28 digits changes a number by a factor of at most `drift` (`nearest_le_drift_mul`,
`le_drift_mul_nearest`), unless it underflows. Below the largest numbers a product and a rounding to
hundredths have a result (`exists_mul`, `exists_quantize`). Sums of multiples of one place, such as
hundredths, are not rounded at all as long as 28 digits are enough for them
(`toRat_sum_of_multipleOf`, `toRat_sum`).
-/

namespace Stowage.Decimal

/-! ## Rounding once -/

/-- The factor by which a rounding may change a number. -/
def drift : ℚ := 1 + 10 ^ (-27 : ℤ)

theorem one_le_drift : 1 ≤ drift := by norm_num [drift]

theorem drift_pos : 0 < drift := by norm_num [drift]

theorem drift_le_two : drift ≤ 2 := by norm_num [drift]

/-- What eight roundings amount to. -/
theorem drift_pow_eight_le : drift ^ 8 ≤ 1 + 10 ^ (-26 : ℤ) := by norm_num [drift]

variable {x : ℚ}

theorem drift_mul (x : ℚ) : drift * x = x + x * 10 ^ (-27 : ℤ) := by
  rw [drift]
  ring

/-- The last place kept of a number that is not tiny is 27 places below its leading digit. -/
theorem ten_zpow_place_le (hx : 10 ^ (tiniest + 27) ≤ x) :
    10 ^ place x ≤ x * 10 ^ (-27 : ℤ) := by
  have hx0 : 0 < x := (ten_zpow_pos _).trans_le hx
  have hlog := (ten_zpow_le_iff hx0).1 hx
  have hplace : place x = Int.log 10 x + -27 := by
    rw [place, max_eq_left (by omega)]
    rfl
  rw [hplace, ten_zpow_add]
  exact mul_le_mul_of_nonneg_right (ten_zpow_log_le hx0) (ten_zpow_pos _).le

/-- A result is below the least power of ten that 28 digits can be kept of, and loses some of its
digits. -/
def Underflows (x : ℚ) : Prop := x < 10 ^ (tiniest + 27) ∧ nearest x ≠ x

theorem not_underflows (h : 10 ^ (-99 : ℤ) ≤ x) : ¬ Underflows x := fun hx =>
  ((ten_zpow_le (by decide)).trans h).not_gt hx.1

/-- What does not underflow keeps 28 digits, or all that it has. -/
theorem ten_zpow_le_or_nearest_eq (h : ¬ Underflows x) :
    10 ^ (tiniest + 27) ≤ x ∨ nearest x = x := by
  rcases lt_or_ge x (10 ^ (tiniest + 27)) with hlow | hhigh
  · exact .inr (by_contra fun hne => h ⟨hlow, hne⟩)
  · exact .inl hhigh

theorem nearest_le_drift_mul_of_not_underflows (hx : 0 ≤ x) (h : ¬ Underflows x) :
    nearest x ≤ drift * x := by
  rcases ten_zpow_le_or_nearest_eq h with hhigh | hself
  · have hpow := ten_zpow_pos (place x)
    have hround := mul_le_mul_of_nonneg_right (Rounding.nearest_le_add_half (m := .halfEven)
      (div_place_nonneg hx)) hpow.le
    rw [add_mul, div_mul_cancel₀ _ hpow.ne', ← nearest] at hround
    have hplace := ten_zpow_place_le hhigh
    rw [drift_mul]
    linarith
  · rw [hself]
    exact le_mul_of_one_le_left hx one_le_drift

theorem le_drift_mul_nearest_of_not_underflows (hx : 0 ≤ x) (h : ¬ Underflows x) :
    x ≤ drift * nearest x := by
  rcases ten_zpow_le_or_nearest_eq h with hhigh | hself
  · have hpow := ten_zpow_pos (place x)
    have hround := mul_le_mul_of_nonneg_right (Rounding.le_nearest_add_half (m := .halfEven)
      (div_place_nonneg hx)) hpow.le
    rw [add_mul, div_mul_cancel₀ _ hpow.ne', ← nearest] at hround
    have hplace := ten_zpow_place_le hhigh
    have hhalf : x ≤ 2 * nearest x := by norm_num at hplace; linarith
    have hshare := mul_le_mul_of_nonneg_right hhalf (ten_zpow_pos (-27)).le
    rw [drift_mul]
    linarith
  · rw [hself]
    exact le_mul_of_one_le_left hx one_le_drift

theorem nearest_le_drift_mul (hx : 10 ^ (-99 : ℤ) ≤ x) : nearest x ≤ drift * x :=
  nearest_le_drift_mul_of_not_underflows ((ten_zpow_pos _).le.trans hx) (not_underflows hx)

theorem le_drift_mul_nearest (hx : 10 ^ (-99 : ℤ) ≤ x) : x ≤ drift * nearest x :=
  le_drift_mul_nearest_of_not_underflows ((ten_zpow_pos _).le.trans hx) (not_underflows hx)

/-- Only what underflows may be rounded to zero. -/
theorem nearest_pos (hx : 0 < x) (h : ¬ Underflows x) : 0 < nearest x := by
  have hround := le_drift_mul_nearest_of_not_underflows hx.le h
  exact pos_of_mul_pos_right (hx.trans_le hround) drift_pos.le

/-! ## What has a result -/

/-- A result neither underflows nor overflows. -/
def InBounds (x : ℚ) : Prop := ¬ Underflows x ∧ x < limit

/-- Rounding does not lead beyond a whole number of at most 28 digits. -/
theorem nearest_le_natCast {n : ℕ} (hx : 0 ≤ x) (h : x ≤ n) (hn : n ≤ 10 ^ 28) : nearest x ≤ n := by
  have hself : nearest (n : ℚ) = n := nearest_eq_self n (e := 0) (by simp) hn (by decide)
  exact (nearest_mono hx h).trans_eq hself

/-- A product that is not huge has a result. -/
theorem exists_mul {a b : Decimal} (ha : 0 ≤ a.toRat) (hb : 0 ≤ b.toRat)
    (h : a.toRat * b.toRat < 10 ^ (30 : ℤ)) :
    ∃ c, a.mul b = .ok c ∧ c.toRat = nearest (a.toRat * b.toRat) := by
  have hab := mul_nonneg ha hb
  have hlimit : |a.toRat * b.toRat| < limit := by
    rw [abs_of_nonneg hab]
    exact lt_limit_of_lt (by decide) h
  obtain ⟨c, hc, hv⟩ := (mul_rounds a b).exists_ok hlimit
  exact ⟨c, hc, hv.trans (rounded_of_nonneg hab)⟩

/-- A number with few enough digits before the point can be rounded to hundredths. -/
theorem exists_quantize {x : Decimal} (hx : 0 ≤ x.toRat) (h : x.toRat ≤ 9 * 10 ^ (25 : ℤ)) :
    ∃ v, x.quantize (-2) = .ok v := by
  have hup := Rounding.nearest_le_add_half (m := .halfUp) (div_nonneg hx (ten_zpow_pos (-2)).le)
  have hlt : (Rounding.halfUp.nearest (x.toRat / 10 ^ (-2 : ℤ)) : ℚ) < ((10 ^ 28 : ℕ) : ℚ) := by
    refine hup.trans_lt ?_
    norm_num at h ⊢
    linarith
  obtain ⟨v, hv, -⟩ := (quantize_quantizes x (e := -2) (by decide) (by decide)).exists_ok
    (by rw [abs_of_nonneg hx]; exact Nat.cast_lt.1 hlt)
  exact ⟨v, hv⟩

/-! ## A product of three -/

section Product

variable {a b c : ℚ}

/-- A product of numbers that are not tiny is not tiny either, once it is rounded. -/
theorem ten_zpow_le_nearest_mul (ha : 10 ^ (-20 : ℤ) ≤ a) (hb : 10 ^ (-20 : ℤ) ≤ b) :
    10 ^ (-40 : ℤ) ≤ a * b ∧ 10 ^ (-50 : ℤ) ≤ nearest (a * b) := by
  have hab : 10 ^ (-40 : ℤ) ≤ a * b :=
    calc (10 : ℚ) ^ (-40 : ℤ) = 10 ^ (-20 : ℤ) * 10 ^ (-20 : ℤ) := by rw [← ten_zpow_add]; rfl
      _ ≤ a * b := mul_le_mul ha hb (ten_zpow_pos _).le ((ten_zpow_pos _).le.trans ha)
  have hround := le_drift_mul_nearest ((ten_zpow_le (by norm_num)).trans hab)
  have hdrift := mul_le_mul_of_nonneg_right drift_le_two (nearest_nonneg (a * b))
  have htwice : (10 : ℚ) ^ (-40 : ℤ) ≤ 2 * nearest (a * b) := hab.trans (hround.trans hdrift)
  refine ⟨hab, ?_⟩
  norm_num at htwice ⊢
  linarith

theorem ten_zpow_le_nearest_mul_mul (ha : 10 ^ (-20 : ℤ) ≤ a) (hb : 10 ^ (-20 : ℤ) ≤ b)
    (hc : 10 ^ (-20 : ℤ) ≤ c) : 10 ^ (-99 : ℤ) ≤ nearest (a * b) * c :=
  calc (10 : ℚ) ^ (-99 : ℤ) ≤ 10 ^ (-70 : ℤ) := ten_zpow_le (by norm_num)
    _ = 10 ^ (-50 : ℤ) * 10 ^ (-20 : ℤ) := by rw [← ten_zpow_add]; rfl
    _ ≤ nearest (a * b) * c := mul_le_mul (ten_zpow_le_nearest_mul ha hb).2 hc
        (ten_zpow_pos _).le (nearest_nonneg _)

/-- Two roundings take a factor of at most `drift` each from a product. -/
theorem mul_mul_le_drift (ha : 10 ^ (-20 : ℤ) ≤ a) (hb : 10 ^ (-20 : ℤ) ≤ b)
    (hc : 10 ^ (-20 : ℤ) ≤ c) : a * b * c ≤ drift ^ 2 * nearest (nearest (a * b) * c) := by
  have hab := (ten_zpow_le_nearest_mul ha hb).1
  have hc0 : 0 ≤ c := (ten_zpow_pos _).le.trans hc
  calc a * b * c ≤ drift * nearest (a * b) * c := mul_le_mul_of_nonneg_right
        (le_drift_mul_nearest ((ten_zpow_le (by norm_num)).trans hab)) hc0
    _ = drift * (nearest (a * b) * c) := mul_assoc _ _ _
    _ ≤ drift * (drift * nearest (nearest (a * b) * c)) := mul_le_mul_of_nonneg_left
        (le_drift_mul_nearest (ten_zpow_le_nearest_mul_mul ha hb hc)) drift_pos.le
    _ = drift ^ 2 * nearest (nearest (a * b) * c) := by ring

/-- Two roundings add a factor of at most `drift` each to a product. -/
theorem le_drift_mul_mul (ha : 10 ^ (-20 : ℤ) ≤ a) (hb : 10 ^ (-20 : ℤ) ≤ b)
    (hc : 10 ^ (-20 : ℤ) ≤ c) : nearest (nearest (a * b) * c) ≤ drift ^ 2 * (a * b * c) := by
  have hab := (ten_zpow_le_nearest_mul ha hb).1
  have hc0 : 0 ≤ c := (ten_zpow_pos _).le.trans hc
  have harea := nearest_le_drift_mul ((ten_zpow_le (by norm_num)).trans hab)
  calc nearest (nearest (a * b) * c) ≤ drift * (nearest (a * b) * c) :=
        nearest_le_drift_mul (ten_zpow_le_nearest_mul_mul ha hb hc)
    _ ≤ drift * (drift * (a * b) * c) := mul_le_mul_of_nonneg_left
        (mul_le_mul_of_nonneg_right harea hc0) drift_pos.le
    _ = drift ^ 2 * (a * b * c) := by ring

end Product

/-! ## Multiples of a place -/

section Multiples

variable {e : ℤ} {y : ℚ}

/-- A natural number of units of a place. -/
def MultipleOf (e : ℤ) (x : ℚ) : Prop := ∃ n : ℕ, x = n * 10 ^ e

theorem multipleOf_atPlace (e : ℤ) (x : ℚ) : MultipleOf e (atPlace e x) := ⟨_, rfl⟩

theorem MultipleOf.nonneg (h : MultipleOf e x) : 0 ≤ x := by
  obtain ⟨n, rfl⟩ := h
  exact mul_nonneg (Nat.cast_nonneg n) (ten_zpow_pos _).le

theorem MultipleOf.add (hx : MultipleOf e x) (hy : MultipleOf e y) : MultipleOf e (x + y) := by
  obtain ⟨m, rfl⟩ := hx
  obtain ⟨n, rfl⟩ := hy
  refine ⟨m + n, ?_⟩
  push_cast
  ring

/-- A multiple that 28 digits are enough for is not rounded. -/
theorem MultipleOf.nearest_eq (h : MultipleOf e x) (he : tiniest ≤ e) (hx : x ≤ 10 ^ (28 + e)) :
    nearest x = x := by
  obtain ⟨n, rfl⟩ := h
  refine nearest_eq_self n rfl ?_ he
  rw [ten_zpow_add, mul_le_mul_iff_of_pos_right (ten_zpow_pos e)] at hx
  exact_mod_cast hx

/-- **A sum of multiples of a place is exact** as long as 28 digits are enough for it. -/
theorem toRat_sum_of_multipleOf {xs : List Decimal} {u : Decimal} (he : tiniest ≤ e)
    (hxs : ∀ x ∈ xs, MultipleOf e x.toRat) (hle : (xs.map toRat).sum ≤ 10 ^ (28 + e))
    (h : Decimal.sum xs = .ok u) : u.toRat = (xs.map toRat).sum ∧ MultipleOf e u.toRat := by
  induction xs using List.reverseRecOn generalizing u with
  | nil =>
    cases h
    exact ⟨toRat_zero, 0, by simp⟩
  | append_singleton xs x ih =>
    obtain ⟨t, ht, hu⟩ := foldlM_concat_eq_ok.1 h
    simp only [List.map_append, List.map_cons, List.map_nil, List.sum_append, List.sum_singleton]
      at hle ⊢
    have hx := hxs x (by simp)
    have hrest := ih (fun y hy => hxs y (by simp [hy])) (by linarith [hx.nonneg]) ht
    have hsum := hrest.2.add hx
    rw [(add_rounds t x).toRat_eq hu, rounded_of_nonneg hsum.nonneg,
      hsum.nearest_eq he (by rw [hrest.1]; exact hle), ← hrest.1]
    exact ⟨rfl, hsum⟩

end Multiples

/-! ## Hundredths -/

/-- A number of hundredths. -/
def IsHundredths (x : ℚ) : Prop := ∃ n : ℕ, x = n * 10 ^ (-2 : ℤ)

theorem isHundredths_atPlace (x : ℚ) : IsHundredths (atPlace (-2) x) := multipleOf_atPlace _ _

theorem IsHundredths.nonneg (h : IsHundredths x) : 0 ≤ x := MultipleOf.nonneg h

theorem IsHundredths.add {y : ℚ} (hx : IsHundredths x) (hy : IsHundredths y) :
    IsHundredths (x + y) := MultipleOf.add hx hy

theorem IsHundredths.nearest_eq (h : IsHundredths x) (hx : x ≤ 10 ^ (26 : ℤ)) : nearest x = x :=
  MultipleOf.nearest_eq h (by decide) hx

theorem IsHundredths.sub {y : ℚ} (hx : IsHundredths x) (hy : IsHundredths y) (h : y ≤ x) :
    IsHundredths (x - y) := by
  obtain ⟨m, rfl⟩ := hx
  obtain ⟨n, rfl⟩ := hy
  have hnm : n ≤ m := by exact_mod_cast le_of_mul_le_mul_right h (ten_zpow_pos (-2))
  refine ⟨m - n, ?_⟩
  rw [Nat.cast_sub hnm, sub_mul]

/-- Rounding leaves hundredths, even where 28 digits are not enough for them. -/
theorem isHundredths_nearest (h : IsHundredths x) : IsHundredths (nearest x) := by
  rcases le_or_gt (place x) (-2) with hplace | hplace
  · obtain ⟨n, hn⟩ := id h
    rwa [nearest_of_multiple n hn hplace]
  · refine ⟨Rounding.halfEven.nearest (x / 10 ^ place x) * 10 ^ (place x - -2).toNat, ?_⟩
    rw [nearest]
    push_cast
    rw [ten_pow_toNat hplace.le, mul_assoc, div_mul_cancel₀ _ (ten_zpow_pos _).ne']

/-- A difference of hundredths is exact as long as 28 digits are enough for it. -/
theorem rounded_sub_of_isHundredths {y : ℚ} (hx : IsHundredths x) (hy : IsHundredths y)
    (h : |x - y| ≤ 10 ^ (26 : ℤ)) : rounded (x - y) = x - y := by
  rcases le_total y x with hle | hle
  · rw [abs_of_nonneg (sub_nonneg.2 hle)] at h
    rw [rounded_of_nonneg (sub_nonneg.2 hle), (hx.sub hy hle).nearest_eq h]
  · rw [abs_of_nonpos (sub_nonpos.2 hle), neg_sub] at h
    have hsigned : x - y = signed true (y - x) := (neg_sub y x).symm
    rw [hsigned, rounded_signed true (sub_nonneg.2 hle), (hy.sub hx hle).nearest_eq h]

/-- **A sum of hundredths is exact** as long as 28 digits are enough for it. -/
theorem toRat_sum {xs : List Decimal} {u : Decimal} (hxs : ∀ x ∈ xs, IsHundredths x.toRat)
    (hle : (xs.map toRat).sum ≤ 10 ^ (26 : ℤ)) (h : Decimal.sum xs = .ok u) :
    u.toRat = (xs.map toRat).sum ∧ IsHundredths u.toRat :=
  toRat_sum_of_multipleOf (by decide) hxs hle h

end Stowage.Decimal
