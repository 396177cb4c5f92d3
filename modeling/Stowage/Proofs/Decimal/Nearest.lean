import Stowage.Proofs.Decimal.Value

/-!
# Rounding rationals

The rounding of decimals as a function of the exact result alone. `Rounding.nearest` rounds a
rational to an integer, and `Decimal.nearest` rounds it to 28 digits, or to the last place there is.
Both are monotone and leave alone what needs no rounding. `nearest_congr` says when two exact
results cannot be told apart by rounding: no multiple of half a unit lies between them.
-/

namespace Stowage

/-! ## To integers -/

namespace Rounding

/-- The integer nearest to a rational that is not negative. -/
def nearest (mode : Rounding) (x : ℚ) : ℕ :=
  if 1 / 2 < x - ⌊x⌋₊ ∨ (x - ⌊x⌋₊ = 1 / 2 ∧ (mode = .halfUp ∨ ⌊x⌋₊ % 2 = 1)) then ⌊x⌋₊ + 1
  else ⌊x⌋₊

variable {m : Rounding} {x y : ℚ}

/-- What rounds to at most `n` lies below the next half, or on it when ties go down to `n`. -/
theorem nearest_le_iff (hx : 0 ≤ x) (n : ℕ) :
    m.nearest x ≤ n ↔ x < n + 1 / 2 ∨ (x = n + 1 / 2 ∧ m = .halfEven ∧ n % 2 = 0) := by
  have hlow := Nat.floor_le hx
  have hhigh := Nat.lt_floor_add_one x
  unfold nearest
  generalize ⌊x⌋₊ = q at hlow hhigh ⊢
  rcases lt_trichotomy q n with h | rfl | h
  · have hqn : (q : ℚ) + 1 ≤ n := by exact_mod_cast h
    refine iff_of_true ?_ (Or.inl (by linarith))
    split_ifs <;> omega
  · rcases lt_trichotomy (x - q) (1 / 2) with hx' | hx' | hx'
    · rw [if_neg (by rintro (h | h) <;> linarith [h])]
      exact iff_of_true le_rfl (Or.inl (by linarith))
    · have hne : ¬ x < q + 1 / 2 := by linarith
      have heq : x = q + 1 / 2 := by linarith
      simp only [heq, lt_irrefl, false_or, true_and, add_sub_cancel_left]
      cases m
      · simp only [reduceCtorEq, false_or, true_and]
        split_ifs <;> omega
      · simp
    · rw [if_pos (Or.inl hx')]
      refine iff_of_false (by omega) ?_
      rintro (h | h) <;> linarith [h]
  · have hqn : (n : ℚ) + 1 ≤ q := by exact_mod_cast h
    refine iff_of_false ?_ (by rintro (h' | h') <;> linarith [h'])
    split_ifs <;> omega

theorem nearest_mono (hx : 0 ≤ x) (h : x ≤ y) : m.nearest x ≤ m.nearest y := by
  rw [nearest_le_iff hx]
  rcases (nearest_le_iff (hx.trans h) (m.nearest y)).1 le_rfl with hy | ⟨hy, hm, hn⟩
  · exact Or.inl (h.trans_lt hy)
  · rcases h.lt_or_eq with h | h
    · exact Or.inl (hy ▸ h)
    · exact Or.inr ⟨h.trans hy, hm, hn⟩

theorem le_nearest_add_half (hx : 0 ≤ x) : x ≤ m.nearest x + 1 / 2 := by
  rcases (nearest_le_iff hx (m.nearest x)).1 le_rfl with h | h
  · exact h.le
  · exact h.1.le

theorem nearest_le_add_half (hx : 0 ≤ x) : m.nearest x ≤ x + 1 / 2 := by
  rcases Nat.eq_zero_or_pos (m.nearest x) with h | h
  · rw [h]
    push_cast
    linarith
  · have hlt : ¬ m.nearest x ≤ m.nearest x - 1 := by omega
    rw [nearest_le_iff hx, Nat.cast_sub h] at hlt
    push_cast at hlt
    linarith [not_lt.1 fun h => hlt (Or.inl h)]

theorem abs_nearest_sub_le_half (hx : 0 ≤ x) : |(m.nearest x : ℚ) - x| ≤ 1 / 2 := by
  have hle := nearest_le_add_half (m := m) hx
  have hge := le_nearest_add_half (m := m) hx
  rw [abs_le]
  constructor <;> linarith

/-- No integer is nearer. -/
theorem abs_nearest_sub_le (hx : 0 ≤ x) (k : ℕ) : |(m.nearest x : ℚ) - x| ≤ |(k : ℚ) - x| := by
  have hhalf := abs_nearest_sub_le_half (m := m) hx
  by_cases hk : k = m.nearest x
  · rw [hk]
  · have hone : (1 : ℚ) ≤ |(k : ℚ) - m.nearest x| := by
      have : (1 : ℤ) ≤ |(k : ℤ) - m.nearest x| := Int.one_le_abs (by omega)
      exact_mod_cast this
    have htriangle := abs_sub_le (k : ℚ) x (m.nearest x)
    rw [abs_sub_comm x] at htriangle
    linarith

@[simp] theorem nearest_natCast (n : ℕ) : m.nearest n = n := by
  have hn : (0 : ℚ) ≤ n := Nat.cast_nonneg n
  apply le_antisymm
  · rw [nearest_le_iff hn]
    exact Or.inl (by linarith)
  · have h := le_nearest_add_half (m := m) hn
    by_contra hlt
    have : (m.nearest n : ℚ) + 1 ≤ n := by exact_mod_cast not_le.1 hlt
    linarith

/-- Rounding at most doubles. -/
theorem nearest_le_two_mul (hx : 0 ≤ x) : (m.nearest x : ℚ) ≤ 2 * x := by
  rcases lt_or_ge x (1 / 2) with h | h
  · have h0 : m.nearest x ≤ 0 := (nearest_le_iff hx 0).2 (Or.inl (by simpa using h))
    rw [Nat.le_zero.1 h0]
    push_cast
    linarith
  · linarith [nearest_le_add_half (m := m) hx]

/-- Rounding at most halves, unless it gives zero. -/
theorem le_two_mul_nearest (hx : 0 ≤ x) (h : m.nearest x ≠ 0) : x ≤ 2 * m.nearest x := by
  have h1 : (1 : ℚ) ≤ m.nearest x := by exact_mod_cast Nat.pos_of_ne_zero h
  linarith [le_nearest_add_half (m := m) hx]

/-- Two numbers between the same neighbours on the grid of step `1 / (2 * d)` round alike. -/
theorem nearest_congr {d k : ℕ} (hd : 0 < d) (hx : k < 2 * d * x) (hx' : 2 * d * x < k + 1)
    (hy : k < 2 * d * y) (hy' : 2 * d * y < k + 1) : m.nearest x = m.nearest y := by
  have hd' : (0 : ℚ) < 2 * d := by exact_mod_cast Nat.mul_pos two_pos hd
  have hk : (0 : ℚ) ≤ k := Nat.cast_nonneg k
  -- a half-integer is a point of the grid, so it lies on one side of both
  have side {z : ℚ} (hz : k < 2 * d * z) (hz' : 2 * d * z < k + 1) (n : ℕ) :
      m.nearest z ≤ n ↔ k < d * (2 * n + 1) := by
    have hz0 : 0 ≤ z := by
      by_contra hneg
      nlinarith [not_le.1 hneg]
    have hscale : 2 * d * ((n : ℚ) + 1 / 2) = ((d * (2 * n + 1) : ℕ) : ℚ) := by
      push_cast
      ring
    rw [nearest_le_iff hz0]
    constructor
    · rintro (h | h)
      · have := mul_lt_mul_of_pos_left h hd'
        rw [hscale] at this
        exact_mod_cast hz.trans this
      · rw [h.1, hscale] at hz
        exact_mod_cast hz
    · intro h
      have hle : ((k + 1 : ℕ) : ℚ) ≤ ((d * (2 * n + 1) : ℕ) : ℚ) := by exact_mod_cast h
      rw [← hscale] at hle
      push_cast at hle
      exact Or.inl (lt_of_mul_lt_mul_left (hz'.trans_le hle) hd'.le)
  apply le_antisymm
  · rw [side hx hx', ← side hy hy']
  · rw [side hy hy', ← side hx hx']

end Rounding

theorem roundDiv_eq (mode : Rounding) (n : ℕ) {d : ℕ} (hd : 0 < d) :
    roundDiv mode n d = mode.nearest (n / d) := by
  have hd' : (0 : ℚ) < d := by exact_mod_cast hd
  have hfloor : ⌊(n : ℚ) / d⌋₊ = n / d := Nat.floor_div_eq_div n d
  have hfract : (n : ℚ) / d - (n / d : ℕ) = (n % d : ℕ) / d := by
    rw [sub_eq_iff_eq_add, div_eq_iff hd'.ne', add_mul, div_mul_cancel₀ _ hd'.ne']
    exact_mod_cast (Nat.mod_add_div' n d).symm
  have hgt : 1 / 2 < ((n % d : ℕ) : ℚ) / d ↔ d < 2 * (n % d) := by
    rw [lt_div_iff₀ hd', ← Nat.cast_lt (α := ℚ)]
    push_cast
    constructor <;> intro h <;> linarith
  have heq : ((n % d : ℕ) : ℚ) / d = 1 / 2 ↔ 2 * (n % d) = d := by
    rw [div_eq_iff hd'.ne', ← Nat.cast_inj (R := ℚ)]
    push_cast
    constructor <;> intro h <;> linarith
  unfold roundDiv Rounding.roundsUp Rounding.nearest
  rw [hfloor, hfract]
  simp only [hgt, heq, Bool.or_eq_true, Bool.and_eq_true, beq_iff_eq, decide_eq_true_eq]

theorem dropDigits_eq (mode : Rounding) (n k : ℕ) :
    dropDigits mode n k = mode.nearest (n / 10 ^ k) := by
  unfold dropDigits
  split_ifs with h
  · -- the whole number is below a tenth of the unit
    have hn : n < 10 ^ (k - 1) :=
      (lt_pow_digitCount n).trans_le (Nat.pow_le_pow_right (by norm_num) (by omega))
    have hk : (10 : ℚ) ^ k = 10 ^ (k - 1) * 10 := by
      rw [← pow_succ, Nat.sub_add_cancel (by omega)]
    have hlt : (n : ℚ) / 10 ^ k < 1 / 2 := by
      rw [div_lt_iff₀ (by positivity), hk]
      have : (n : ℚ) < 10 ^ (k - 1) := by exact_mod_cast hn
      linarith
    have h0 : mode.nearest (n / 10 ^ k) ≤ 0 :=
      (Rounding.nearest_le_iff (by positivity) 0).2 (Or.inl (by simpa using hlt))
    omega
  · rw [roundDiv_eq mode n (by positivity)]
    push_cast
    rfl

/-! ## To the working precision -/

namespace Decimal

/-- The place of the last digit that is kept of an exact positive result. -/
def place (x : ℚ) : ℤ := max (Int.log 10 x - 27) tiniest

/-- An exact result that is not negative, rounded to the working precision. -/
def nearest (x : ℚ) : ℚ := Rounding.halfEven.nearest (x / 10 ^ place x) * 10 ^ place x

/-- The least exact result that overflows. -/
def limit : ℚ := (10 ^ 28 - 1 / 2) * 10 ^ topExponent

variable {x y : ℚ}

theorem place_mono (hx : 0 < x) (h : x ≤ y) : place x ≤ place y :=
  max_le_max (sub_le_sub_right (Int.log_mono_right hx h) _) le_rfl

theorem tiniest_le_place (x : ℚ) : tiniest ≤ place x := le_max_right _ _

theorem lt_pow_place (x : ℚ) : x < 10 ^ (place x + 28) := by
  have h := Int.lt_zpow_succ_log_self (b := 10) (by norm_num) x
  have hplace : Int.log 10 x - 27 ≤ place x := le_max_left _ _
  rw [Nat.cast_ofNat] at h
  exact h.trans_le (ten_zpow_le (by omega))

/-- The place of a number below `10 ^ (e + 28)` is at most `e`. -/
theorem place_le {e : ℤ} (hx : 0 < x) (h : x < 10 ^ (e + 28)) (he : tiniest ≤ e) : place x ≤ e := by
  rw [lt_ten_zpow_iff hx] at h
  exact max_le (by omega) he

@[simp] theorem nearest_zero : nearest 0 = 0 := by
  have h := Rounding.nearest_natCast (m := .halfEven) 0
  simp_all [nearest]

theorem nearest_nonneg (x : ℚ) : 0 ≤ nearest x := mul_nonneg (Nat.cast_nonneg _) (ten_zpow_pos _).le

theorem div_place_nonneg (hx : 0 ≤ x) : 0 ≤ x / 10 ^ place x := div_nonneg hx (ten_zpow_pos _).le

/-- Rounding leaves alone whole multiples of the place it keeps. -/
theorem nearest_of_multiple (n : ℕ) {e : ℤ} (hx : x = n * 10 ^ e) (he : place x ≤ e) :
    nearest x = x := by
  have hn : x / 10 ^ place x = ((n * 10 ^ (e - place x).toNat : ℕ) : ℚ) := by
    push_cast
    rw [ten_pow_toNat he, ← mul_div_assoc, ← hx]
  rw [nearest, hn, Rounding.nearest_natCast, ← hn, div_mul_cancel₀ _ (ten_zpow_pos _).ne']

/-- Rounding leaves alone what has at most 28 digits. -/
theorem nearest_eq_self (n : ℕ) {e : ℤ} (hx : x = n * 10 ^ e) (hn : n ≤ 10 ^ 28)
    (he : tiniest ≤ e) : nearest x = x := by
  have hpow : (0 : ℚ) < 10 ^ e := ten_zpow_pos e
  rcases Nat.eq_zero_or_pos n with rfl | hpos
  · rw [hx]
    simp
  have hx0 : 0 < x := hx ▸ mul_pos (by exact_mod_cast hpos) hpow
  rcases hn.lt_or_eq with hlt | rfl
  · apply nearest_of_multiple n hx (place_le hx0 _ he)
    rw [hx, add_comm, ten_zpow_add]
    exact mul_lt_mul_of_pos_right (by exact_mod_cast hlt) hpow
  · have hx' : x = ((10 ^ 27 : ℕ) : ℚ) * 10 ^ (e + 1) := by
      rw [hx, add_comm, ten_zpow_add]
      norm_num
      ring
    have h27 : ((10 ^ 27 : ℕ) : ℚ) < 10 ^ (28 : ℤ) := by norm_num
    apply nearest_of_multiple _ hx' (place_le hx0 _ (by omega))
    rw [hx', add_comm (e + 1) 28, ten_zpow_add 28]
    exact mul_lt_mul_of_pos_right h27 (ten_zpow_pos _)

/-- A result has at most 28 digits, or is the power of ten after them. -/
theorem nearest_div_place_le (hx : 0 ≤ x) :
    Rounding.halfEven.nearest (x / 10 ^ place x) ≤ 10 ^ 28 := by
  rw [Rounding.nearest_le_iff (div_place_nonneg hx)]
  left
  have h := (div_lt_iff₀ (ten_zpow_pos (place x))).2
    ((lt_pow_place x).trans_eq (by rw [add_comm, ten_zpow_add]))
  have h28 : (10 : ℚ) ^ (28 : ℤ) = 10 ^ 28 := by norm_cast
  push_cast
  linarith

@[simp] theorem nearest_nearest (hx : 0 ≤ x) : nearest (nearest x) = nearest x := by
  exact nearest_eq_self _ rfl (nearest_div_place_le hx) (tiniest_le_place x)

/-- What is at most a multiple of the place it keeps is not rounded above it. -/
theorem nearest_le_multiple (hx : 0 ≤ x) {n : ℕ} (h : x ≤ n * 10 ^ place x) :
    nearest x ≤ n * 10 ^ place x := by
  have hn := Rounding.nearest_mono (m := .halfEven) (div_place_nonneg hx)
    ((div_le_iff₀ (ten_zpow_pos (place x))).2 h)
  rw [Rounding.nearest_natCast] at hn
  exact mul_le_mul_of_nonneg_right (by exact_mod_cast hn) (ten_zpow_pos _).le

theorem multiple_le_nearest {n : ℕ} (h : n * 10 ^ place x ≤ x) : n * 10 ^ place x ≤ nearest x := by
  have hn := Rounding.nearest_mono (m := .halfEven) (Nat.cast_nonneg n)
    ((le_div_iff₀ (ten_zpow_pos (place x))).2 h)
  rw [Rounding.nearest_natCast] at hn
  exact mul_le_mul_of_nonneg_right (by exact_mod_cast hn) (ten_zpow_pos _).le

/-- **Rounding is monotone.** -/
theorem nearest_mono (hx : 0 ≤ x) (h : x ≤ y) : nearest x ≤ nearest y := by
  rcases hx.eq_or_lt with rfl | hx0
  · rw [nearest_zero]
    exact nearest_nonneg y
  rcases (place_mono hx0 h).eq_or_lt with hp | hp
  · have hdiv := div_le_div_of_nonneg_right h (ten_zpow_pos (place x)).le
    have hn := Rounding.nearest_mono (m := .halfEven) (div_place_nonneg hx) hdiv
    rw [nearest, nearest, ← hp]
    exact mul_le_mul_of_nonneg_right (by exact_mod_cast hn) (ten_zpow_pos _).le
  -- different decades: the power of ten between them needs no rounding
  · have hplace : place y = Int.log 10 y - 27 := by
      have hx' := tiniest_le_place x
      have hy' : place y = max (Int.log 10 y - 27) tiniest := rfl
      omega
    have hxpow : 10 ^ Int.log 10 y
        = ((10 ^ (Int.log 10 y - place x).toNat : ℕ) : ℚ) * 10 ^ place x := by
      push_cast
      rw [ten_pow_toNat (by omega), div_mul_cancel₀ _ (ten_zpow_pos _).ne']
    have hypow : (10 : ℚ) ^ Int.log 10 y = ((10 ^ 27 : ℕ) : ℚ) * 10 ^ place y := by
      rw [hplace, show Int.log 10 y = 27 + (Int.log 10 y - 27) by ring, ten_zpow_add]
      norm_num
    have hlow : x ≤ 10 ^ Int.log 10 y := (lt_pow_place x).le.trans (ten_zpow_le (by omega))
    have hhigh : (10 : ℚ) ^ Int.log 10 y ≤ y := ten_zpow_log_le (hx0.trans_le h)
    rw [hxpow] at hlow
    rw [hypow] at hhigh
    calc nearest x ≤ _ := nearest_le_multiple hx hlow
      _ = 10 ^ Int.log 10 y := hxpow.symm
      _ = _ := hypow
      _ ≤ nearest y := multiple_le_nearest hhigh

theorem nearest_le_two_mul (hx : 0 ≤ x) : nearest x ≤ 2 * x := by
  have h := mul_le_mul_of_nonneg_right
    (Rounding.nearest_le_two_mul (m := .halfEven) (div_place_nonneg hx)) (ten_zpow_pos (place x)).le
  rwa [mul_assoc, div_mul_cancel₀ _ (ten_zpow_pos _).ne'] at h

theorem le_two_mul_nearest (hx : 0 ≤ x) (h : nearest x ≠ 0) : x ≤ 2 * nearest x := by
  have hn : Rounding.halfEven.nearest (x / 10 ^ place x) ≠ 0 := by
    intro h0
    exact h (by simp [nearest, h0])
  have h' := mul_le_mul_of_nonneg_right (Rounding.le_two_mul_nearest (div_place_nonneg hx) hn)
    (ten_zpow_pos (place x)).le
  rwa [mul_assoc, div_mul_cancel₀ _ (ten_zpow_pos _).ne'] at h'

/-! ## Results that round alike -/

/-- A multiple of the step lies on one side of two numbers between the same neighbours. -/
theorem multiple_le_iff {s z w : ℚ} {k : ℕ} (hs : 0 < s) (hz : k * s < z) (hz' : z < (k + 1) * s)
    (hw : k * s < w) (hw' : w < (k + 1) * s) (m : ℕ) : m * s ≤ z ↔ m * s ≤ w := by
  have side {v : ℚ} (hv : k * s < v) (hv' : v < (k + 1) * s) : m * s ≤ v ↔ m ≤ k := by
    constructor
    · intro h
      have := lt_of_mul_lt_mul_right (h.trans_lt hv') hs.le
      exact Nat.lt_succ_iff.1 (by exact_mod_cast this)
    · intro h
      exact (mul_le_mul_of_nonneg_right (by exact_mod_cast h) hs.le).trans hv.le
  rw [side hz hz', side hw hw']

/-- A power of ten above a place is a multiple of half the unit of the next. -/
theorem ten_zpow_eq_multiple {t j : ℤ} (h : t + 1 ≤ j) :
    (10 : ℚ) ^ j = ((2 * 10 ^ (j - (t + 1)).toNat : ℕ) : ℚ) * (5 * 10 ^ t) := by
  push_cast
  rw [ten_pow_toNat h, ten_zpow_add t 1]
  have := (ten_zpow_pos t).ne'
  field_simp
  norm_num

theorem lt_limit_of_lt {e : ℤ} (he : e ≤ topExponent + 27) (h : x < 10 ^ e) : x < limit := by
  have hpow : (10 : ℚ) ^ (topExponent + 27) = 10 ^ 27 * 10 ^ topExponent := by
    rw [add_comm, ten_zpow_add]
    norm_cast
  have hle := (h.trans_le (ten_zpow_le he)).trans_eq hpow
  have := ten_zpow_pos topExponent
  rw [limit]
  linarith

theorem limit_le_of_le {e : ℤ} (he : topExponent + 28 ≤ e) (h : 10 ^ e ≤ x) : limit ≤ x := by
  have hpow : (10 : ℚ) ^ (topExponent + 28) = 10 ^ 28 * 10 ^ topExponent := by
    rw [add_comm, ten_zpow_add]
    norm_cast
  have hle := hpow.symm.trans_le ((ten_zpow_le he).trans h)
  have := ten_zpow_pos topExponent
  rw [limit]
  linarith

/-- Rounding does not lead up to the limit. -/
theorem nearest_lt_limit (hx : 0 < x) (h : x < limit) : nearest x < limit := by
  have hunit := ten_zpow_pos topExponent
  have hplace : place x ≤ topExponent :=
    place_le hx (lt_of_not_ge fun hle => h.not_ge (limit_le_of_le le_rfl hle)) (by decide)
  rcases hplace.eq_or_lt with htop | hlow
  · have hle : Rounding.halfEven.nearest (x / 10 ^ place x) ≤ 10 ^ 28 - 1 := by
      rw [Rounding.nearest_le_iff (div_place_nonneg hx.le), htop, div_lt_iff₀ hunit]
      left
      rw [limit] at h
      norm_num at h ⊢
      exact h
    have hle' : (Rounding.halfEven.nearest (x / 10 ^ place x) : ℚ) ≤ 10 ^ 28 - 1 :=
      (Nat.cast_le.2 hle).trans_eq (by norm_num)
    rw [nearest, limit]
    rw [htop] at hle' ⊢
    exact mul_lt_mul_of_pos_right (by linarith) hunit
  · have hle : (Rounding.halfEven.nearest (x / 10 ^ place x) : ℚ) ≤ 10 ^ (28 : ℤ) := by
      exact_mod_cast nearest_div_place_le hx.le
    calc nearest x ≤ 10 ^ (28 : ℤ) * 10 ^ place x :=
          mul_le_mul_of_nonneg_right hle (ten_zpow_pos _).le
      _ ≤ 10 ^ (27 : ℤ) * 10 ^ topExponent := by
          rw [← ten_zpow_add, ← ten_zpow_add]
          exact ten_zpow_le (by omega)
      _ < limit := mul_lt_mul_of_pos_right (by norm_num) hunit

theorem limit_eq_multiple {t : ℤ} (h : t + 1 ≤ topExponent) :
    limit = (((2 * 10 ^ 28 - 1) * 10 ^ (topExponent - (t + 1)).toNat : ℕ) : ℚ) * (5 * 10 ^ t) := by
  have hmul := ten_zpow_eq_multiple h
  push_cast at hmul ⊢
  rw [limit, hmul]
  ring

/-- **Exact results that no multiple of half a unit separates round alike**, where the unit is at
most that of the last place kept. -/
theorem nearest_congr {k : ℕ} {t : ℤ} (hx : k * (5 * 10 ^ t) < x) (hx' : x < (k + 1) * (5 * 10 ^ t))
    (hy : k * (5 * 10 ^ t) < y) (hy' : y < (k + 1) * (5 * 10 ^ t)) (ht : t + 28 ≤ Int.log 10 x) :
    nearest x = nearest y ∧ (limit ≤ x ↔ limit ≤ y) := by
  have hs : (0 : ℚ) < 5 * 10 ^ t := mul_pos (by norm_num) (ten_zpow_pos t)
  have hk : (0 : ℚ) ≤ k * (5 * 10 ^ t) := mul_nonneg (Nat.cast_nonneg k) hs.le
  have hx0 : 0 < x := hk.trans_lt hx
  have hy0 : 0 < y := hk.trans_lt hy
  have hpow {j : ℤ} (hj : t + 1 ≤ j) : (10 : ℚ) ^ j ≤ x ↔ (10 : ℚ) ^ j ≤ y := by
    rw [ten_zpow_eq_multiple hj]
    exact multiple_le_iff hs hx hx' hy hy' _
  have hlog : Int.log 10 x = Int.log 10 y := by
    have hle : Int.log 10 x ≤ Int.log 10 y := by
      rw [← ten_zpow_le_iff hy0, ← hpow (by omega)]
      exact ten_zpow_log_le hx0
    refine le_antisymm hle ?_
    rw [← ten_zpow_le_iff hx0, hpow (by omega)]
    exact ten_zpow_log_le hy0
  have hplace : place x = place y := by rw [place, place, hlog]
  constructor
  · have htp : t + 1 ≤ place x := le_trans (by omega) (le_max_left _ _)
    have hscale (z : ℚ) : 2 * ((10 ^ (place x - (t + 1)).toNat : ℕ) : ℚ) * (z / 10 ^ place x)
        = z / (5 * 10 ^ t) := by
      have hmul := ten_zpow_eq_multiple htp
      push_cast at hmul ⊢
      rw [mul_div_assoc', div_eq_div_iff (ten_zpow_pos _).ne' hs.ne', hmul]
      ring
    have hround : Rounding.halfEven.nearest (x / 10 ^ place x)
        = Rounding.halfEven.nearest (y / 10 ^ place x) := by
      have hm : 0 < 10 ^ (place x - (t + 1)).toNat := by positivity
      apply Rounding.nearest_congr (k := k) hm
      · rwa [hscale, lt_div_iff₀ hs]
      · rwa [hscale, div_lt_iff₀ hs]
      · rwa [hscale, lt_div_iff₀ hs]
      · rwa [hscale, div_lt_iff₀ hs]
    rw [nearest, nearest, ← hplace, hround]
  · rcases le_or_gt (t + 1) topExponent with htop | htop
    · rw [limit_eq_multiple htop]
      exact multiple_le_iff hs hx hx' hy hy' _
    · exact iff_of_true (limit_le_of_le (by omega) (ten_zpow_log_le hx0))
        (limit_le_of_le (by omega) (ten_zpow_log_le hy0))

end Decimal

end Stowage
