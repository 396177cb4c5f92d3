import Stowage.Proofs.Decimal.Nearest

/-!
# The exact results behind decimal arithmetic

Every operation rounds its exact result once: `Rounds x r` says that `r` is what an operation with
the exact result `x` gives, an overflow included. Sum and quotient are computed from a shortened
operand, a stand-in for digits that can no longer be seen; `add_rounds` and `div_rounds` say that
this never shows.
-/

namespace Stowage.Decimal

/-- A rational rounded to the working precision. -/
def rounded (x : ℚ) : ℚ := if x < 0 then -nearest (-x) else nearest x

/-- The outcome of an operation whose exact result is `x`. -/
def Rounds (x : ℚ) : Except Signal Decimal → Prop
  | .ok d => d.toRat = rounded x ∧ |x| < limit
  | .error s => s = .overflow ∧ limit ≤ |x|

variable {x y : ℚ} {r : Except Signal Decimal}

/-! ## Rounded values -/

@[simp] theorem rounded_zero : rounded 0 = 0 := by simp [rounded]

theorem rounded_of_nonneg (hx : 0 ≤ x) : rounded x = nearest x := if_neg (not_lt.2 hx)

theorem rounded_signed (n : Bool) (hx : 0 ≤ x) : rounded (signed n x) = signed n (nearest x) := by
  cases n
  · exact rounded_of_nonneg hx
  · rcases hx.eq_or_lt with rfl | hx
    · simp [rounded, signed]
    · simp [rounded, signed, hx]

theorem rounded_nonneg (hx : 0 ≤ x) : 0 ≤ rounded x := by
  rw [rounded_of_nonneg hx]
  exact nearest_nonneg x

theorem rounded_mono (h : x ≤ y) : rounded x ≤ rounded y := by
  unfold rounded
  split_ifs with hx hy hy
  · exact neg_le_neg (nearest_mono (by linarith) (by linarith))
  · have hx' := nearest_nonneg (-x)
    have hy' := nearest_nonneg y
    linarith
  · linarith
  · exact nearest_mono (not_lt.1 hx) h

theorem rounded_rounded (hx : 0 ≤ x) : rounded (rounded x) = rounded x := by
  rw [rounded_of_nonneg hx, rounded_of_nonneg (nearest_nonneg x), nearest_nearest hx]

/-! ## Outcomes -/

theorem Rounds.toRat_eq {d : Decimal} (h : Rounds x r) (hr : r = .ok d) : d.toRat = rounded x := by
  subst hr
  exact h.1

/-- What does not overflow has a result. -/
theorem Rounds.exists_ok (h : Rounds x r) (hx : |x| < limit) :
    ∃ d : Decimal, r = .ok d ∧ d.toRat = rounded x := by
  cases r with
  | ok d => exact ⟨d, rfl, h.1⟩
  | error s => exact absurd h.2 (not_le.2 hx)

/-- Two exact results with one sign that round alike have the same outcomes. -/
theorem Rounds.congr {n : Bool} (h : Rounds (signed n x) r) (hx : 0 ≤ x) (hy : 0 ≤ y)
    (hxy : nearest x = nearest y ∧ (limit ≤ x ↔ limit ≤ y)) : Rounds (signed n y) r := by
  cases r with
  | ok d =>
    obtain ⟨hd, hlt⟩ := h
    rw [rounded_signed n hx, hxy.1, ← rounded_signed n hy] at hd
    rw [abs_signed, abs_of_nonneg hx, ← not_le, hxy.2, not_le] at hlt
    exact ⟨hd, by rwa [abs_signed, abs_of_nonneg hy]⟩
  | error s =>
    obtain ⟨hs, hle⟩ := h
    rw [abs_signed, abs_of_nonneg hx, hxy.2] at hle
    exact ⟨hs, by rwa [abs_signed, abs_of_nonneg hy]⟩

/-! ## Rounding to the working precision -/

theorem toRat_mk (n : Bool) (c : ℕ) (e : ℤ) :
    toRat ⟨n, c, e⟩ = signed n (c * 10 ^ e) := rfl

/-- The place kept of a written number, in terms of its digits. -/
theorem place_magnitude {c : ℕ} (e : ℤ) (hc : c ≠ 0) :
    place (c * 10 ^ e) = max ((digitCount c : ℤ) + e - precision) tiniest := by
  have hlog : Int.log 10 ((c : ℚ) * 10 ^ e) = e + digitCount c - 1 :=
    log_magnitude (a := ⟨false, c, e⟩) hc
  rw [place, hlog, precision]
  congr 1
  omega

/-- What keeps at most 28 digits after rounding, in a place that may be last, does not overflow. -/
theorem lt_limit (hx : 0 ≤ x) (hp : place x ≤ topExponent)
    (h : Rounding.halfEven.nearest (x / 10 ^ place x) < 10 ^ 28) : x < limit := by
  have hle : Rounding.halfEven.nearest (x / 10 ^ place x) ≤ 10 ^ 28 - 1 := by omega
  rw [Rounding.nearest_le_iff (div_place_nonneg hx)] at hle
  have hlt : x / 10 ^ place x < 10 ^ 28 - 1 / 2 := by
    rcases hle with hle | ⟨-, -, hodd⟩
    · norm_num at hle ⊢
      linarith
    · norm_num at hodd
  rw [div_lt_iff₀ (ten_zpow_pos _)] at hlt
  refine hlt.trans_le (mul_le_mul_of_nonneg_left (ten_zpow_le hp) (by norm_num))

/-- What needs a digit more after rounding, in the last place there may be, overflows. -/
theorem limit_le (hx : 0 ≤ x) (hp : place x = topExponent)
    (h : 10 ^ 28 ≤ Rounding.halfEven.nearest (x / 10 ^ place x)) : limit ≤ x := by
  have hgt : ¬ Rounding.halfEven.nearest (x / 10 ^ place x) ≤ 10 ^ 28 - 1 := by omega
  rw [Rounding.nearest_le_iff (div_place_nonneg hx), not_or] at hgt
  have hle : 10 ^ 28 - 1 / 2 ≤ x / 10 ^ place x := by
    have := not_lt.1 hgt.1
    norm_num at this ⊢
    linarith
  rwa [le_div_iff₀ (ten_zpow_pos _), hp] at hle

/-- What has no digit too many is its own result. -/
theorem rounds_multiple (n : Bool) {c : ℕ} {e : ℤ} (hx : 0 < x) (hdef : c * 10 ^ e = x)
    (hfit : place x ≤ e) (htop : place x ≤ topExponent) : Rounds (signed n x) (.ok ⟨n, c, e⟩) := by
  have hself : nearest x = x := nearest_of_multiple c hdef.symm hfit
  have hnat : x / 10 ^ place x = ((c * 10 ^ (e - place x).toNat : ℕ) : ℚ) := by
    push_cast
    rw [ten_pow_toNat hfit, ← mul_div_assoc, hdef]
  have hlt := (div_lt_iff₀ (ten_zpow_pos (place x))).2
    ((lt_pow_place x).trans_eq (by rw [add_comm, ten_zpow_add]))
  constructor
  · rw [rounded_signed n hx.le, hself, toRat_mk, hdef]
  · rw [abs_signed, abs_of_pos hx]
    refine lt_limit hx.le htop ?_
    rw [hnat] at hlt ⊢
    rw [Rounding.nearest_natCast]
    exact_mod_cast hlt

/-- **`round` rounds to the nearest.** -/
theorem rounds_round (n : Bool) (c : ℕ) (e : ℤ) : Rounds (signed n (c * 10 ^ e)) (round n c e) := by
  by_cases hc : c = 0
  · have hlimit : (0 : ℚ) < limit := lt_limit_of_lt (e := 0) (by decide) (by norm_num)
    simpa [round, hc, Rounds, toRat_mk] using hlimit
  have hx : (0 : ℚ) < c * 10 ^ e := magnitude_pos (a := ⟨n, c, e⟩) hc
  have hlog : Int.log 10 ((c : ℚ) * 10 ^ e) = e + digitCount c - 1 :=
    log_magnitude (a := ⟨n, c, e⟩) hc
  have hplace := place_magnitude e hc
  rw [round, if_neg hc]
  dsimp only
  rw [← hplace]
  generalize hdef : (c : ℚ) * 10 ^ e = x at hx hlog hplace ⊢
  have habs : |signed n x| = x := by rw [abs_signed, abs_of_pos hx]
  split_ifs with hover hfit hkept hlast
  · have hle : topExponent + 28 ≤ Int.log 10 x := by
      rw [precision] at hover
      omega
    exact ⟨rfl, (limit_le_of_le hle (ten_zpow_log_le hx)).trans_eq habs.symm⟩
  all_goals
    have htop : place x ≤ topExponent := by
      rw [hplace]
      exact max_le (not_lt.1 hover) (by decide)
  · exact rounds_multiple n hx hdef hfit htop
  all_goals
    have hdrop : dropDigits .halfEven c (place x - e).toNat
        = Rounding.halfEven.nearest (x / 10 ^ place x) := by
      rw [dropDigits_eq, ten_pow_toNat (by omega), ← hdef, div_div_eq_mul_div]
  · rw [hdrop] at hkept
    refine ⟨?_, habs.trans_lt (lt_limit hx.le htop hkept)⟩
    rw [rounded_signed n hx.le, nearest, toRat_mk, hdrop]
  · rw [hdrop] at hkept
    exact ⟨rfl, (limit_le hx.le (by omega) (by omega)).trans_eq habs.symm⟩
  -- the kept digits have become a power of ten, which is written with one digit less
  · have hpow : Rounding.halfEven.nearest (x / 10 ^ place x) = 10 ^ 28 := by
      have := nearest_div_place_le hx.le
      rw [hdrop] at hkept
      omega
    refine ⟨?_, habs.trans_lt (lt_limit_of_lt (by omega) (lt_pow_place x))⟩
    rw [rounded_signed n hx.le, nearest, toRat_mk, hdrop, hpow, add_comm (place x) 1, ten_zpow_add,
      ← mul_assoc]
    norm_num

theorem rounds_of_eq {n : Bool} {c : ℕ} {e : ℤ} (h : x = signed n (c * 10 ^ e)) :
    Rounds x (round n c e) := h ▸ rounds_round n c e

/-! ## Products -/

theorem mul_rounds (a b : Decimal) : Rounds (a.toRat * b.toRat) (a.mul b) := by
  apply rounds_of_eq
  rw [toRat, toRat, signed_mul, magnitude, magnitude, ten_zpow_add]
  push_cast
  congr 1
  ring

theorem cube_rounds (a : Decimal) : Rounds (a.toRat ^ 3) a.cube := by
  apply rounds_of_eq
  have hexp : (10 : ℚ) ^ (3 * a.exp) = (10 ^ a.exp) ^ 3 := by
    rw [← zpow_natCast, ← zpow_mul, mul_comm]
    norm_num
  rw [hexp]
  push_cast
  rw [toRat, magnitude]
  cases a.negative <;> simp only [signed] <;> norm_num <;> ring

/-! ## Sums -/

theorem coeffAt_mul {a : Decimal} {e : ℤ} (h : e ≤ a.exp) :
    (a.coeffAt e : ℚ) * 10 ^ e = a.magnitude := by
  rw [coeffAt_eq a h, div_mul_cancel₀ _ (ten_zpow_pos e).ne']

theorem nudge_exp_le {a b : Decimal} (h : b.exp ≤ a.exp) : (nudge a b).exp ≤ a.exp := by
  unfold nudge
  dsimp only
  split_ifs
  · dsimp only
    omega
  · exact h

/-- The sum with the stand-in for the smaller operand. -/
theorem addAligned_rounds_nudge {a b : Decimal} (h : b.exp ≤ a.exp) :
    Rounds (a.toRat + (nudge a b).toRat) (addAligned a b) := by
  have hexp := nudge_exp_le h
  unfold addAligned
  dsimp only
  generalize nudge a b = b' at hexp
  have ha := coeffAt_mul hexp
  have hb : (b'.coeff : ℚ) * 10 ^ b'.exp = b'.magnitude := rfl
  split_ifs with hsign heq hgt
  · have hneg : a.negative = b'.negative := by simpa using hsign
    apply rounds_of_eq
    push_cast
    rw [add_mul, ha, hb, toRat, toRat, ← hneg, signed_add]
  all_goals
    have hneg : b'.negative = !a.negative := by
      cases ha : a.negative <;> cases hb : b'.negative <;> simp_all
    have hsum : a.toRat + b'.toRat = signed a.negative (a.magnitude - b'.magnitude) := by
      rw [toRat, toRat, hneg, signed_add_not]
    apply rounds_of_eq
    rw [hsum]
  · have hmag : a.magnitude = b'.magnitude := by rw [← ha, ← hb, heq]
    simp [hmag]
  · rw [Nat.cast_sub hgt.le, sub_mul, ha, hb]
  · rw [Nat.cast_sub (by omega), sub_mul, ha, hb, hneg, signed_not, neg_sub]

/-- Two small addends that lie below every digit that can be seen have the same effect. -/
theorem nearest_add_small {A u v : ℚ} {k : ℕ} {p : ℤ} (hA : A = (k + 1) * (5 * 10 ^ p))
    (hbig : 10 ^ (p + 29) ≤ A) (hu : 0 < u) (hu' : u ≤ 10 ^ p) (hv : 0 < v) (hv' : v ≤ 10 ^ p) :
    (nearest (A + u) = nearest (A + v) ∧ (limit ≤ A + u ↔ limit ≤ A + v)) ∧
      nearest (A - u) = nearest (A - v) ∧ (limit ≤ A - u ↔ limit ≤ A - v) := by
  have hs : (0 : ℚ) < 10 ^ p := ten_zpow_pos p
  have hpow : (10 : ℚ) ^ (p + 29) = 10 * 10 ^ (p + 28) := by
    rw [show p + 29 = 1 + (p + 28) by ring, ten_zpow_add 1]
    norm_num
  have hpow' : (10 : ℚ) ^ p ≤ 10 ^ (p + 28) := ten_zpow_le (by omega)
  have hlog {x : ℚ} (h : A - u ≤ x) : p + 28 ≤ Int.log 10 x := by
    rw [← ten_zpow_le_iff (by linarith)]
    linarith
  constructor
  · apply nearest_congr (k := k + 1) (t := p) <;> push_cast
    · linarith
    · linarith
    · linarith
    · linarith
    · exact hlog (by linarith)
  · apply nearest_congr (k := k) (t := p)
    · linarith
    · linarith
    · linarith
    · linarith
    · exact hlog le_rfl

/-- A magnitude as a multiple of five units of a place below its last digit. -/
theorem exists_magnitude_eq_multiple {a : Decimal} (ha : a.coeff ≠ 0) {p : ℤ} (hp : p + 1 ≤ a.exp) :
    ∃ k : ℕ, a.magnitude = (k + 1) * (5 * 10 ^ p) := by
  have hmul := ten_zpow_eq_multiple (t := p) (j := a.exp) hp
  obtain ⟨k, hk⟩ := Nat.exists_eq_succ_of_ne_zero
    (n := a.coeff * (2 * 10 ^ (a.exp - (p + 1)).toNat)) (by positivity)
  refine ⟨k, ?_⟩
  rw [magnitude, hmul, ← mul_assoc, ← Nat.cast_mul, hk, Nat.cast_succ]

theorem addAligned_rounds {a b : Decimal} (ha : a.coeff ≠ 0) (hb : b.coeff ≠ 0)
    (h : b.exp ≤ a.exp) : Rounds (a.toRat + b.toRat) (addAligned a b) := by
  have hr := addAligned_rounds_nudge h
  unfold nudge at hr
  dsimp only at hr
  generalize hp : a.exp + min (-1) ((digitCount a.coeff : ℤ) - precision - 2) = p at hr
  split_ifs at hr with hsmall
  · have ha0 := magnitude_pos ha
    have hb0 := magnitude_pos hb
    have hs : (0 : ℚ) < 10 ^ p := ten_zpow_pos p
    have hbp : b.magnitude < 10 ^ p := by rwa [lt_ten_zpow_iff hb0, log_magnitude hb]
    have hbig : 10 ^ (p + 29) ≤ a.magnitude := by
      rw [ten_zpow_le_iff ha0, log_magnitude ha, adjusted]
      rw [precision] at hp
      omega
    obtain ⟨k, hk⟩ := exists_magnitude_eq_multiple (p := p) ha (by omega)
    have hunit : (⟨b.negative, 1, p⟩ : Decimal).toRat = signed b.negative (10 ^ p) := by
      simp [toRat_mk]
    obtain ⟨hadd, hsub⟩ := nearest_add_small hk hbig hs le_rfl hb0 hbp.le
    have hle : b.magnitude ≤ a.magnitude ∧ 10 ^ p ≤ a.magnitude := by
      have hpp : (10 : ℚ) ^ p ≤ a.magnitude := (ten_zpow_le (by omega)).trans hbig
      exact ⟨hbp.le.trans hpp, hpp⟩
    rw [hunit, toRat] at hr
    rw [toRat, toRat]
    by_cases hsign : a.negative = b.negative
    · rw [← hsign, signed_add] at hr ⊢
      exact hr.congr (by positivity) (by positivity) hadd
    · have hneg : b.negative = !a.negative := by
        cases ha : a.negative <;> cases hb : b.negative <;> simp_all
      rw [hneg, signed_add_not] at hr ⊢
      exact hr.congr (by linarith [hle.2]) (by linarith [hle.1]) hsub
  · exact hr

/-- **The sum is the exact sum, rounded.** -/
theorem add_rounds (a b : Decimal) : Rounds (a.toRat + b.toRat) (a.add b) := by
  unfold add
  dsimp only
  split_ifs with ha hb hb hexp
  · apply rounds_of_eq
    rw [toRat_of_coeff_eq_zero ha, toRat_of_coeff_eq_zero hb]
    simp
  · apply rounds_of_eq
    rw [toRat_of_coeff_eq_zero ha, zero_add, coeffAt_mul (by omega), toRat]
  · apply rounds_of_eq
    rw [toRat_of_coeff_eq_zero hb, add_zero, coeffAt_mul (by omega), toRat]
  · rw [add_comm]
    exact addAligned_rounds hb ha hexp.le
  · exact addAligned_rounds ha hb (not_lt.1 hexp)

theorem sub_rounds (a b : Decimal) : Rounds (a.toRat - b.toRat) (a.sub b) := by
  rw [sub_eq_add_neg, ← toRat_negate]
  exact add_rounds a b.negate

/-- Adding what is not negative does not make a number smaller that has no digit too many. -/
theorem le_of_add {a b c : Decimal} (ha : rounded a.toRat = a.toRat) (hb : 0 ≤ b.toRat)
    (h : a.add b = .ok c) : a.toRat ≤ c.toRat :=
  calc a.toRat = rounded a.toRat := ha.symm
    _ ≤ rounded (a.toRat + b.toRat) := rounded_mono (by linarith)
    _ = c.toRat := ((add_rounds a b).toRat_eq h).symm

/-- A sum of numbers that are not negative is not negative and has no digit too many. -/
theorem nonneg_of_add {a b c : Decimal} (ha : 0 ≤ a.toRat) (hb : 0 ≤ b.toRat)
    (h : a.add b = .ok c) : 0 ≤ c.toRat ∧ rounded c.toRat = c.toRat := by
  rw [(add_rounds a b).toRat_eq h]
  exact ⟨rounded_nonneg (add_nonneg ha hb), rounded_rounded (add_nonneg ha hb)⟩

/-- A sum with a smaller number has a result whenever that with a larger one does. -/
theorem add_mono {a b c d : Decimal} (ha : 0 ≤ a.toRat) (hab : a.toRat ≤ b.toRat)
    (hc : 0 ≤ c.toRat) (h : b.add c = .ok d) : ∃ s, a.add c = .ok s ∧ s.toRat ≤ d.toRat := by
  have hd := add_rounds b c
  rw [h] at hd
  have hle : |a.toRat + c.toRat| ≤ |b.toRat + c.toRat| := by
    rw [abs_of_nonneg (by linarith), abs_of_nonneg (by linarith)]
    linarith
  obtain ⟨s, hs, hv⟩ := (add_rounds a c).exists_ok (hle.trans_lt hd.2)
  refine ⟨s, hs, ?_⟩
  rw [hv, hd.1]
  exact rounded_mono (by linarith)

/-! ## Quotients -/

theorem stripZeros_value (fuel c : ℕ) (e ideal : ℤ) :
    ((stripZeros fuel c e ideal).1 : ℚ) * 10 ^ (stripZeros fuel c e ideal).2 = c * 10 ^ e := by
  fun_induction stripZeros fuel c e ideal with
  | case1 => rfl
  | case2 fuel c e ideal h ih =>
    have hc : (c : ℚ) = (c / 10 : ℕ) * 10 := by
      exact_mod_cast (Nat.div_mul_cancel (Nat.dvd_of_mod_eq_zero h.2)).symm
    rw [ih, add_comm e 1, ten_zpow_add 1, hc]
    norm_num
    ring
  | case3 => rfl

/-- A power as a quotient of powers with natural exponents, of which one is zero. -/
theorem pow_toNat_div (b : ℚ) (s : ℤ) : b ^ s.toNat / b ^ (-s).toNat = b ^ s := by
  rcases le_total 0 s with h | h
  · rw [Int.toNat_of_nonpos (by omega : -s ≤ 0), pow_zero, div_one, ← zpow_natCast,
      Int.toNat_of_nonneg h]
  · rw [Int.toNat_of_nonpos h, pow_zero, ← zpow_natCast, Int.toNat_of_nonneg (by omega), one_div,
      ← zpow_neg, neg_neg]

theorem ten_pow_toNat_div (s : ℤ) : (10 : ℚ) ^ s.toNat / 10 ^ (-s).toNat = 10 ^ s :=
  pow_toNat_div 10 s

/-- The quotient of the coefficients, one of them with zeros added, has more than 28 digits. -/
theorem lt_shifted_quotient {c d : ℕ} (hc : c ≠ 0) (hd : d ≠ 0) :
    (10 : ℚ) ^ (28 : ℤ) < c / d * 10 ^ ((digitCount d : ℤ) - digitCount c + precision + 1) := by
  have hlow : (10 : ℚ) ^ ((digitCount c : ℤ) - 1) ≤ c := by
    have h := pow_digitCount_le hc
    have hpos := digitCount_pos c
    rw [show (digitCount c : ℤ) - 1 = ((digitCount c - 1 : ℕ) : ℤ) by omega, zpow_natCast]
    exact_mod_cast h
  have hhigh : (d : ℚ) < 10 ^ (digitCount d : ℤ) := by
    rw [zpow_natCast]
    exact_mod_cast lt_pow_digitCount d
  have hd0 : (0 : ℚ) < d := by exact_mod_cast Nat.pos_of_ne_zero hd
  rw [div_mul_eq_mul_div, lt_div_iff₀ hd0]
  calc (10 : ℚ) ^ (28 : ℤ) * d < 10 ^ (28 : ℤ) * 10 ^ (digitCount d : ℤ) :=
        mul_lt_mul_of_pos_left hhigh (ten_zpow_pos _)
    _ = 10 ^ ((digitCount c : ℤ) - 1) *
          10 ^ ((digitCount d : ℤ) - digitCount c + precision + 1) := by
        rw [← ten_zpow_add, ← ten_zpow_add, precision]
        congr 1
        ring
    _ ≤ c * 10 ^ ((digitCount d : ℤ) - digitCount c + precision + 1) :=
        mul_le_mul_of_nonneg_right hlow (ten_zpow_pos _).le

/-- A quotient cut off to whole units, one more unit standing in for the rest where the last digit
would otherwise show a tie or an exact value. -/
theorem rounds_cut {n : Bool} {q : ℕ} {e : ℤ} (hq : q * 10 ^ e < x) (hq' : x < (q + 1) * 10 ^ e)
    (hbig : 10 ^ (e + 28) ≤ x) :
    Rounds (signed n x) (round n (if q % 5 = 0 then q + 1 else q) e) := by
  have hx : 0 < x := (ten_zpow_pos _).trans_le hbig
  have hlog : e + 28 ≤ Int.log 10 x := by
    rwa [← ten_zpow_le_iff hx]
  have scaled {y z : ℕ} (h : y < z) : (y : ℚ) * 10 ^ e < z * 10 ^ e :=
    mul_lt_mul_of_pos_right (by exact_mod_cast h) (ten_zpow_pos e)
  have scaled' {y z : ℕ} (h : y ≤ z) : (y : ℚ) * 10 ^ e ≤ z * 10 ^ e :=
    mul_le_mul_of_nonneg_right (by exact_mod_cast h) (ten_zpow_pos e).le
  generalize hr : (if q % 5 = 0 then q + 1 else q) = r
  have hlow : q / 5 * 5 < r := by split_ifs at hr <;> omega
  have hhigh : r < (q / 5 + 1) * 5 := by split_ifs at hr <;> omega
  -- the exact quotient and the one rounded lie between the same multiples of five
  have hround := nearest_congr (x := x) (y := r * 10 ^ e) (k := q / 5) (t := e)
    (by
      have := scaled' (by omega : q / 5 * 5 ≤ q)
      push_cast at this
      linarith)
    (by
      have := scaled' (by omega : q + 1 ≤ (q / 5 + 1) * 5)
      push_cast at this
      linarith)
    (by
      have := scaled hlow
      push_cast at this
      linarith)
    (by
      have := scaled hhigh
      push_cast at this
      linarith)
    hlog
  exact (rounds_round n r e).congr (mul_nonneg (Nat.cast_nonneg r) (ten_zpow_pos e).le) hx.le
    ⟨hround.1.symm, hround.2.symm⟩

/-- A quotient that leaves a remainder, cut off and rounded. -/
theorem rounds_cut_quotient {neg : Bool} {n d : ℕ} {e : ℤ} (hd : 0 < d) (hmod : n % d ≠ 0)
    (hbig : (10 : ℚ) ^ (28 : ℤ) ≤ (n : ℚ) / d) :
    Rounds (signed neg ((n : ℚ) / d * 10 ^ e))
      (round neg (if n / d % 5 = 0 then n / d + 1 else n / d) e) := by
  have hd' : (0 : ℚ) < d := by exact_mod_cast hd
  have hsplit := Nat.mod_add_div n d
  have hlt := Nat.mod_lt n hd
  apply rounds_cut
  · apply mul_lt_mul_of_pos_right _ (ten_zpow_pos e)
    rw [lt_div_iff₀ hd', mul_comm]
    exact_mod_cast (by omega : d * (n / d) < n)
  · apply mul_lt_mul_of_pos_right _ (ten_zpow_pos e)
    rw [div_lt_iff₀ hd', mul_comm, mul_add, mul_one]
    exact_mod_cast (by omega : n < d * (n / d) + d)
  · rw [add_comm, ten_zpow_add]
    exact mul_le_mul_of_nonneg_right hbig (ten_zpow_pos e).le

/-- A quotient of coefficients, one of them with zeros added. -/
theorem shifted_quotient_eq (c d : ℕ) (s : ℤ) :
    ((c * 10 ^ s.toNat : ℕ) : ℚ) / (d * 10 ^ (-s).toNat : ℕ) = c / d * 10 ^ s := by
  push_cast
  rw [mul_div_mul_comm, ten_pow_toNat_div]

/-- A quotient of magnitudes as one of coefficients, one of them with zeros added. -/
theorem magnitude_div_magnitude (a b : Decimal) (s : ℤ) : a.magnitude / b.magnitude =
    ((a.coeff * 10 ^ s.toNat : ℕ) : ℚ) / (b.coeff * 10 ^ (-s).toNat : ℕ)
      * 10 ^ (a.exp - b.exp - s) := by
  have h10 : (10 : ℚ) ≠ 0 := by norm_num
  rw [shifted_quotient_eq, magnitude, magnitude, mul_assoc, ← ten_zpow_add, mul_div_mul_comm,
    ← zpow_sub₀ h10]
  congr 2
  ring

/-- **The quotient is the exact quotient, rounded.** -/
theorem div_rounds (a : Decimal) {b : Decimal} (hb : b.coeff ≠ 0) :
    Rounds (a.toRat / b.toRat) (a.div b) := by
  unfold div
  dsimp only
  rw [if_neg hb]
  by_cases ha : a.coeff = 0
  · rw [if_pos ha]
    apply rounds_of_eq
    rw [toRat_of_coeff_eq_zero ha]
    simp
  rw [if_neg ha, show a.toRat / b.toRat = signed (a.negative != b.negative)
    (a.magnitude / b.magnitude) from signed_div _ _ _ _]
  have hbig := lt_shifted_quotient ha hb
  generalize (digitCount b.coeff : ℤ) - digitCount a.coeff + precision + 1 = s at hbig ⊢
  have hd : 0 < b.coeff * 10 ^ (-s).toNat := by positivity
  rw [← shifted_quotient_eq] at hbig
  rw [magnitude_div_magnitude a b s]
  generalize a.coeff * 10 ^ s.toNat = n at hbig ⊢
  generalize b.coeff * 10 ^ (-s).toNat = d at hd hbig ⊢
  generalize a.exp - b.exp - s = e
  by_cases hexact : n % d = 0
  · rw [if_pos hexact]
    apply rounds_of_eq
    have hq : (n : ℚ) / d = ((n / d : ℕ) : ℚ) := by
      rw [div_eq_iff (by exact_mod_cast hd.ne')]
      exact_mod_cast (Nat.div_mul_cancel (Nat.dvd_of_mod_eq_zero hexact)).symm
    rw [stripZeros_value, hq]
  · rw [if_neg hexact]
    exact rounds_cut_quotient hd hexact hbig.le

/-! ## Fixed places -/

/-- A rational that is not negative, rounded half up to the place `e`. -/
def atPlace (e : ℤ) (x : ℚ) : ℚ := Rounding.halfUp.nearest (x / 10 ^ e) * 10 ^ e

/-- A rational rounded to the place `e`, a half away from zero. -/
def quantized (e : ℤ) (x : ℚ) : ℚ := if x < 0 then -atPlace e (-x) else atPlace e x

/-- The outcome of writing a number with the last place `e`. -/
def Quantizes (e : ℤ) (x : ℚ) : Except Signal Decimal → Prop
  | .ok d => d.toRat = quantized e x ∧ Rounding.halfUp.nearest (|x| / 10 ^ e) < 10 ^ 28
  | .error s => s = .invalidOperation ∧ 10 ^ 28 ≤ Rounding.halfUp.nearest (|x| / 10 ^ e)

/-- What 28 digits are enough for has a result. -/
theorem Quantizes.exists_ok {e : ℤ} (h : Quantizes e x r)
    (hx : Rounding.halfUp.nearest (|x| / 10 ^ e) < 10 ^ 28) :
    ∃ d : Decimal, r = .ok d ∧ d.toRat = quantized e x := by
  cases r with
  | ok d => exact ⟨d, rfl, h.1⟩
  | error s => exact absurd h.2 (not_le.2 hx)

theorem atPlace_nonneg (e : ℤ) (x : ℚ) : 0 ≤ atPlace e x :=
  mul_nonneg (Nat.cast_nonneg _) (ten_zpow_pos e).le

theorem atPlace_mono {e : ℤ} (hx : 0 ≤ x) (h : x ≤ y) : atPlace e x ≤ atPlace e y := by
  have hn := Rounding.nearest_mono (m := .halfUp) (div_nonneg hx (ten_zpow_pos e).le)
    (div_le_div_of_nonneg_right h (ten_zpow_pos e).le)
  exact mul_le_mul_of_nonneg_right (by exact_mod_cast hn) (ten_zpow_pos e).le

@[simp] theorem atPlace_zero (e : ℤ) : atPlace e 0 = 0 := by
  have h := Rounding.nearest_natCast (m := .halfUp) 0
  simp_all [atPlace]

theorem quantized_of_nonneg {e : ℤ} (hx : 0 ≤ x) : quantized e x = atPlace e x :=
  if_neg (not_lt.2 hx)

/-- A number with the last place `e` has few digits before it. -/
theorem Quantizes.lt {e : ℤ} {d : Decimal} (h : Quantizes e x (.ok d)) (hx : 0 ≤ x) :
    d.toRat < 10 ^ (e + 28) := by
  obtain ⟨hd, hlt⟩ := h
  rw [abs_of_nonneg hx] at hlt
  have hpow : (10 : ℚ) ^ (e + 28) = 10 ^ 28 * 10 ^ e := by
    rw [add_comm, ten_zpow_add]
    norm_cast
  rw [hd, quantized_of_nonneg hx, atPlace, hpow]
  exact mul_lt_mul_of_pos_right (by exact_mod_cast hlt) (ten_zpow_pos e)

theorem quantized_signed {e : ℤ} (n : Bool) (hx : 0 ≤ x) :
    quantized e (signed n x) = signed n (atPlace e x) := by
  cases n
  · exact quantized_of_nonneg hx
  · rcases hx.eq_or_lt with rfl | hx
    · simp [quantized, signed]
    · simp [quantized, signed, hx]

theorem atPlace_le_add_half {e : ℤ} (hx : 0 ≤ x) : atPlace e x ≤ x + 10 ^ e / 2 := by
  have h := mul_le_mul_of_nonneg_right (Rounding.nearest_le_add_half (m := .halfUp)
    (div_nonneg hx (ten_zpow_pos e).le)) (ten_zpow_pos e).le
  rw [add_mul, div_mul_cancel₀ _ (ten_zpow_pos e).ne'] at h
  rw [atPlace]
  linarith

theorem le_atPlace_add_half {e : ℤ} (hx : 0 ≤ x) : x ≤ atPlace e x + 10 ^ e / 2 := by
  have h := mul_le_mul_of_nonneg_right (Rounding.le_nearest_add_half (m := .halfUp)
    (div_nonneg hx (ten_zpow_pos e).le)) (ten_zpow_pos e).le
  rw [add_mul, div_mul_cancel₀ _ (ten_zpow_pos e).ne'] at h
  rw [atPlace]
  linarith

theorem ten_zpow_le_atPlace {e : ℤ} (h : atPlace e x ≠ 0) : 10 ^ e ≤ atPlace e x := by
  have hn : Rounding.halfUp.nearest (x / 10 ^ e) ≠ 0 := by
    intro h0
    exact h (by simp [atPlace, h0])
  have h1 : (1 : ℚ) ≤ Rounding.halfUp.nearest (x / 10 ^ e) := by
    exact_mod_cast Nat.pos_of_ne_zero hn
  exact le_mul_of_one_le_left (ten_zpow_pos e).le h1

theorem le_two_mul_atPlace {e : ℤ} (hx : 0 ≤ x) (h : atPlace e x ≠ 0) : x ≤ 2 * atPlace e x := by
  have hn : Rounding.halfUp.nearest (x / 10 ^ e) ≠ 0 := by
    intro h0
    exact h (by simp [atPlace, h0])
  have h' := mul_le_mul_of_nonneg_right (Rounding.le_two_mul_nearest
    (div_nonneg hx (ten_zpow_pos e).le) hn) (ten_zpow_pos e).le
  rwa [div_mul_cancel₀ _ (ten_zpow_pos e).ne', mul_assoc] at h'

theorem precision_lt_digitCount (c : ℕ) : precision < digitCount c ↔ 10 ^ 28 ≤ c := by
  rcases Nat.eq_zero_or_pos c with rfl | hc
  · simp [digitCount_eq_log, precision]
  · rw [digitCount_eq_log, precision, Nat.lt_succ_iff, Nat.le_log_iff_pow_le (by norm_num) hc.ne']

/-- A number with its leading digit this far above a place needs too many digits. -/
theorem le_nearest_of_adjusted {a : Decimal} (hc : a.coeff ≠ 0) {e : ℤ} (h : e + 28 ≤ a.adjusted) :
    10 ^ 28 ≤ Rounding.halfUp.nearest (a.magnitude / 10 ^ e) := by
  rw [← log_magnitude hc, ← ten_zpow_le_iff (magnitude_pos hc)] at h
  have hdiv : ((10 ^ 28 : ℕ) : ℚ) ≤ a.magnitude / 10 ^ e := by
    rw [le_div_iff₀ (ten_zpow_pos e)]
    refine le_of_eq_of_le ?_ h
    rw [add_comm, ten_zpow_add]
    norm_cast
  have hn := Rounding.nearest_mono (m := .halfUp) (Nat.cast_nonneg _) hdiv
  rwa [Rounding.nearest_natCast] at hn

/-- **`quantize` rounds half up to its place**, as long as 28 digits are enough. -/
theorem quantize_quantizes (a : Decimal) {e : ℤ} (he : tiniest ≤ e)
    (he' : e + 27 ≤ maxExponent) : Quantizes e a.toRat (a.quantize e) := by
  unfold quantize
  rw [if_neg (by omega)]
  by_cases hc : a.coeff = 0
  · rw [if_pos hc, Quantizes, toRat_of_coeff_eq_zero hc, quantized_of_nonneg le_rfl, atPlace_zero]
    have h := Rounding.nearest_natCast (m := .halfUp) 0
    simp_all [toRat_mk]
  rw [if_neg hc]
  by_cases hover : maxExponent < a.adjusted ∨ (precision : ℤ) < a.adjusted - e + 1
  · rw [if_pos hover, Quantizes, abs_toRat]
    rw [precision] at hover
    exact ⟨rfl, le_nearest_of_adjusted hc (by omega)⟩
  rw [if_neg hover]
  have hcoeff : (if e ≤ a.exp then a.coeffAt e else dropDigits .halfUp a.coeff (e - a.exp).toNat)
      = Rounding.halfUp.nearest (a.magnitude / 10 ^ e) := by
    split_ifs with hexp
    · rw [← coeffAt_eq a hexp, Rounding.nearest_natCast]
    · rw [dropDigits_eq, ten_pow_toNat (by omega), magnitude, div_div_eq_mul_div]
  dsimp only
  rw [hcoeff]
  split_ifs with hdigits
  · exact ⟨rfl, by rwa [abs_toRat, ← precision_lt_digitCount]⟩
  · refine ⟨?_, by rwa [abs_toRat, ← not_le, ← precision_lt_digitCount]⟩
    rw [toRat_mk, toRat, quantized_signed _ a.magnitude_nonneg, atPlace]

end Stowage.Decimal
