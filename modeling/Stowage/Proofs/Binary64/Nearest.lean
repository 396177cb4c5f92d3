import Stowage.Binary64.Text
import Stowage.Proofs.Decimal.Rounds

/-!
# Rounding to binary floating point

A quotient becomes the nearest multiple of its unit, or an infinity (`ofRatio_cases`). No number of
the format is nearer (`abs_unit_sub_le`), and so a decimal becomes the number nearest to it unless
it is beyond the range of binary64 (`ofDecimal_cases`). Four decimal places of that number are those
of the decimal but for one unit, so that a decimal of at least one such unit does not vanish
(`exists_fourPlaces`).
-/

namespace Stowage.Binary64

open Decimal

/-! ## Powers of two -/

theorem two_zpow_pos (e : ℤ) : (0 : ℚ) < 2 ^ e := zpow_pos (by norm_num) e

theorem two_zpow_add (d e : ℤ) : (2 : ℚ) ^ (d + e) = 2 ^ d * 2 ^ e := zpow_add₀ (by norm_num) d e

theorem two_zpow_le {d e : ℤ} (h : d ≤ e) : (2 : ℚ) ^ d ≤ 2 ^ e :=
  zpow_le_zpow_right₀ (by norm_num) h

theorem two_zpow_le_iff {x : ℚ} (hx : 0 < x) {e : ℤ} : 2 ^ e ≤ x ↔ e ≤ Int.log 2 x :=
  Int.zpow_le_iff_le_log (by norm_num) hx

theorem lt_two_zpow_iff {x : ℚ} (hx : 0 < x) {e : ℤ} : x < 2 ^ e ↔ Int.log 2 x < e :=
  Int.lt_zpow_iff_log_lt (by norm_num) hx

theorem two_pow_toNat_div (s : ℤ) : (2 : ℚ) ^ s.toNat / 2 ^ (-s).toNat = 2 ^ s :=
  pow_toNat_div 2 s

/-- A quotient divided by a power of two, as one of naturals. -/
theorem scaled_quotient (n d : ℕ) (e : ℤ) :
    ((n * 2 ^ (-e).toNat : ℕ) : ℚ) / (d * 2 ^ e.toNat : ℕ) = n / d / 2 ^ e := by
  have h := two_pow_toNat_div (-e)
  rw [neg_neg] at h
  push_cast
  rw [mul_div_mul_comm, h, zpow_neg, div_eq_mul_inv (n / d : ℚ)]

/-! ## Quotients -/

variable {n d : ℕ}

theorem scaledMantissa_eq (hd : 0 < d) (e : ℤ) :
    scaledMantissa n d e = Rounding.halfEven.nearest (n / d / 2 ^ e) := by
  rw [scaledMantissa, roundDiv_eq _ _ (by positivity), scaled_quotient]

/-- A quotient lies within a factor of two of the power of two that its lengths say. -/
theorem quotient_bounds (hn : n ≠ 0) (hd : d ≠ 0) :
    (2 : ℚ) ^ ((n.log2 : ℤ) - d.log2 - 1) ≤ n / d ∧
      (n : ℚ) / d < 2 ^ ((n.log2 : ℤ) - d.log2 + 1) := by
  have h2 : (2 : ℚ) ≠ 0 := by norm_num
  have hd0 : (0 : ℚ) < d := by exact_mod_cast Nat.pos_of_ne_zero hd
  have hn₁ : (2 : ℚ) ^ (n.log2 : ℤ) ≤ n := by exact_mod_cast Nat.log2_self_le hn
  have hn₂ : (n : ℚ) < 2 ^ ((n.log2 : ℤ) + 1) := by exact_mod_cast Nat.lt_log2_self
  have hd₁ : (2 : ℚ) ^ (d.log2 : ℤ) ≤ d := by exact_mod_cast Nat.log2_self_le hd
  have hd₂ : (d : ℚ) < 2 ^ ((d.log2 : ℤ) + 1) := by exact_mod_cast Nat.lt_log2_self
  constructor
  · rw [le_div_iff₀ hd0]
    calc (2 : ℚ) ^ ((n.log2 : ℤ) - d.log2 - 1) * d
        ≤ 2 ^ ((n.log2 : ℤ) - d.log2 - 1) * 2 ^ ((d.log2 : ℤ) + 1) :=
          mul_le_mul_of_nonneg_left hd₂.le (two_zpow_pos _).le
      _ = 2 ^ (n.log2 : ℤ) := by
          rw [← two_zpow_add]
          congr 1
          ring
      _ ≤ n := hn₁
  · rw [div_lt_iff₀ hd0]
    calc (n : ℚ) < 2 ^ ((n.log2 : ℤ) + 1) := hn₂
      _ = 2 ^ ((n.log2 : ℤ) - d.log2 + 1) * 2 ^ (d.log2 : ℤ) := by
          rw [← two_zpow_add]
          congr 1
          ring
      _ ≤ 2 ^ ((n.log2 : ℤ) - d.log2 + 1) * d :=
          mul_le_mul_of_nonneg_left hd₁ (two_zpow_pos _).le

/-- The exponent of the unit in which a positive number is rounded: 52 binary places below the
leading one, unless that is below the least unit there is. -/
def place (x : ℚ) : ℤ := max tiniest (Int.log 2 x - 52)

/-- The exponent that is found from the lengths of two numbers is that of their quotient. -/
theorem exponentFor_eq (hn : n ≠ 0) (hd : d ≠ 0) : exponentFor n d = place (n / d) := by
  have hx : (0 : ℚ) < n / d := by positivity
  obtain ⟨hge, hlt⟩ := quotient_bounds hn hd
  rw [two_zpow_le_iff hx] at hge
  rw [lt_two_zpow_iff hx] at hlt
  unfold exponentFor place
  dsimp only
  generalize hg : (n.log2 : ℤ) - d.log2 - 52 = g
  have hwide : n * 2 ^ (-g).toNat < d * 2 ^ g.toNat * 4503599627370496 ↔
      Int.log 2 ((n : ℚ) / d) < g + 52 := by
    rw [← lt_two_zpow_iff hx, two_zpow_add, mul_comm ((2 : ℚ) ^ g), ← div_lt_iff₀ (two_zpow_pos g),
      ← scaled_quotient, div_lt_iff₀ (by positivity), ← Nat.cast_lt (α := ℚ)]
    push_cast
    norm_num [mul_comm]
  simp only [hwide]
  congr 1
  split_ifs with h <;> omega

/-- The unit is one of 53 binary digits, or the least there is. -/
theorem two_zpow_place_le {x : ℚ} (hx : 0 < x) :
    (2 : ℚ) ^ place x ≤ max (x * 2 ^ (-52 : ℤ)) (2 ^ tiniest) := by
  rw [place]
  rcases le_total tiniest (Int.log 2 x - 52) with h | h
  · rw [max_eq_right h, sub_eq_add_neg, two_zpow_add]
    exact le_max_of_le_left
      (mul_le_mul_of_nonneg_right ((two_zpow_le_iff hx).2 le_rfl) (two_zpow_pos (-52)).le)
  · rw [max_eq_left h]
    exact le_max_right _ _

/-- A number is at most half a unit away from the nearest multiple of it. -/
theorem abs_nearest_mul_sub_le {x : ℚ} (hx : 0 < x) (e : ℤ) :
    |(Rounding.halfEven.nearest (x / 2 ^ e) : ℚ) * 2 ^ e - x| ≤ 2 ^ e / 2 := by
  have hpow := two_zpow_pos e
  have hnonneg : 0 ≤ x / 2 ^ e := by positivity
  have hle := mul_le_mul_of_nonneg_right
    (Rounding.nearest_le_add_half (m := .halfEven) hnonneg) hpow.le
  have hge := mul_le_mul_of_nonneg_right
    (Rounding.le_nearest_add_half (m := .halfEven) hnonneg) hpow.le
  rw [add_mul, div_mul_cancel₀ _ hpow.ne'] at hle
  rw [add_mul, div_mul_cancel₀ _ hpow.ne'] at hge
  rw [abs_le]
  constructor <;> linarith

/-! ## Mantissas -/

variable {x : ℚ}

theorem div_two_zpow_place_lt (hx : 0 < x) : x / 2 ^ place x < 2 ^ (53 : ℤ) := by
  rw [div_lt_iff₀ (two_zpow_pos _), ← two_zpow_add, lt_two_zpow_iff hx, place]
  omega

theorem le_div_two_zpow_place (hx : 0 < x) (h : place x ≠ tiniest) :
    2 ^ (52 : ℤ) ≤ x / 2 ^ place x := by
  have hplace : place x = Int.log 2 x - 52 := by
    rw [place] at h ⊢
    omega
  rw [le_div_iff₀ (two_zpow_pos _), ← two_zpow_add, two_zpow_le_iff hx, hplace]
  omega

/-- A number has at most 53 digits in its unit, but that the last rounding may carry. -/
theorem nearest_place_le (hx : 0 < x) :
    Rounding.halfEven.nearest (x / 2 ^ place x) ≤ 9007199254740992 := by
  have hlt := div_two_zpow_place_lt hx
  rw [Rounding.nearest_le_iff (by positivity)]
  norm_num at hlt ⊢
  exact .inl (by linarith)

/-- It has no fewer, unless the unit is the least there is. -/
theorem le_nearest_place (hx : 0 < x) (h : place x ≠ tiniest) :
    4503599627370496 ≤ Rounding.halfEven.nearest (x / 2 ^ place x) := by
  have hle := le_div_two_zpow_place hx h
  have hmono := Rounding.nearest_mono (m := .halfEven) (x := ((4503599627370496 : ℕ) : ℚ))
    (Nat.cast_nonneg _) (by norm_num at hle ⊢; exact hle)
  rwa [Rounding.nearest_natCast] at hmono

/-- The number from which on all are rounded to an infinity: half a unit above the largest of the
format. -/
def bound : ℚ := 2 ^ (1024 : ℤ) - 2 ^ (970 : ℤ)

/-- What has its unit above those of the format is beyond its range. -/
theorem bound_le_of_lt_place (hx : 0 < x) (h : topExponent < place x) : bound ≤ x := by
  have hlog : (1024 : ℤ) ≤ Int.log 2 x := by
    simp only [place, topExponent, tiniest] at h
    omega
  calc bound ≤ 2 ^ (1024 : ℤ) := sub_le_self _ (two_zpow_pos _).le
    _ ≤ x := (two_zpow_le_iff hx).2 hlog

/-- So is what is rounded up to the first power of two that the format does not have. -/
theorem bound_le_of_nearest_eq (hx : 0 < x) (h : topExponent ≤ place x)
    (hfull : Rounding.halfEven.nearest (x / 2 ^ place x) = 9007199254740992) : bound ≤ x := by
  rcases h.lt_or_eq with h | h
  · exact bound_le_of_lt_place hx h
  · have hpow := two_zpow_pos topExponent
    rw [← h] at hfull
    have hhalf := Rounding.nearest_le_add_half (m := .halfEven) (x := x / 2 ^ topExponent)
      (by positivity)
    rw [hfull, ← sub_le_iff_le_add, le_div_iff₀ hpow] at hhalf
    have hbound : (((9007199254740992 : ℕ) : ℚ) - 1 / 2) * 2 ^ topExponent = bound := by
      have h53 : ((9007199254740992 : ℕ) : ℚ) = 2 ^ (53 : ℤ) := by norm_num
      have hhalf : (1 / 2 : ℚ) = 2 ^ (-1 : ℤ) := by norm_num
      rw [h53, hhalf, sub_mul, ← two_zpow_add, ← two_zpow_add]
      rfl
    exact hbound ▸ hhalf

theorem ofMagnitude_eq (negative : Bool) {m : ℕ} {e : ℤ} (h : IsMagnitude m e) :
    ofMagnitude negative m e = .finite negative m e h := dif_pos h

theorem ofMagnitude_eq_infinite (negative : Bool) {m : ℕ} {e : ℤ} (h : topExponent < e) :
    ofMagnitude negative m e = .infinite negative :=
  dif_neg fun hm => absurd hm.le_topExponent (not_le.2 h)

/-- **A quotient is rounded to the nearest** multiple of its unit. Beyond the range of binary64 it
becomes an infinity. -/
theorem ofRatio_cases (negative : Bool) (hn : n ≠ 0) (hd : d ≠ 0) :
    (ofRatio negative n d = .infinite negative ∧ bound ≤ n / d) ∨
      ∃ m e h, ofRatio negative n d = .finite negative m e h ∧
        (m : ℚ) * 2 ^ e =
          Rounding.halfEven.nearest (n / d / 2 ^ place (n / d)) * 2 ^ place (n / d) := by
  have hx : (0 : ℚ) < n / d := by positivity
  unfold ofRatio
  rw [if_neg hn]
  extract_lets e m
  have hm : m = Rounding.halfEven.nearest (n / d / 2 ^ e) :=
    scaledMantissa_eq (Nat.pos_of_ne_zero hd) e
  have he : e = place (n / d) := exponentFor_eq hn hd
  have hle : tiniest ≤ e := he ▸ le_max_left _ _
  have hwide : m ≤ 9007199254740992 := hm ▸ he ▸ nearest_place_le hx
  have hfull (h : e ≠ tiniest) : 4503599627370496 ≤ m := hm ▸ he ▸ le_nearest_place hx (he ▸ h)
  rw [← he, ← hm]
  clear_value m e
  by_cases hcarry : m = 9007199254740992
  -- a mantissa of 54 digits is written with one digit less
  · rw [if_pos hcarry]
    rcases lt_or_ge topExponent (e + 1) with htop | htop
    · refine .inl ⟨ofMagnitude_eq_infinite negative htop, ?_⟩
      exact bound_le_of_nearest_eq hx (by omega) (he ▸ hm ▸ hcarry)
    · have hvalid : IsMagnitude 4503599627370496 (e + 1) :=
        ⟨by norm_num, .inl le_rfl, by omega, htop⟩
      refine .inr ⟨_, _, hvalid, ofMagnitude_eq negative hvalid, ?_⟩
      rw [hcarry, two_zpow_add]
      push_cast
      ring
  · rw [if_neg hcarry]
    rcases lt_or_ge topExponent e with htop | htop
    · exact .inl ⟨ofMagnitude_eq_infinite negative htop, bound_le_of_lt_place hx (he ▸ htop)⟩
    · have hvalid : IsMagnitude m e := by
        refine ⟨by omega, ?_, hle, htop⟩
        by_cases h : e = tiniest
        · exact .inr h
        · exact .inl (hfull h)
      exact .inr ⟨m, e, hvalid, ofMagnitude_eq negative hvalid, rfl⟩

/-! ## The nearest number -/

/-- A number of the format is a multiple of the unit of another, or no larger than the power of two
that the other begins with. -/
theorem IsMagnitude.multiple_or_le {m : ℕ} {e : ℤ} (h : IsMagnitude m e) (hx : 0 < x) :
    (∃ k : ℕ, (m : ℚ) * 2 ^ e = k * 2 ^ place x) ∨
      (m : ℚ) * 2 ^ e ≤ 2 ^ (place x + 52) ∧ (2 : ℚ) ^ (place x + 52) ≤ x := by
  rcases le_or_gt (place x) e with he | he
  · obtain ⟨k, hk⟩ := Int.eq_ofNat_of_zero_le (sub_nonneg.2 he)
    refine .inl ⟨m * 2 ^ k, ?_⟩
    rw [show e = place x + k by omega, two_zpow_add]
    push_cast
    rw [zpow_natCast]
    ring
  · refine .inr ⟨?_, ?_⟩
    · have hm : (m : ℚ) ≤ 2 ^ (53 : ℤ) := by exact_mod_cast h.narrow.le
      calc (m : ℚ) * 2 ^ e ≤ 2 ^ (53 : ℤ) * 2 ^ e :=
            mul_le_mul_of_nonneg_right hm (two_zpow_pos e).le
        _ = 2 ^ (53 + e) := (two_zpow_add _ _).symm
        _ ≤ 2 ^ (place x + 52) := two_zpow_le (by omega)
    · have hle := le_div_two_zpow_place hx (h.tiniest_le.trans_lt he).ne'
      rwa [le_div_iff₀ (two_zpow_pos _), ← two_zpow_add, add_comm] at hle

/-- **No number of the format is nearer** than the nearest multiple of the unit. -/
theorem abs_unit_sub_le {m : ℕ} {e : ℤ} (h : IsMagnitude m e) (hx : 0 < x) :
    |(Rounding.halfEven.nearest (x / 2 ^ place x) : ℚ) * 2 ^ place x - x| ≤
      |(m : ℚ) * 2 ^ e - x| := by
  have hpow := two_zpow_pos (place x)
  have hgrid (k : ℕ) :
      |(Rounding.halfEven.nearest (x / 2 ^ place x) : ℚ) * 2 ^ place x - x| ≤
        |(k : ℚ) * 2 ^ place x - x| := by
    have hle := Rounding.abs_nearest_sub_le (m := .halfEven) (x := x / 2 ^ place x)
      (by positivity) k
    have hscale (n : ℕ) : |(n : ℚ) * 2 ^ place x - x| = |n - x / 2 ^ place x| * 2 ^ place x := by
      rw [← abs_of_pos hpow, ← abs_mul, abs_of_pos hpow, sub_mul, div_mul_cancel₀ _ hpow.ne']
    rw [hscale, hscale]
    exact mul_le_mul_of_nonneg_right hle hpow.le
  obtain ⟨k, hk⟩ | ⟨hsmall, hbelow⟩ := h.multiple_or_le hx
  · exact hk ▸ hgrid k
  -- between the two lies a power of two, which is a multiple of the unit
  · have hmiddle : ((2 ^ 52 : ℕ) : ℚ) * 2 ^ place x = 2 ^ (place x + 52) := by
      rw [two_zpow_add, mul_comm]
      norm_num
    calc |(Rounding.halfEven.nearest (x / 2 ^ place x) : ℚ) * 2 ^ place x - x|
        ≤ |2 ^ (place x + 52) - x| := hmiddle ▸ hgrid (2 ^ 52)
      _ = x - 2 ^ (place x + 52) := by rw [abs_sub_comm, abs_of_nonneg (sub_nonneg.2 hbelow)]
      _ ≤ x - m * 2 ^ e := sub_le_sub_left hsmall x
      _ ≤ |(m : ℚ) * 2 ^ e - x| := by rw [abs_sub_comm]; exact le_abs_self _

/-- The value of a finite number. -/
def toRat : Binary64 → ℚ
  | .finite negative m e _ => signed negative (m * 2 ^ e)
  | _ => 0

/-- A finite number of the format that none is nearer to a rational than. -/
structure IsNearest (y : Binary64) (x : ℚ) : Prop where
  isFinite : y.isFinite = true
  le : ∀ z : Binary64, z.isFinite = true → |y.toRat - x| ≤ |z.toRat - x|

theorem abs_sub_signed_le (negative sign : Bool) {v x : ℚ} (hv : 0 ≤ v) (hx : 0 ≤ x) :
    |v - x| ≤ |signed sign v - signed negative x| := by
  cases negative <;> cases sign <;> simp only [signed, if_true, if_false, Bool.false_eq_true]
  · exact le_rfl
  · rw [abs_sub_comm (-v), sub_neg_eq_add, abs_of_nonneg (add_nonneg hx hv), abs_le]
    constructor <;> linarith
  · rw [sub_neg_eq_add, abs_of_nonneg (add_nonneg hv hx), abs_le]
    constructor <;> linarith
  · rw [← neg_sub', abs_neg]

theorem isNearest_of_magnitude {negative : Bool} {m : ℕ} {e : ℤ} {h : IsMagnitude m e} {x : ℚ}
    (hx : 0 < x) (hle : ∀ m' e', IsMagnitude m' e' → |(m : ℚ) * 2 ^ e - x| ≤ |m' * 2 ^ e' - x|) :
    (finite negative m e h).IsNearest (signed negative x) := by
  refine ⟨rfl, fun z hz => ?_⟩
  have hsigned : |(finite negative m e h).toRat - signed negative x| = |(m : ℚ) * 2 ^ e - x| := by
    cases negative
    · rfl
    · simp only [toRat, signed, if_true]
      rw [← neg_sub', abs_neg]
  rw [hsigned]
  cases z with
  | finite sign m' e' h' =>
    exact (hle m' e' h').trans (abs_sub_signed_le negative sign (by positivity) hx.le)
  | infinite => cases hz
  | nan => cases hz

/-! ## Decimals -/

variable {a : Decimal}

/-- What is below half the least unit is nearest to zero. -/
theorem abs_zero_sub_le {m : ℕ} {e : ℤ} (h : IsMagnitude m e) (hx : 0 < x)
    (hsmall : x ≤ 2 ^ (-1075 : ℤ)) : |((0 : ℕ) : ℚ) * 2 ^ tiniest - x| ≤ |(m : ℚ) * 2 ^ e - x| := by
  have hleast : (2 : ℚ) ^ (-1075 : ℤ) * 2 = 2 ^ tiniest := (two_zpow_add (-1075) 1).symm
  rw [Nat.cast_zero, zero_mul, zero_sub, abs_neg, abs_of_pos hx]
  rcases Nat.eq_zero_or_pos m with rfl | hm
  · rw [Nat.cast_zero, zero_mul, zero_sub, abs_neg, abs_of_pos hx]
  · have hone : (1 : ℚ) ≤ m := by exact_mod_cast hm
    have hunit : (2 : ℚ) ^ tiniest ≤ m * 2 ^ e :=
      (two_zpow_le h.tiniest_le).trans (le_mul_of_one_le_left (two_zpow_pos e).le hone)
    exact le_abs.2 (.inl (by linarith))

/-- **A decimal is rounded to the nearest** number of the format, with an error of at most half a
unit in 53 binary digits, or half the least unit there is. What is beyond the range of binary64
becomes an infinity. -/
theorem ofDecimal_cases (ha : a.coeff ≠ 0) :
    (ofDecimal a = .infinite a.negative ∧ bound ≤ a.magnitude) ∨
      (ofDecimal a).IsNearest a.toRat ∧ ∃ m e h, ofDecimal a = .finite a.negative m e h ∧
        |(m : ℚ) * 2 ^ e - a.magnitude| ≤ max (a.magnitude * 2 ^ (-53 : ℤ)) (2 ^ (-1075 : ℤ)) := by
  have hpos := magnitude_pos ha
  have hlog := log_magnitude ha
  rw [ofDecimal, if_neg ha]
  split_ifs with hlarge hsmall
  · refine .inl ⟨rfl, le_trans ?_ ((ten_zpow_le_iff hpos).2 (hlog ▸ hlarge.le))⟩
    have hfar : (2 : ℚ) ^ (1024 : ℤ) ≤ 10 ^ (310 : ℤ) := by
      exact_mod_cast (by decide +kernel : 2 ^ 1024 ≤ 10 ^ 310)
    exact (sub_le_self _ (two_zpow_pos _).le).trans hfar
  · have hlt := (lt_ten_zpow_iff hpos).2 (hlog ▸ hsmall)
    have htiny : (10 : ℚ) ^ (-330 : ℤ) ≤ 2 ^ (-1075 : ℤ) := by
      rw [zpow_neg, zpow_neg]
      apply inv_anti₀ (two_zpow_pos 1075)
      exact_mod_cast (by decide +kernel : 2 ^ 1075 ≤ 10 ^ 330)
    refine .inr ⟨isNearest_of_magnitude hpos fun m e h =>
      abs_zero_sub_le h hpos (hlt.le.trans htiny), _, _, isMagnitude_zero, rfl,
      le_max_of_le_right ?_⟩
    rw [Nat.cast_zero, zero_mul, zero_sub, abs_neg, abs_of_pos hpos]
    exact hlt.le.trans htiny
  · have hquotient : ((a.coeff * 10 ^ a.exp.toNat : ℕ) : ℚ) / (10 ^ (-a.exp).toNat : ℕ) =
        a.magnitude := by
      push_cast
      rw [mul_div_assoc, ten_pow_toNat_div, magnitude]
    obtain ⟨h, htop⟩ | ⟨m, e, hvalid, h, hvalue⟩ := ofRatio_cases a.negative
      (n := a.coeff * 10 ^ a.exp.toNat) (d := 10 ^ (-a.exp).toNat) (by positivity) (by positivity)
    · exact .inl ⟨h, hquotient ▸ htop⟩
    · rw [hquotient] at hvalue
      refine .inr ⟨h ▸ isNearest_of_magnitude hpos fun m' e' h' =>
        hvalue ▸ abs_unit_sub_le h' hpos, m, e, hvalid, h,
        hvalue ▸ (abs_nearest_mul_sub_le hpos _).trans ?_⟩
      have hunit := two_zpow_place_le hpos
      have hdigit : (2 : ℚ) ^ (-53 : ℤ) * 2 = 2 ^ (-52 : ℤ) := (two_zpow_add (-53) 1).symm
      have hleast : (2 : ℚ) ^ (-1075 : ℤ) * 2 = 2 ^ tiniest := (two_zpow_add (-1075) 1).symm
      rw [← hdigit, ← hleast, ← mul_assoc, ← max_mul_of_nonneg _ _ two_pos.le] at hunit
      exact (div_le_iff₀ two_pos).2 hunit

/-- Half a unit in 53 binary digits is more than half the least unit, when a number is not very
small. -/
theorem least_le_mul {x : ℚ} (hx : 2 ^ (-100 : ℤ) ≤ x) :
    (2 : ℚ) ^ (-1075 : ℤ) ≤ x * 2 ^ (-53 : ℤ) :=
  calc (2 : ℚ) ^ (-1075 : ℤ) ≤ 2 ^ (-100 + -53 : ℤ) := two_zpow_le (by norm_num)
    _ = 2 ^ (-100 : ℤ) * 2 ^ (-53 : ℤ) := two_zpow_add _ _
    _ ≤ x * 2 ^ (-53 : ℤ) := mul_le_mul_of_nonneg_right hx (two_zpow_pos _).le

theorem ten_zpow_lt_bound : (10 : ℚ) ^ (20 : ℤ) < bound := by
  have hdouble : (2 : ℚ) ^ (1024 : ℤ) = 2 ^ (1023 : ℤ) * 2 := two_zpow_add 1023 1
  calc (10 : ℚ) ^ (20 : ℤ) < 2 ^ (100 : ℤ) := by norm_num
    _ ≤ 2 ^ (1023 : ℤ) := two_zpow_le (by norm_num)
    _ = 2 ^ (1024 : ℤ) - 2 ^ (1023 : ℤ) := by rw [hdouble, mul_two, add_sub_cancel_right]
    _ ≤ bound := sub_le_sub_left (two_zpow_le (by norm_num)) _

/-- A decimal that is neither very large nor very small is rounded with 53 binary digits. -/
theorem exists_ofDecimal (hlow : 10 ^ (-20 : ℤ) ≤ a.magnitude)
    (hhigh : a.magnitude ≤ 10 ^ (20 : ℤ)) :
    ∃ m e h, ofDecimal a = .finite a.negative m e h ∧
      |(m : ℚ) * 2 ^ e - a.magnitude| ≤ a.magnitude * 2 ^ (-53 : ℤ) := by
  have hpos : 0 < a.magnitude := (ten_zpow_pos _).trans_le hlow
  obtain ⟨-, hlarge⟩ | ⟨-, m, e, hvalid, h, herror⟩ :=
    ofDecimal_cases (a := a) fun hc => hpos.ne' (magnitude_eq_zero.2 hc)
  · exact absurd (hlarge.trans hhigh) (not_le.2 ten_zpow_lt_bound)
  · rw [max_eq_left (least_le_mul (le_trans (by norm_num) hlow))] at herror
    exact ⟨m, e, hvalid, h, herror⟩

/-! ## Four places -/

theorem fourPlaces_finite (negative : Bool) {m : ℕ} {e : ℤ} (h : IsMagnitude m e) :
    fourPlaces (.finite negative m e h) =
      .finite ⟨negative, Rounding.halfEven.nearest (10000 * (m * 2 ^ e)), -4⟩ := by
  have hscale : ((10000 * m * 2 ^ e.toNat : ℕ) : ℚ) / (2 ^ (-e).toNat : ℕ) =
      10000 * (m * 2 ^ e) := by
    push_cast
    rw [mul_div_assoc, two_pow_toNat_div, mul_assoc]
  rw [fourPlaces, roundDiv_eq _ _ (by positivity), hscale]

/-- **What is at least one unit of the fourth place does not vanish**, and what is at most a whole
number of them stays so. -/
theorem exists_fourPlaces (hlow : 1 / 10000 ≤ a.magnitude) (hhigh : a.magnitude ≤ 10 ^ (8 : ℤ)) :
    ∃ c, (ofDecimal a).fourPlaces = .finite ⟨a.negative, c, -4⟩ ∧ 0 < c ∧ c ≤ 10 ^ 12 := by
  obtain ⟨m, e, hvalid, hofDecimal, herror⟩ := exists_ofDecimal (a := a)
    (le_trans (by norm_num) hlow) (hhigh.trans (by norm_num))
  rw [hofDecimal, fourPlaces_finite]
  refine ⟨_, rfl, ?_, ?_⟩
  all_goals
    rw [abs_le] at herror
    norm_num at herror hhigh
  · rw [Nat.pos_iff_ne_zero, ne_eq, ← Nat.le_zero, Rounding.nearest_le_iff (by positivity)]
    push_cast
    rintro (h | ⟨h, -⟩) <;> linarith
  · rw [Rounding.nearest_le_iff (by positivity)]
    left
    push_cast
    linarith

/-- What is at most four tenths of such a unit vanishes. -/
theorem fourPlaces_of_le (hlow : 10 ^ (-20 : ℤ) ≤ a.magnitude) (hhigh : a.magnitude ≤ 4 / 100000) :
    (ofDecimal a).fourPlaces = .finite ⟨a.negative, 0, -4⟩ := by
  obtain ⟨m, e, hvalid, hofDecimal, herror⟩ := exists_ofDecimal hlow (hhigh.trans (by norm_num))
  have hzero : Rounding.halfEven.nearest (10000 * (m * 2 ^ e)) ≤ 0 := by
    rw [abs_le] at herror
    norm_num at herror
    rw [Rounding.nearest_le_iff (by positivity)]
    left
    push_cast
    linarith
  rw [hofDecimal, fourPlaces_finite, Nat.le_zero.1 hzero]

end Stowage.Binary64
