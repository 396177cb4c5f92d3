import Mathlib.Tactic
import Stowage.Time.Timestamp

/-!
# The calendar

The date that is given to a day is counted back to that day (`Date.toDays_ofDays`), and the days of
the years 1 to 9999 are given dates that there are (`Date.isValid_ofDays`). Days are counted in eras
of 400 years, whose years begin in March.
-/

namespace Stowage.Date

/-! ## The years of an era -/

/-- The day of an era on which one of its years begins. -/
def yearStart (y : ℤ) : ℤ := 365 * y + y / 4 - y / 100 + y / 400

/-- The year of an era that one of its days is in. -/
def yearOfDay (n : ℤ) : ℤ := (n - n / 1460 + n / 36524 - n / 146096) / 365

/-- The year of a century that one of its days is in. Every fourth year of the century `c` has a
leap day, but the last one only in the last century of the era. -/
theorem century_bounds {c m u t : ℤ} (hc : 0 ≤ c ∧ c ≤ 3) (hm : 0 ≤ m ∧ m < 36524)
    (hu : u = (24 * c + m) / 1460) (ht : t = (m - u) / 365) :
    0 ≤ t ∧ t ≤ 99 ∧ 365 * t + t / 4 ≤ m ∧ (t < 99 → m < 365 * (t + 1) + (t + 1) / 4) :=
  ⟨by omega, by omega, by omega, fun h => by omega⟩

theorem yearOfDay_bounds {n y : ℤ} (h0 : 0 ≤ n) (h1 : n < 146097) (hy : y = yearOfDay n) :
    0 ≤ y ∧ y < 400 ∧ yearStart y ≤ n ∧ n < yearStart (y + 1) := by
  unfold yearStart
  unfold yearOfDay at hy
  -- the leap day of the era is its last day and in no century
  rcases eq_or_ne n 146096 with rfl | hn
  · norm_num at hy
    subst hy
    norm_num
  · obtain ⟨c, m, hc, hm, hn⟩ : ∃ c m, (0 ≤ c ∧ c ≤ 3) ∧ (0 ≤ m ∧ m < 36524) ∧ n = 36524 * c + m :=
      ⟨n / 36524, n % 36524, by omega, by omega, by omega⟩
    obtain ⟨h0, h99, hlow, hhigh⟩ := century_bounds hc hm rfl rfl
    generalize hu : (24 * c + m) / 1460 = u at *
    generalize ht : (m - u) / 365 = t at *
    have hdays : n / 1460 = 25 * c + u ∧ n / 36524 = c ∧ n / 146096 = 0 := by omega
    have hyt : y = 100 * c + t := by omega
    have hyears : y / 4 = 25 * c + t / 4 ∧ y / 100 = c ∧ y / 400 = 0 := by omega
    refine ⟨by omega, by omega, by omega, ?_⟩
    rcases lt_or_eq_of_le h99 with ht | ht
    · have hnext : (y + 1) / 4 = 25 * c + (t + 1) / 4 ∧ (y + 1) / 100 = c ∧ (y + 1) / 400 = 0 := by
        omega
      have := hhigh ht
      omega
    · omega

/-- A year that begins in March has a day more when its end is in a leap year. -/
theorem yearStart_succ (y era : ℤ) :
    yearStart (y + 1) = yearStart y + (if isLeap (y + era * 400 + 1) then 366 else 365) := by
  have hleap : isLeap (y + era * 400 + 1) = true ↔
      (y + 1) % 4 = 0 ∧ ((y + 1) % 100 ≠ 0 ∨ (y + 1) % 400 = 0) := by
    simp only [isLeap, Bool.and_eq_true, Bool.or_eq_true, beq_iff_eq, bne_iff_ne]
    omega
  unfold yearStart
  split_ifs with h
  · have := hleap.1 h
    omega
  · have := mt hleap.2 h
    omega

/-! ## Days and dates -/

/-- The day of a year on which one of its months begins, counted from March. -/
def monthStart (m : ℤ) : ℤ := (153 * m + 2) / 5

/-- A day is the day `dom` of the month `m` of the year `y` of an era. -/
structure Split (days era y m dom : ℤ) : Prop where
  year : 0 ≤ y ∧ y < 400
  month : 0 ≤ m ∧ m < 12
  day : 1 ≤ dom
  inMonth : monthStart m + dom - 1 < monthStart (m + 1)
  inYear : yearStart y + (monthStart m + dom - 1) < yearStart (y + 1)
  days : days + 719468 = era * 146097 + yearStart y + (monthStart m + dom - 1)

/-- Every day is in a month of a year, from which its date is read off. -/
theorem exists_split (days : ℤ) : ∃ era y m dom, Split days era y m dom ∧
    ofDays days = ⟨y + era * 400 + (if m < 10 then 0 else 1),
      (if m < 10 then m + 3 else m - 9).toNat, dom.toNat⟩ := by
  have hrest : 0 ≤ days + 719468 - (days + 719468).fdiv 146097 * 146097 ∧
      days + 719468 - (days + 719468).fdiv 146097 * 146097 < 146097 := by
    rw [Int.fdiv_eq_ediv_of_nonneg _ (by norm_num)]
    omega
  unfold ofDays
  extract_lets z era n y doy m dom month year
  obtain ⟨hy0, hy, hlow, hhigh⟩ := yearOfDay_bounds (n := n) (y := y) hrest.1 hrest.2 rfl
  have hn : n = days + 719468 - era * 146097 := rfl
  have hdoy : doy = n - (365 * y + y / 4 - y / 100) := rfl
  have hm : m = (5 * doy + 2) / 153 := rfl
  have hdom : dom = doy - monthStart m + 1 := rfl
  have hmonth : month = if m < 10 then m + 3 else m - 9 := rfl
  have hyear : year = y + era * 400 + (if month ≤ 2 then 1 else 0) := rfl
  clear_value year month dom m doy y n era z
  have hstart : doy = n - yearStart y := by
    unfold yearStart
    omega
  have hlength : yearStart (y + 1) ≤ yearStart y + 366 := by
    unfold yearStart
    omega
  have hmonths : 0 ≤ m ∧ m < 12 := by omega
  refine ⟨era, y, m, dom, ⟨⟨hy0, hy⟩, hmonths, ?_, ?_, by omega, by omega⟩, ?_⟩
  · unfold monthStart at hdom
    omega
  · unfold monthStart at hdom ⊢
    omega
  · have hnext : (if month ≤ 2 then 1 else 0 : ℤ) = if m < 10 then 0 else 1 := by
      split_ifs at hmonth ⊢ <;> omega
    rw [hyear, hnext, hmonth]

/-- **The date of a day is counted back to it.** -/
theorem toDays_ofDays (days : ℤ) : (ofDays days).toDays = days := by
  obtain ⟨era, y, m, dom, h, hdate⟩ := exists_split days
  obtain ⟨hyear, hmonth, hday, -, -, hdays⟩ := h
  have hstart : yearStart y = 365 * y + y / 4 - y / 100 := by
    unfold yearStart
    omega
  have hera : (y + era * 400).fdiv 400 = era := by
    rw [Int.fdiv_eq_ediv_of_nonneg _ (by norm_num)]
    omega
  unfold monthStart at hdays
  rw [hdate]
  unfold toDays
  by_cases hm : m < 10
  · have hlate : ¬ (m + 3).toNat ≤ 2 := by omega
    simp only [if_pos hm, if_neg hlate, add_zero, hera]
    omega
  · have hearly : (m - 9).toNat ≤ 2 := by omega
    simp only [if_neg hm, if_pos hearly, add_sub_cancel_right, hera]
    omega

/-- Every month from March to January has the days until the next one. -/
theorem daysIn_eq {m : ℤ} (h0 : 0 ≤ m) (h11 : m < 11) (year : ℤ) :
    (daysIn year (if m < 10 then m + 3 else m - 9).toNat : ℤ) =
      monthStart (m + 1) - monthStart m := by
  interval_cases m <;> rfl

theorem Split.le_daysIn {days era y m dom : ℤ} (h : Split days era y m dom) :
    dom.toNat ≤ daysIn (y + era * 400 + (if m < 10 then 0 else 1))
      (if m < 10 then m + 3 else m - 9).toNat := by
  obtain ⟨-, ⟨hm0, hm12⟩, hday, hmonth, hyear, -⟩ := h
  rcases lt_or_ge m 11 with hm | hm
  · have := daysIn_eq hm0 hm (y + era * 400 + (if m < 10 then 0 else 1))
    omega
  · obtain rfl : m = 11 := by omega
    have hfebruary : monthStart 11 = 337 := rfl
    have hnext := yearStart_succ y era
    change dom.toNat ≤ if isLeap (y + era * 400 + 1) then 29 else 28
    split_ifs at hnext ⊢ <;> omega

/-- **There are dates for the days** from the first of January of the year 1 to the last of December
of the year 9999. -/
theorem isValid_ofDays {days : ℤ} (hlow : -719162 ≤ days) (hhigh : days ≤ 2932896) :
    (ofDays days).isValid = true := by
  obtain ⟨era, y, m, dom, h, hdate⟩ := exists_split days
  have hdom := h.le_daysIn
  obtain ⟨hyear, hmonth, hday, hlast, -, hdays⟩ := h
  have hstart : yearStart y = 365 * y + y / 4 - y / 100 := by
    unfold yearStart
    omega
  unfold monthStart at hlast hdays
  rw [hdate, isValid]
  simp only [Bool.and_eq_true, decide_eq_true_eq]
  refine ⟨⟨⟨⟨⟨?_, ?_⟩, ?_⟩, ?_⟩, by omega⟩, hdom⟩ <;> clear hdom <;> split_ifs <;> omega

end Stowage.Date
