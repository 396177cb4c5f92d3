import Mathlib.Data.Nat.Digits.Defs
import Stowage.Proofs.Time.Calendar

/-!
# Times that are read back

A time of universal time in the years 1 to 9999 is read back from its form in views
(`Timestamp.ofText?_viewText`).
-/

namespace Stowage

open Text

/-! ## Padded digits -/

namespace Timestamp

variable {width n : ℕ}

theorem toList_padded (width n : ℕ) : (padded width n).toList =
    List.replicate (width - (natDigits n).length) '0' ++ natDigits n :=
  String.toList_ofList

theorem length_padded (hwidth : 0 < width) (hn : n < 10 ^ width) :
    (padded width n).toList.length = width := by
  have hle : (natDigits n).length ≤ width := (Nat.length_toDigits_le_iff (by decide) hwidth).2 hn
  rw [toList_padded, List.length_append, List.length_replicate]
  omega

theorem isAsciiDigit_of_isDigit {c : Char} (h : c.isDigit = true) : isAsciiDigit c = true := by
  simpa [isAsciiDigit] using Char.isDigit_iff_toNat.1 h

theorem isAsciiDigit_padded (width n : ℕ) :
    ∀ c ∈ (padded width n).toList, isAsciiDigit c = true := by
  intro c hc
  rw [toList_padded, List.mem_append, List.mem_replicate] at hc
  rcases hc with ⟨-, rfl⟩ | hc
  · rfl
  · exact isAsciiDigit_of_isDigit (Nat.isDigit_of_mem_toDigits (by decide) (by decide) hc)

theorem digitsValue_eq (cs : List Char) : digitsValue cs = Nat.ofDigitChars 10 cs 0 :=
  Nat.ofDigitChars_eq_foldl.symm

theorem digitsValue_padded (width n : ℕ) : digitsValue (padded width n).toList = n := by
  rw [digitsValue_eq, toList_padded, Nat.ofDigitChars_append, Nat.ofDigitChars_replicate_zero,
    mul_zero]
  exact Nat.ofDigitChars_ten_toDigits

/-- Padded digits are read as the number that they were made of. -/
theorem digits?_padded (hwidth : 0 < width) (hn : n < 10 ^ width) (rest : List Char) :
    digits? width ((padded width n).toList ++ rest) = some (n, rest) := by
  have hlength := length_padded hwidth hn
  have htake : ((padded width n).toList ++ rest).take width = (padded width n).toList :=
    List.take_left' hlength
  have hdrop : ((padded width n).toList ++ rest).drop width = rest := List.drop_left' hlength
  have hall : (padded width n).toList.all isAsciiDigit = true :=
    List.all_eq_true.2 (isAsciiDigit_padded width n)
  unfold digits?
  rw [htake, hdrop]
  simp [hlength, hall, digitsValue_padded]

theorem digits?_two (hn : n < 100) (rest : List Char) :
    digits? 2 ((padded 2 n).toList ++ rest) = some (n, rest) :=
  digits?_padded (by decide) hn rest

/-! ## Dates and times of day -/

/-- A date with dashes is read back. -/
theorem date?_written {d : Date} (hd : d.isValid = true) (rest : List Char) :
    date? ((padded 4 d.year.toNat).toList ++ '-' :: ((padded 2 d.month).toList ++ '-' ::
      ((padded 2 d.day).toList ++ rest))) = some (d, rest) := by
  have hbounds := hd
  simp only [Date.isValid, Bool.and_eq_true, decide_eq_true_eq] at hbounds
  obtain ⟨⟨⟨⟨⟨hfirst, hlast⟩, -⟩, hmonth⟩, -⟩, hday⟩ := hbounds
  have hthirty : d.day ≤ 31 := by
    refine hday.trans ?_
    unfold Date.daysIn
    split_ifs <;> omega
  have hyear := digits?_padded (by decide : 0 < 4) (by omega : d.year.toNat < 10 ^ 4)
  have hback : ((d.year.toNat : ℕ) : ℤ) = d.year := by omega
  have hdash (cs : List Char) : skip '-' ('-' :: cs) = cs := rfl
  unfold date?
  simp only [hyear, hdash, digits?_two (by omega : d.month < 100),
    digits?_two (by omega : d.day < 100), Option.bind_eq_bind, Option.bind_some, hback, hd, if_true]

/-- Minutes and seconds after a colon are read back. -/
theorem part?_colon (hn : n < 100) (rest : List Char) :
    part? (':' :: ((padded 2 n).toList ++ rest)) = some (n, rest) :=
  digits?_two hn rest

theorem fractionMicros_padded (hn : n < 1000000) : fractionMicros (padded 6 n).toList = n := by
  have hlength := length_padded (by decide : 0 < 6) hn
  rw [fractionMicros, List.take_left' hlength, digitsValue_padded]

/-- A time of day of universal time is read back. -/
theorem clock?_written {micros : ℕ} (h : micros < 86400000000) :
    clock? 24 ((padded 2 (micros / 1000000 / 3600)).toList ++ ':' ::
      ((padded 2 (micros / 1000000 / 60 % 60)).toList ++ ':' ::
        ((padded 2 (micros / 1000000 % 60)).toList ++
          ((if micros % 1000000 = 0 then [] else '.' :: (padded 6 (micros % 1000000)).toList) ++
            ['Z'])))) = some (micros, ['Z']) := by
  have hhour : micros / 1000000 / 3600 < 24 := by omega
  have hminute : micros / 1000000 / 60 % 60 < 60 := by omega
  have hsecond : micros / 1000000 % 60 < 60 := by omega
  have hsum : ((micros / 1000000 / 3600 * 60 + micros / 1000000 / 60 % 60) * 60 +
      micros / 1000000 % 60) * 1000000 + micros % 1000000 = micros := by omega
  unfold clock?
  simp only [digits?_two (by omega : micros / 1000000 / 3600 < 100),
    part?_colon (by omega : micros / 1000000 / 60 % 60 < 100),
    part?_colon (by omega : micros / 1000000 % 60 < 100), Option.bind_eq_bind, Option.bind_some]
  rcases eq_or_ne (micros % 1000000) 0 with hzero | hzero
  · rw [hzero] at hsum
    simp [hzero, hhour, hminute, hsecond, hsum]
  · have hdigits := isAsciiDigit_padded 6 (micros % 1000000)
    have hne : (padded 6 (micros % 1000000)).toList ≠ [] := by
      have hlength := length_padded (by decide : 0 < 6) (by omega : micros % 1000000 < 10 ^ 6)
      exact List.ne_nil_of_length_pos (by omega)
    have htake : ((padded 6 (micros % 1000000)).toList ++ ['Z']).takeWhile isAsciiDigit =
        (padded 6 (micros % 1000000)).toList := by
      rw [List.takeWhile_append_of_pos hdigits]
      simp [isAsciiDigit]
    have hdrop : ((padded 6 (micros % 1000000)).toList ++ ['Z']).dropWhile isAsciiDigit =
        ['Z'] := by
      rw [List.dropWhile_append_of_pos hdigits]
      simp [isAsciiDigit]
    simp [hzero, htake, hdrop, hne, hhour, hminute, hsecond,
      fractionMicros_padded (by omega : micros % 1000000 < 1000000), hsum]

/-! ## Timestamps -/

/-- A time in the years 1 to 9999. -/
def InCalendar (t : Timestamp) : Prop :=
  -62135596800000000 ≤ t.micros ∧ t.micros < 253402300800000000

/-- The characters of a time of universal time. -/
theorem toList_viewText {t : Timestamp} (h : t.offset = some 0) {d : Date} {micros : ℕ}
    (hd : Date.ofDays (t.micros.fdiv 86400000000) = d)
    (hmicros : (t.micros.fmod 86400000000).toNat = micros) :
    t.viewText.toList = (padded 4 d.year.toNat).toList ++ '-' :: ((padded 2 d.month).toList ++
      '-' :: ((padded 2 d.day).toList ++ 'T' :: ((padded 2 (micros / 1000000 / 3600)).toList ++
        ':' :: ((padded 2 (micros / 1000000 / 60 % 60)).toList ++ ':' ::
          ((padded 2 (micros / 1000000 % 60)).toList ++
            ((if micros % 1000000 = 0 then [] else '.' :: (padded 6 (micros % 1000000)).toList) ++
              ['Z'])))))) := by
  rw [viewText, if_pos h, localText, hd, hmicros]
  split_ifs <;> simp

/-- **A time of universal time in the years 1 to 9999 is read back** from its form in views. -/
theorem ofText?_viewText {t : Timestamp} (h : t.offset = some 0) (ht : t.InCalendar) :
    ofText? t.viewText = some t := by
  obtain ⟨hfirst, hlast⟩ := ht
  have hpos : (0 : ℤ) ≤ 86400000000 := by norm_num
  have hdays : t.micros.fdiv 86400000000 = t.micros / 86400000000 :=
    Int.fdiv_eq_ediv_of_nonneg _ hpos
  have hrest : t.micros.fmod 86400000000 = t.micros % 86400000000 :=
    Int.fmod_eq_emod_of_nonneg _ hpos
  have hvalid : (Date.ofDays (t.micros.fdiv 86400000000)).isValid = true :=
    Date.isValid_ofDays (by omega) (by omega)
  have hback := Date.toDays_ofDays (t.micros.fdiv 86400000000)
  have hmicros : (t.micros.fmod 86400000000).toNat < 86400000000 := by omega
  have hsum : t.micros.fdiv 86400000000 * 86400000000 + (t.micros.fmod 86400000000).toNat =
      t.micros := by omega
  rw [ofText?, toList_viewText h rfl rfl]
  simp only [date?_written hvalid, clock?_written hmicros, hback, offset?, hsum,
    Option.bind_eq_bind, Option.bind_some]
  rw [← h]

end Timestamp

end Stowage
