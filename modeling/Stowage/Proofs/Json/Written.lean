import Mathlib.Tactic
import Stowage.Json.Printer
import Stowage.Json.Reader
import Stowage.Proofs.Failure.Fallible
import Stowage.Proofs.Time.Written
import Stowage.Text.Utf8

/-!
# Flat objects that are read back

An object whose members are integers and plain texts, with a different plain name each, is read back
from its compact form (`Json.ofText?_print`), and from the octets of that (`Json.ofOctets?_encode`),
wherever an object may be read at all. The form is ASCII without a zero (`Json.ascii_print_object`),
and such a text is read back from its octets (`Text.Utf8.decode?_encode`,
`Text.documentPoints?_encode`).
-/

namespace Stowage

open Text

/-! ## Code points -/

@[simp] theorem Text.points_append (s t : String) : points (s ++ t) = points s ++ points t := by
  simp [points]

/-- A text is made of its characters. -/
theorem RawText.ofPoints_points (s : String) : ofPoints (Text.points s) = .whole s := by
  have hnone : ¬ (Text.points s).any CodePoint.isHalf = true := by
    simp [Text.points, CodePoint.isHalf]
  have hchars : (Text.points s).filterMap CodePoint.char? = s.toList := by
    simp [Text.points, List.filterMap_map, Function.comp_def, CodePoint.char?]
  rw [ofPoints, dif_neg hnone, hchars, String.ofList_toList]

/-! ## Octets -/

namespace Text

namespace Utf8

theorem encodeChar_of_ascii {c : Char} (hc : c.toNat < 128) :
    encodeChar c = [UInt8.ofNat c.toNat] := by
  simp [encodeChar, hc]

theorem first_of_ascii {c : Char} (hc : c.toNat < 128) (rest : List UInt8) :
    first (UInt8.ofNat c.toNat) rest = (some c, 0) := by
  have hn : (UInt8.ofNat c.toNat).toNat = c.toNat := by
    rw [UInt8.toNat_ofNat']
    omega
  simp [first, hn, hc, Char.ofNat_toNat]

/-- ASCII texts are their own octets. -/
theorem decode?_encode {s : String} (h : ∀ c ∈ s.toList, c.toNat < 128) :
    decode? (encode s) = some s := by
  have hoctets : ∀ cs : List Char, (∀ c ∈ cs, c.toNat < 128) →
      decodeOptions (cs.flatMap encodeChar).length (cs.flatMap encodeChar) = cs.map some := by
    intro cs hcs
    induction cs with
    | nil => rfl
    | cons c cs ih =>
      obtain ⟨hc, hcs⟩ := List.forall_mem_cons.1 hcs
      rw [List.flatMap_cons, encodeChar_of_ascii hc]
      simp only [List.cons_append, List.nil_append, List.length_cons, decodeOptions,
        first_of_ascii hc, List.drop_zero, ih hcs, List.map_cons]
  have hall : ∀ cs : List Char, (cs.map some).mapM id = some cs := by
    intro cs
    induction cs with
    | nil => rfl
    | cons c cs ih => simp [ih]
  rw [decode?, encode, hoctets _ h, hall, Option.map_some, String.ofList_toList]

theorem points?_encode {s : String} (h : ∀ c ∈ s.toList, c.toNat < 128) :
    points? (encode s) = some (points s) := by
  rw [points?, encode, points]
  generalize s.toList = cs at h
  induction cs with
  | nil => rfl
  | cons c cs ih =>
    obtain ⟨hc, hcs⟩ := List.forall_mem_cons.1 h
    rw [List.flatMap_cons, encodeChar_of_ascii hc]
    simp only [List.cons_append, List.nil_append, List.length_cons, pointsFrom?, first_of_ascii hc,
      List.drop_zero, ih hcs, Option.map_some, List.map_cons]

/-- ASCII texts have an octet for each character. -/
theorem encode_eq_map {s : String} (h : ∀ c ∈ s.toList, c.toNat < 128) :
    encode s = s.toList.map fun c => UInt8.ofNat c.toNat := by
  rw [encode]
  generalize s.toList = cs at h
  induction cs with
  | nil => rfl
  | cons c cs ih =>
    obtain ⟨hc, hcs⟩ := List.forall_mem_cons.1 h
    rw [List.flatMap_cons, encodeChar_of_ascii hc, ih hcs]
    rfl

end Utf8

/-- Octets of ASCII, none of which is zero, say that they are UTF-8. -/
theorem Encoding.detect_of_ascii {octets : List UInt8}
    (h : ∀ b ∈ octets, 0 < b.toNat ∧ b.toNat < 128) : detect octets = (.utf8, octets) := by
  cases octets with
  | nil => rfl
  | cons b rest =>
    obtain ⟨⟨hb, hb'⟩, hrest⟩ := List.forall_mem_cons.1 h
    have hmark : marks.find? (fun mark => mark.1.isPrefixOf ((b :: rest).map UInt8.toNat)) =
        none := by
      have hne (n : ℕ) (hn : n = 0 ∨ 128 ≤ n) : (n == b.toNat) = false := by
        rw [beq_eq_false_iff_ne]
        omega
      simp [marks, List.isPrefixOf, hne]
    have hzero : (b.toNat == 0) = false := beq_eq_false_iff_ne.2 hb.ne'
    have hguess : guess (b :: rest) = .utf8 := by
      cases rest with
      | nil => simp [guess, hzero]
      | cons b' rest =>
        have hzero' : (b'.toNat == 0) = false :=
          beq_eq_false_iff_ne.2 (List.forall_mem_cons.1 hrest).1.1.ne'
        simp [guess, hzero, hzero']
    simp only [detect, hmark, hguess]

/-- A document in ASCII is read back from its octets, unless a zero is among them. -/
theorem documentPoints?_encode {s : String} (h : ∀ c ∈ s.toList, 0 < c.toNat ∧ c.toNat < 128) :
    documentPoints? (Utf8.encode s) = some (points s) := by
  have hascii : ∀ c ∈ s.toList, c.toNat < 128 := fun c hc => (h c hc).2
  have hoctets : ∀ b ∈ Utf8.encode s, 0 < b.toNat ∧ b.toNat < 128 := by
    intro b hb
    rw [Utf8.encode_eq_map hascii] at hb
    obtain ⟨c, hc, rfl⟩ := List.mem_map.1 hb
    have hsame : (UInt8.ofNat c.toNat).toNat = c.toNat := by
      rw [UInt8.toNat_ofNat']
      have := hascii c hc
      omega
    rw [hsame]
    exact h c hc
  rw [documentPoints?, Encoding.detect_of_ascii hoctets]
  exact Utf8.points?_encode hascii

end Text

/-! ## Plain texts -/

namespace Json

/-- A character that stands for itself in a JSON string, and in ASCII. -/
def IsPlain (c : Char) : Prop := 32 ≤ c.toNat ∧ c.toNat < 127 ∧ c ≠ '"' ∧ c ≠ '\\'

/-- A text of plain characters. -/
def Plain : RawText → Prop
  | .whole s => ∀ c ∈ s.toList, IsPlain c
  | .broken _ => False

instance (c : Char) : Decidable (IsPlain c) := inferInstanceAs (Decidable (_ ∧ _))

instance : (s : RawText) → Decidable (Plain s)
  -- over the characters of the text, not over all there are
  | .whole s => List.decidableBAll _ s.toList
  | .broken _ => .isFalse id

/-- An integer without too many digits, or a plain text. -/
def Flat : Json → Prop
  | .int i => isLong i.natAbs = false
  | .text s => Plain s
  | _ => False

theorem printedChar_of_plain {c : Char} (h : IsPlain c) : printedChar c = [c] := by
  obtain ⟨hlow, hhigh, hquote, hslash⟩ := h
  have hn : c ≠ '\n' ∧ c ≠ '\r' ∧ c ≠ '\t' := by
    refine ⟨?_, ?_, ?_⟩ <;> rintro rfl <;> simp at hlow
  have hcode : ¬ (c.toNat < 32 ∨ c.toNat = 127) := by omega
  simp [printedChar, hquote, hslash, hn, hcode]

theorem Plain.exists_whole {t : RawText} (h : Plain t) : ∃ s : String, t = s ∧ Plain s := by
  cases t with
  | whole s => exact ⟨s, rfl, h⟩
  | broken => exact h.elim

theorem toList_printedText {s : String} (h : Plain s) :
    (printedText s).toList = '"' :: s.toList ++ ['"'] := by
  have hall : ∀ cs : List Char, (∀ c ∈ cs, IsPlain c) →
      (cs.map CodePoint.char).flatMap printedPoint = cs := by
    intro cs hcs
    induction cs with
    | nil => rfl
    | cons c cs ih =>
      obtain ⟨hc, hcs⟩ := List.forall_mem_cons.1 hcs
      rw [List.map_cons, List.flatMap_cons, printedPoint, printedChar_of_plain hc, ih hcs]
      rfl
  rw [printedText, String.toList_ofList, RawText.points, points, hall _ h]

/-- The code points of the form of a plain text. -/
theorem points_printedText {s : String} (h : Plain s) (rest : List CodePoint) :
    points (printedText s) ++ rest = .char '"' :: (points s ++ .char '"' :: rest) := by
  simp [points, toList_printedText h]

namespace Reader

/-- A plain text is read up to its closing quote. -/
theorem readText_chars (opening : ℕ) (rest : List CodePoint) {cs : List Char}
    (h : ∀ c ∈ cs, IsPlain c) :
    ∀ {fuel : ℕ} (acc : List CodePoint), cs.length < fuel →
      readText opening fuel acc (cs.map .char ++ .char '"' :: rest) =
        .ok (.ofPoints (acc.reverse ++ cs.map .char), rest) := by
  induction cs with
  | nil =>
    intro fuel acc hfuel
    obtain ⟨fuel, rfl⟩ := Nat.exists_eq_succ_of_ne_zero (Nat.ne_of_gt hfuel)
    simp [readText]
  | cons c cs ih =>
    intro fuel acc hfuel
    obtain ⟨fuel, rfl⟩ := Nat.exists_eq_succ_of_ne_zero (Nat.ne_of_gt (Nat.zero_lt_of_lt hfuel))
    obtain ⟨⟨hlow, -, hquote, hslash⟩, hcs⟩ := List.forall_mem_cons.1 h
    rw [List.length_cons] at hfuel
    have hnext := @ih hcs fuel (.char c :: acc) (by omega)
    simp [readText, CodePoint.toNat, hquote, hslash, Nat.not_lt.2 hlow, hnext]

theorem readText_plain (opening : ℕ) (rest : List CodePoint) {s : String} (h : Plain s) {fuel : ℕ}
    (hfuel : s.toList.length < fuel) :
    readText opening fuel [] (points s ++ .char '"' :: rest) = .ok (.whole s, rest) := by
  have hread := readText_chars opening rest h [] hfuel
  rwa [List.reverse_nil, List.nil_append, ← points, RawText.ofPoints_points] at hread

/-! ## Integers -/

/-- What comes after a value in an object. -/
def Ends (rest : List CodePoint) : Prop := ∃ c cs, rest = .char c :: cs ∧ (c = ',' ∨ c = '}')

theorem isAsciiDigit_natDigits (n : ℕ) : ∀ c ∈ natDigits n, isAsciiDigit c = true := fun c hc =>
  Timestamp.isAsciiDigit_of_isDigit (Nat.isDigit_of_mem_toDigits (by decide) (by decide) hc)

theorem digitsValue_natDigits (n : ℕ) : digitsValue (natDigits n) = n := by
  rw [Timestamp.digitsValue_eq]
  exact Nat.ofDigitChars_ten_toDigits

/-- The digits of a number that is not zero do not start with a zero. -/
theorem exists_natDigits {n : ℕ} (hn : n ≠ 0) : ∃ c cs, natDigits n = c :: cs ∧ c ≠ '0' := by
  induction n using Nat.strong_induction_on with
  | _ n ih =>
    rw [natDigits]
    by_cases hlt : n < 10
    · rw [Nat.toDigits_of_lt_base hlt]
      refine ⟨_, [], rfl, ?_⟩
      interval_cases n <;> first | exact absurd rfl hn | decide
    · obtain ⟨c, cs, hcs, hc⟩ := ih (n / 10) (by omega) (by omega)
      rw [Nat.toDigits_of_base_le (by decide) (by omega)]
      exact ⟨c, cs ++ [(n % 10).digitChar], by rw [← List.cons_append, ← hcs]; rfl, hc⟩

/-- Digits are taken up to what comes after them. -/
theorem takeDigits_append {digits : List Char} (h : ∀ c ∈ digits, isAsciiDigit c = true)
    {rest : List CodePoint} (hrest : Ends rest) :
    takeDigits (digits.map .char ++ rest) = (digits, rest) := by
  induction digits with
  | nil =>
    obtain ⟨c, cs, rfl, rfl | rfl⟩ := hrest <;> rfl
  | cons c cs ih =>
    obtain ⟨hc, hcs⟩ := List.forall_mem_cons.1 h
    simp [takeDigits, hc, ih hcs]

theorem wholeDigits?_natDigits (n : ℕ) {rest : List CodePoint} (hrest : Ends rest) :
    wholeDigits? ((natDigits n).map .char ++ rest) = some (natDigits n, rest) := by
  have htake := takeDigits_append (isAsciiDigit_natDigits n) hrest
  by_cases hn : n = 0
  · subst hn
    rfl
  · obtain ⟨c, cs, hcs, hc⟩ := exists_natDigits hn
    rw [hcs] at htake ⊢
    rw [List.map_cons, List.cons_append] at htake ⊢
    unfold wholeDigits?
    split
    · rename_i heq
      exact absurd (CodePoint.char.inj (List.cons.inj heq).1) hc
    · simp [htake]

theorem isLong_eq_false {n : ℕ} (hn : n < 10 ^ 20) : isLong n = false := by
  have hpow : 10 ^ 20 ≤ 10 ^ maxDigits := Nat.pow_le_pow_right (by decide) (by decide)
  rw [isLong, decide_eq_false_iff_not, not_le]
  exact hn.trans_le hpow

theorem length_natDigits_le {n : ℕ} (hn : isLong n = false) : (natDigits n).length ≤ maxDigits := by
  rw [isLong, decide_eq_false_iff_not, not_le] at hn
  exact (Nat.length_toDigits_le_iff (by decide) (by decide)).2 hn

theorem exists_cons_natDigits (n : ℕ) :
    ∃ c cs, natDigits n = c :: cs ∧ isAsciiDigit c = true := by
  obtain ⟨c, cs, hcs⟩ := List.exists_cons_of_ne_nil (Nat.toDigits_ne_nil : Nat.toDigits 10 n ≠ [])
  exact ⟨c, cs, hcs, isAsciiDigit_natDigits n c (by rw [natDigits, hcs]; simp)⟩

theorem toList_toString_ofNat (n : ℕ) : (toString (Int.ofNat n)).toList = natDigits n :=
  Nat.toList_repr

theorem toList_toString_negSucc (n : ℕ) :
    (toString (Int.negSucc n)).toList = '-' :: natDigits (n + 1) := by
  change ("-" ++ Nat.repr (n + 1)).toList = _
  rw [String.toList_append, Nat.toList_repr]
  rfl

/-- An integer starts with a digit or a sign. -/
theorem exists_cons_toString (i : ℤ) :
    ∃ c cs, (toString i).toList = c :: cs ∧ (c = '-' ∨ isAsciiDigit c = true) := by
  cases i with
  | ofNat n =>
    obtain ⟨c, cs, hcs, hc⟩ := exists_cons_natDigits n
    exact ⟨c, cs, (toList_toString_ofNat n).trans hcs, .inr hc⟩
  | negSucc n => exact ⟨'-', _, toList_toString_negSucc n, .inl rfl⟩

/-- A digit or a sign is none of the characters that are neither. -/
theorem ne_of_digit_or_sign {c d : Char} (hc : c = '-' ∨ isAsciiDigit c = true)
    (hsign : d ≠ '-') (hdigit : isAsciiDigit d = false) : c ≠ d := by
  rintro rfl
  rcases hc with rfl | hc
  · exact hsign rfl
  · exact Bool.noConfusion (hdigit.symm.trans hc)

/-- The digits of a number without a sign, or after it. -/
theorem readNumber_natDigits {n : ℕ} (hn : isLong n = false) {rest : List CodePoint}
    (hrest : Ends rest) :
    readNumber ((natDigits n).map .char ++ rest) = .ok (.int n, rest) ∧
      readNumber (.char '-' :: ((natDigits n).map .char ++ rest)) = .ok (.int (-n), rest) := by
  have hshort := Nat.not_lt.2 (length_natDigits_le hn)
  have hwhole := wholeDigits?_natDigits n hrest
  have hend : placeDigits rest = ([], rest) ∧ exponent? rest = none := by
    obtain ⟨c, cs, rfl, rfl | rfl⟩ := hrest <;> exact ⟨rfl, rfl⟩
  have hplus : takeMinus ((natDigits n).map .char ++ rest) =
      (false, (natDigits n).map .char ++ rest) := by
    obtain ⟨c, cs, hcs, hc⟩ := exists_cons_natDigits n
    rw [hcs, List.map_cons, List.cons_append, takeMinus]
    rintro _ h
    cases CodePoint.char.inj (List.cons.inj h).1
    cases hc
  have hminus (cs : List CodePoint) : takeMinus (.char '-' :: cs) = (true, cs) := rfl
  constructor
  · simp [readNumber, hplus, hwhole, hend, hshort, digitsValue_natDigits]
  · simp [readNumber, hminus, hwhole, hend, hshort, digitsValue_natDigits]

/-- An integer is read up to what comes after it. -/
theorem readNumber_int {i : ℤ} (hi : isLong i.natAbs = false) {rest : List CodePoint}
    (hrest : Ends rest) : readNumber (points (toString i) ++ rest) = .ok (.int i, rest) := by
  cases i with
  | ofNat n =>
    rw [points, toList_toString_ofNat]
    exact (readNumber_natDigits hi hrest).1
  | negSucc n =>
    rw [Int.natAbs_negSucc] at hi
    rw [points, toList_toString_negSucc, Int.negSucc_eq]
    exact (readNumber_natDigits hi hrest).2

/-- No word starts with a digit, and none with a sign before a digit. -/
theorem words_digit {c : Char} (hc : isAsciiDigit c = true) (cs : List CodePoint) :
    (words.find? fun w => (points w.1).isPrefixOf (.char c :: cs)) = none ∧
      (words.find? fun w => (points w.1).isPrefixOf (.char '-' :: .char c :: cs)) = none := by
  have hne : ∀ d, isAsciiDigit d = false → (CodePoint.char d == .char c) = false := by
    intro d hd
    rw [beq_eq_false_iff_ne]
    rintro h
    cases CodePoint.char.inj h
    exact Bool.noConfusion (hd.symm.trans hc)
  have hsign : ∀ d, d ≠ '-' → (CodePoint.char d == .char '-') = false := fun d hd =>
    beq_eq_false_iff_ne.2 fun h => hd (CodePoint.char.inj h)
  constructor
  · simp [words, points, List.find?, List.isPrefixOf, hne 'n' rfl, hne 't' rfl, hne 'f' rfl,
      hne 'N' rfl, hne 'I' rfl, hne '-' rfl]
  · simp [words, points, List.find?, List.isPrefixOf, hsign 'n' (by decide),
      hsign 't' (by decide), hsign 'f' (by decide), hsign 'N' (by decide), hsign 'I' (by decide),
      hne 'I' rfl]

/-- An integer is read as a value. -/
theorem readScalar_int {i : ℤ} (hi : isLong i.natAbs = false) {rest : List CodePoint}
    (hrest : Ends rest) : readScalar (points (toString i) ++ rest) = .ok (.int i, rest) := by
  have hnumber := readNumber_int hi hrest
  have hword : (words.find? fun w => (points w.1).isPrefixOf (points (toString i) ++ rest)) =
      none := by
    cases i with
    | ofNat n =>
      obtain ⟨c, cs, hcs, hc⟩ := exists_cons_natDigits n
      rw [points, toList_toString_ofNat, hcs]
      exact (words_digit hc _).1
    | negSucc n =>
      obtain ⟨c, cs, hcs, hc⟩ := exists_cons_natDigits (n + 1)
      rw [points, toList_toString_negSucc, hcs]
      exact (words_digit hc _).2
  simp only [readScalar, hword, hnumber]

/-! ## Objects -/

/-- There is no gap before a flat value. -/
theorem skipGap_print {v : Json} (hv : Flat v) (rest : List CodePoint) :
    skipGap (points (print v) ++ rest) = points (print v) ++ rest := by
  obtain ⟨c, cs, hcs, hc⟩ : ∃ c cs, (print v).toList = c :: cs ∧ isGap (.char c) = false := by
    cases v with
    | int i =>
      obtain ⟨c, cs, hcs, hc⟩ := exists_cons_toString i
      have hne : ∀ d, d ≠ '-' → isAsciiDigit d = false → (c == d) = false := fun d hsign hdigit =>
        beq_eq_false_iff_ne.2 (ne_of_digit_or_sign hc hsign hdigit)
      refine ⟨c, cs, by rw [print, hcs], ?_⟩
      simp only [isGap, hne ' ' (by decide) rfl, hne '\t' (by decide) rfl,
        hne '\n' (by decide) rfl, hne '\r' (by decide) rfl, Bool.or_self]
    | text s =>
      obtain ⟨s, rfl, hs⟩ := Plain.exists_whole hv
      exact ⟨'"', _, by rw [print, toList_printedText hs]; rfl, rfl⟩
    | _ => exact hv.elim
  rw [points, hcs, List.map_cons, List.cons_append, skipGap,
    List.dropWhile_cons_of_neg (by simp [hc])]

/-- A flat value is read from its form. -/
theorem readValue_print {v : Json} (hv : Flat v) {rest : List CodePoint} (hrest : Ends rest)
    (fuel depth : ℕ) :
    readValue (fuel + 1) depth (points (print v) ++ rest) = .ok (v, rest) := by
  cases v with
  | int i =>
    have hscalar := readScalar_int hv hrest
    obtain ⟨c, cs, hcs, hc⟩ := exists_cons_toString i
    rw [print]
    rw [points, hcs, List.map_cons, List.cons_append] at hscalar ⊢
    simp [readValue, ne_of_digit_or_sign hc (d := '"') (by decide) rfl,
      ne_of_digit_or_sign hc (d := '[') (by decide) rfl,
      ne_of_digit_or_sign hc (d := '\x7b') (by decide) rfl, hscalar]
  | text s =>
    obtain ⟨s, rfl, hs⟩ := Plain.exists_whole hv
    rw [print, points_printedText hs, readValue]
    have hfuel : s.toList.length <
        (CodePoint.char '"' :: (points s ++ .char '"' :: rest)).length := by simp [points]
    rw [readText_plain _ rest hs hfuel]
    rfl
  | _ => exact hv.elim

/-- The form of a member. -/
def memberForm (m : RawText × Json) : String := printedText m.1 ++ ":" ++ print m.2

/-- A member whose name is plain and whose value is flat is read from its form, whatever is read
after it. -/
theorem readMembers_member {m : RawText × Json} (hname : Plain m.1) (hv : Flat m.2)
    {rest : List CodePoint} (hrest : Ends rest) (fuel depth : ℕ) :
    readMembers (fuel + 2) depth (points (memberForm m) ++ rest) =
      match skipGap rest with
      | .char '}' :: rest => .ok ([m], rest)
      | .char ',' :: rest => do
        let (members, rest) ← readMembers (fuel + 1) depth (skipGap rest)
        return (m :: members, rest)
      | rest => stop rest := by
  obtain ⟨name, v⟩ := m
  obtain ⟨name, rfl, hplain⟩ := Plain.exists_whole hname
  have hform : points (memberForm (name, v)) ++ rest =
      .char '"' :: (points name ++ .char '"' :: .char ':' :: (points (print v) ++ rest)) := by
    rw [memberForm, points_append, points_append, List.append_assoc, List.append_assoc,
      points_printedText hplain]
    rfl
  have hfuel : name.toList.length <
      (CodePoint.char '"' ::
        (points name ++ .char '"' :: .char ':' :: (points (print v) ++ rest))).length := by
    simp [points]
  have hcolon : skipGap (.char ':' :: (points (print v) ++ rest)) =
      .char ':' :: (points (print v) ++ rest) := rfl
  rw [hform, readMembers, readText_plain _ _ hplain hfuel]
  simp only [ok_bind, hcolon, skipGap_print hv, readValue_print hv hrest]
  rfl

/-- The form of members, with commas between them. -/
def membersForm (members : List (RawText × Json)) : String :=
  String.intercalate "," (printMembers members)

theorem membersForm_cons (m m' : RawText × Json) (members : List (RawText × Json)) :
    membersForm (m :: m' :: members) = memberForm m ++ "," ++ membersForm (m' :: members) := by
  simp [membersForm, memberForm, printMembers, String.intercalate_cons_cons]

theorem points_membersForm_cons (m m' : RawText × Json) (members : List (RawText × Json)) :
    points (membersForm (m :: m' :: members)) =
      points (memberForm m) ++ .char ',' :: points (membersForm (m' :: members)) := by
  rw [membersForm_cons]
  simp [points]

theorem membersForm_singleton (m : RawText × Json) : membersForm [m] = memberForm m := by
  simp [membersForm, memberForm, printMembers]

/-- Members start with the quote of their first name. -/
theorem exists_membersForm (m : RawText × Json) (members : List (RawText × Json)) :
    ∃ cs, points (membersForm (m :: members)) = .char '"' :: cs := by
  obtain ⟨cs, hcs⟩ : ∃ cs, points (memberForm m) = .char '"' :: cs :=
    ⟨_, by simp [memberForm, printedText, points]; rfl⟩
  cases members with
  | nil => exact ⟨cs, by rw [membersForm_singleton, hcs]⟩
  | cons m' members => exact ⟨_, by rw [points_membersForm_cons, hcs]; rfl⟩

/-- Members whose names are plain and whose values are flat are read from their form. -/
theorem readMembers_membersForm {members : List (RawText × Json)} (hne : members ≠ [])
    (h : ∀ m ∈ members, Plain m.1 ∧ Flat m.2) (depth : ℕ) (rest : List CodePoint) :
    ∀ {fuel : ℕ}, members.length < fuel →
      readMembers fuel depth (points (membersForm members) ++ .char '}' :: rest) =
        .ok (members, rest) := by
  induction members with
  | nil => exact absurd rfl hne
  | cons m members ih =>
    intro fuel hfuel
    obtain ⟨⟨hname, hv⟩, hmembers⟩ := List.forall_mem_cons.1 h
    rw [List.length_cons] at hfuel
    obtain ⟨fuel, rfl⟩ : ∃ n, fuel = n + 2 := ⟨fuel - 2, by omega⟩
    cases members with
    | nil =>
      rw [membersForm_singleton, readMembers_member hname hv ⟨_, _, rfl, .inr rfl⟩]
      rfl
    | cons m' members =>
      have hnext := @ih nofun hmembers (fuel + 1) (by omega)
      rw [points_membersForm_cons, List.append_assoc, List.cons_append,
        readMembers_member hname hv ⟨_, _, rfl, .inl rfl⟩]
      obtain ⟨cs, hcs⟩ := exists_membersForm m' members
      have hgap : skipGap (points (membersForm (m' :: members)) ++ .char '}' :: rest) =
          points (membersForm (m' :: members)) ++ .char '}' :: rest := by
        rw [hcs]
        rfl
      have hcomma (cs : List CodePoint) : skipGap (.char ',' :: cs) = .char ',' :: cs := rfl
      simp only [hcomma, hgap, hnext, ok_bind]
      rfl

end Reader

/-! ## Documents -/

/-- An object of integers and plain texts, with a different plain name each. -/
structure FlatObject (members : List (RawText × Json)) : Prop where
  ne_nil : members ≠ []
  flat : ∀ m ∈ members, Plain m.1 ∧ Flat m.2
  nodup : (members.map Prod.fst).Nodup

theorem setMember_of_notMem {name : RawText} {members : List (RawText × Json)}
    (h : name ∉ members.map Prod.fst) (v : Json) :
    setMember name v members = members ++ [(name, v)] := by
  induction members with
  | nil => rfl
  | cons m members ih =>
    rw [List.map_cons, List.mem_cons, not_or] at h
    simp [setMember, beq_eq_false_iff_ne.2 (Ne.symm h.1), ih h.2]

/-- Members of different names are all kept, in their order. -/
theorem membersOf_of_nodup {members : List (RawText × Json)}
    (h : (members.map Prod.fst).Nodup) : membersOf members = members := by
  have hfold : ∀ before : List (RawText × Json), ((before ++ members).map Prod.fst).Nodup →
      members.foldl (fun members m => setMember m.1 m.2 members) before = before ++ members := by
    clear h
    induction members with
    | nil => simp
    | cons m members ih =>
      intro before h
      have hnew : m.1 ∉ before.map Prod.fst := by
        rw [List.map_append, List.map_cons] at h
        exact fun hmem => (List.nodup_append.1 h).2.2 _ hmem _ (List.mem_cons_self ..) rfl
      rw [List.foldl_cons, setMember_of_notMem hnew, ih _ (by simpa using h)]
      simp
  exact hfold [] h

/-- There are no more members than characters in their form. -/
theorem length_le_membersForm : ∀ members : List (RawText × Json),
    members.length ≤ (points (Reader.membersForm members)).length
  | [] => Nat.zero_le _
  | [m] => by
    obtain ⟨cs, hcs⟩ := Reader.exists_membersForm m []
    simp [hcs]
  | m :: m' :: members => by
    have ih := length_le_membersForm (m' :: members)
    simp only [Reader.points_membersForm_cons, List.length_append, List.length_cons] at ih ⊢
    omega

theorem print_object (members : List (RawText × Json)) :
    print (.object members) = "\x7b" ++ Reader.membersForm members ++ "\x7d" := by
  rw [print, Reader.membersForm]

theorem points_print_object (members : List (RawText × Json)) :
    points (print (.object members)) =
      .char '{' :: (points (Reader.membersForm members) ++ [.char '}']) := by
  rw [print_object]
  simp [points]

/-- The form of a flat object is read up to its end. -/
theorem readValue_print_object {members : List (RawText × Json)} (h : FlatObject members)
    (depth : ℕ) {fuel : ℕ} (hfuel : members.length < fuel) :
    Reader.readValue (fuel + 1) (depth + 1) (points (print (.object members))) =
      .ok (.object members, []) := by
  have hread := Reader.readMembers_membersForm h.ne_nil h.flat depth [] hfuel
  obtain ⟨m, members, rfl⟩ := List.exists_cons_of_ne_nil h.ne_nil
  obtain ⟨cs, hcs⟩ := Reader.exists_membersForm m members
  rw [points_print_object]
  rw [hcs, List.cons_append] at hread ⊢
  have hgap (cs : List CodePoint) : Reader.skipGap (.char '"' :: cs) = .char '"' :: cs := rfl
  simp [Reader.readValue, hgap, hread, membersOf_of_nodup h.nodup]

/-- **An object of integers and plain texts, with a different plain name each, is read back from its
form**, wherever an object may be read. -/
theorem ofText?_print {members : List (RawText × Json)} (h : FlatObject members) (depth : ℕ) :
    ofText? (depth + 1) (print (.object members)) = .ok (.object members) := by
  have hgap : Reader.skipGap (points (print (.object members))) =
      points (print (.object members)) := by
    rw [points_print_object]
    rfl
  have hfuel : members.length < 2 * (points (print (.object members))).length + 1 := by
    have hle := length_le_membersForm members
    rw [points_print_object, List.length_cons, List.length_append]
    omega
  rw [ofText?, ofPoints?, hgap, readValue_print_object h depth hfuel]
  rfl

/-- Where nothing may be nested, no object is read. -/
theorem ofText?_print_zero (members : List (RawText × Json)) :
    ofText? 0 (print (.object members)) = .error .tooDeep := by
  have hgap (cs : List CodePoint) : Reader.skipGap (.char '{' :: cs) = .char '{' :: cs := rfl
  rw [ofText?, ofPoints?, points_print_object, hgap, Reader.readValue]
  rfl

/-! ## ASCII -/

theorem ascii_printedText {s : RawText} (h : Plain s) :
    ∀ c ∈ (printedText s).toList, 0 < c.toNat ∧ c.toNat < 128 := by
  obtain ⟨s, rfl, hs⟩ := Plain.exists_whole h
  rw [toList_printedText hs, List.forall_mem_append, List.forall_mem_cons,
    List.forall_mem_singleton]
  refine ⟨⟨by decide, fun c hc => ?_⟩, by decide⟩
  obtain ⟨hlow, hhigh, -⟩ := hs c hc
  omega

theorem ascii_natDigits (n : ℕ) : ∀ c ∈ natDigits n, 0 < c.toNat ∧ c.toNat < 128 := by
  intro c hc
  have hdigit := Reader.isAsciiDigit_natDigits n c hc
  simp only [isAsciiDigit, Bool.and_eq_true, decide_eq_true_eq] at hdigit
  omega

theorem ascii_print {v : Json} (hv : Flat v) :
    ∀ c ∈ (print v).toList, 0 < c.toNat ∧ c.toNat < 128 := by
  cases v with
  | int i =>
    rw [print]
    cases i with
    | ofNat n =>
      rw [Reader.toList_toString_ofNat]
      exact ascii_natDigits n
    | negSucc n =>
      rw [Reader.toList_toString_negSucc, List.forall_mem_cons]
      exact ⟨by decide, ascii_natDigits _⟩
  | text s =>
    rw [print]
    exact ascii_printedText hv
  | _ => exact hv.elim

/-- The form of such an object is ASCII, without a zero. -/
theorem ascii_print_object {members : List (RawText × Json)} (h : FlatObject members) :
    ∀ c ∈ (print (.object members)).toList, 0 < c.toNat ∧ c.toNat < 128 := by
  have hmember : ∀ m ∈ members,
      ∀ c ∈ (Reader.memberForm m).toList, 0 < c.toNat ∧ c.toNat < 128 := by
    intro m hm
    rw [Reader.memberForm, String.toList_append, String.toList_append, List.forall_mem_append,
      List.forall_mem_append]
    exact ⟨⟨ascii_printedText (h.flat m hm).1, by simp⟩, ascii_print (h.flat m hm).2⟩
  have hmembers : ∀ c ∈ (Reader.membersForm members).toList, 0 < c.toNat ∧ c.toNat < 128 := by
    clear h
    induction members with
    | nil => simp [Reader.membersForm, printMembers]
    | cons m members ih =>
      obtain ⟨hm, hmembers⟩ := List.forall_mem_cons.1 hmember
      cases members with
      | nil =>
        rw [Reader.membersForm_singleton]
        exact hm
      | cons m' members =>
        rw [Reader.membersForm_cons, String.toList_append, String.toList_append,
          List.forall_mem_append, List.forall_mem_append]
        exact ⟨⟨hm, by simp⟩, ih hmembers⟩
  rw [print_object, String.toList_append, String.toList_append, List.forall_mem_append,
    List.forall_mem_append]
  exact ⟨⟨by simp, hmembers⟩, by simp⟩

/-- **Such an object is read back from the octets of its form.** -/
theorem ofOctets?_encode {members : List (RawText × Json)} (h : FlatObject members) (depth : ℕ) :
    ofOctets? (depth + 1) (Text.Utf8.encode (print (.object members))) = .ok (.object members) := by
  rw [ofOctets?, Text.documentPoints?_encode (ascii_print_object h)]
  exact ofText?_print h depth

end Json

end Stowage
