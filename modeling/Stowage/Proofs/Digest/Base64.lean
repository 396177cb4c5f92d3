import Mathlib.Tactic
import Stowage.Digest.Base64

/-!
# Octets in base 64 and back

What was encoded for an address or a token decodes to the octets it was made of
(`decodeUrl?_encodeUrl`), and there is no point in it (`ne_point_of_mem_encodeUrl`).
-/

namespace Stowage.Base64

/-- The character for six bits in addresses and tokens. -/
def urlChar (n : ℕ) : Char := charFor '-' '_' n

/-- A character for addresses and tokens as the usual one. -/
def usual (c : Char) : Char := if c == '-' then '+' else if c == '_' then '/' else c

/-- A character for six bits stands for them. It is no padding and no point. -/
theorem urlChar_spec : ∀ n < 64, valueOf? (usual (urlChar n)) = some n ∧
    (usual (urlChar n) == '=') = false ∧ urlChar n ≠ '.' := by
  decide

/-! ## Groups -/

section Groups

variable {p q r s : ℕ} (hp : p < 64) (hq : q < 64) (hr : r < 64) (hs : s < 64)
include hp hq

/-- Two characters and padding are an octet. -/
theorem decode_two : decodeFrom 0 0 0 (usual (urlChar p) :: usual (urlChar q) :: ['=', '=']) =
    some [UInt8.ofNat (p * 4 + q / 16)] := by
  obtain ⟨hpv, hpp, -⟩ := urlChar_spec p hp
  obtain ⟨hqv, hqp, -⟩ := urlChar_spec q hq
  simp [decodeFrom, hpv, hpp, hqv, hqp]

include hr

/-- Three characters and padding are two octets. -/
theorem decode_three :
    decodeFrom 0 0 0 (usual (urlChar p) :: usual (urlChar q) :: usual (urlChar r) :: ['=']) =
      some [UInt8.ofNat (p * 4 + q / 16), UInt8.ofNat (q % 16 * 16 + r / 4)] := by
  obtain ⟨hpv, hpp, -⟩ := urlChar_spec p hp
  obtain ⟨hqv, hqp, -⟩ := urlChar_spec q hq
  obtain ⟨hrv, hrp, -⟩ := urlChar_spec r hr
  simp [decodeFrom, hpv, hpp, hqv, hqp, hrv, hrp]

include hs

/-- Four characters are three octets. -/
theorem decode_four (cs : List Char) : decodeFrom 0 0 0 (usual (urlChar p) :: usual (urlChar q) ::
    usual (urlChar r) :: usual (urlChar s) :: cs) =
      (decodeFrom 0 0 0 cs).map fun rest => UInt8.ofNat (p * 4 + q / 16) ::
        UInt8.ofNat (q % 16 * 16 + r / 4) :: UInt8.ofNat (r % 4 * 64 + s) :: rest := by
  obtain ⟨hpv, hpp, -⟩ := urlChar_spec p hp
  obtain ⟨hqv, hqp, -⟩ := urlChar_spec q hq
  obtain ⟨hrv, hrp, -⟩ := urlChar_spec r hr
  obtain ⟨hsv, hsp, -⟩ := urlChar_spec s hs
  simp only [decodeFrom, hpv, hpp, hqv, hqp, hrv, hrp, hsv, hsp]
  cases decodeFrom 0 0 0 cs <;> rfl

end Groups

/-- An octet is known by its value. -/
theorem ofNat_eq {n : ℕ} {a : UInt8} (h : n = a.toNat) : UInt8.ofNat n = a := by
  rw [h, UInt8.ofNat_toNat]

/-! ## Texts -/

/-- The characters for octets in addresses and tokens. -/
theorem encodeWith_url (a b c : UInt8) (rest : List UInt8) :
    encodeWith '-' '_' (a :: b :: c :: rest) =
      urlChar (((a.toNat * 256 + b.toNat) * 256 + c.toNat) / 262144 % 64) ::
        urlChar (((a.toNat * 256 + b.toNat) * 256 + c.toNat) / 4096 % 64) ::
          urlChar (((a.toNat * 256 + b.toNat) * 256 + c.toNat) / 64 % 64) ::
            urlChar (((a.toNat * 256 + b.toNat) * 256 + c.toNat) % 64) ::
              encodeWith '-' '_' rest := by
  simp [encodeWith, urlChar]

theorem encodeWith_url_two (a b : UInt8) : encodeWith '-' '_' [a, b] =
    [urlChar ((a.toNat * 256 + b.toNat) * 4 / 4096 % 64),
      urlChar ((a.toNat * 256 + b.toNat) * 4 / 64 % 64),
      urlChar ((a.toNat * 256 + b.toNat) * 4 % 64)] := by
  simp [encodeWith, urlChar]

theorem encodeWith_url_one (a : UInt8) : encodeWith '-' '_' [a] =
    [urlChar (a.toNat * 16 / 64 % 64), urlChar (a.toNat * 16 % 64)] := by
  simp [encodeWith, urlChar]

/-- Encoded octets decode to themselves, with the padding that completes them. -/
theorem decodeFrom_encodeWith : ∀ octets : List UInt8,
    decodeFrom 0 0 0 ((encodeWith '-' '_' octets).map usual ++
      List.replicate ((4 - (encodeWith '-' '_' octets).length % 4) % 4) '=') = some octets
  | [] => rfl
  | [a] => by
    have ha := a.toNat_lt
    rw [encodeWith_url_one]
    refine (decode_two (by omega) (by omega)).trans ?_
    rw [ofNat_eq (a := a) (by omega)]
  | [a, b] => by
    have ha := a.toNat_lt
    have hb := b.toNat_lt
    rw [encodeWith_url_two]
    refine (decode_three (by omega) (by omega) (by omega)).trans ?_
    rw [ofNat_eq (a := a) (by omega), ofNat_eq (a := b) (by omega)]
  | a :: b :: c :: rest => by
    have ha := a.toNat_lt
    have hb := b.toNat_lt
    have hc := c.toNat_lt
    have ih := decodeFrom_encodeWith rest
    rw [encodeWith_url]
    simp only [List.length_cons, List.map_cons, List.cons_append]
    have hlength : ((encodeWith '-' '_' rest).length + 1 + 1 + 1 + 1) % 4 =
        (encodeWith '-' '_' rest).length % 4 := by omega
    rw [hlength, decode_four (by omega) (by omega) (by omega) (by omega), ih, Option.map_some,
      ofNat_eq (a := a) (by omega), ofNat_eq (a := b) (by omega), ofNat_eq (a := c) (by omega)]

/-- **Encoded octets decode to themselves.** -/
theorem decodeUrl?_encodeUrl (octets : List UInt8) :
    decodeUrl? (encodeUrl octets).toList = some octets := by
  rw [encodeUrl, String.toList_ofList]
  exact decodeFrom_encodeWith octets

theorem exists_of_mem_encodeWith : ∀ octets : List UInt8, ∀ c ∈ encodeWith '-' '_' octets,
    ∃ n < 64, c = urlChar n
  | [] => nofun
  | [a] => by
    rw [encodeWith_url_one]
    simp only [List.forall_mem_cons]
    exact ⟨⟨_, by omega, rfl⟩, ⟨_, by omega, rfl⟩, nofun⟩
  | [a, b] => by
    rw [encodeWith_url_two]
    simp only [List.forall_mem_cons]
    exact ⟨⟨_, by omega, rfl⟩, ⟨_, by omega, rfl⟩, ⟨_, by omega, rfl⟩, nofun⟩
  | a :: b :: c :: rest => by
    rw [encodeWith_url]
    simp only [List.forall_mem_cons]
    exact ⟨⟨_, by omega, rfl⟩, ⟨_, by omega, rfl⟩, ⟨_, by omega, rfl⟩, ⟨_, by omega, rfl⟩,
      exists_of_mem_encodeWith rest⟩

/-- An encoded text is made of the characters for six bits. -/
theorem exists_of_mem_encodeUrl {octets : List UInt8} {c : Char}
    (h : c ∈ (encodeUrl octets).toList) : ∃ n < 64, c = urlChar n := by
  rw [encodeUrl, String.toList_ofList] at h
  exact exists_of_mem_encodeWith octets c h

/-- There is no point in an encoded text. -/
theorem ne_point_of_mem_encodeUrl (octets : List UInt8) :
    ∀ c ∈ (encodeUrl octets).toList, c ≠ '.' := by
  intro c hc
  obtain ⟨n, hn, rfl⟩ := exists_of_mem_encodeUrl hc
  exact (urlChar_spec n hn).2.2

end Stowage.Base64
