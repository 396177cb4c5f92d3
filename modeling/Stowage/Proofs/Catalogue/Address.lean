import Mathlib.Data.List.TakeWhile
import Stowage.Proofs.Failure.Fallible
import Stowage.Catalogue.Address

/-!
# Encoded addresses

Writing the octets of a character with percent signs loses nothing as long as no percent sign was
there before: the octets can be read off the result (`decodeOctets_encodeWith`), and they determine
the text (`Text.Utf8.flatMap_encodeChar_injective`). A reference that has no segment of dots is
appended as it is (`exists_normalizePath`), and so a path and a query without percent signs can be
told from the address that they are a part of (`eq_of_written`).
-/

namespace Stowage

/-! ## Octets -/

namespace Text.Utf8

theorem encodeChar_eq (c : Char) : encodeChar c = String.utf8EncodeChar c := by
  have hc : c.val.toNat < 0x110000 := by
    have hvalid := c.valid
    simp only [UInt32.isValidChar, Nat.isValidChar] at hvalid
    omega
  have hvalue : c.toNat = c.val.toNat := rfl
  simp only [encodeChar, String.utf8EncodeChar, hvalue, Nat.shiftRight_eq_div_pow]
  generalize c.val.toNat = v at hc
  -- both cut the code point at the same places, and its leading bits fit into the first octet
  split_ifs <;> first | omega | simp only [List.cons.injEq, and_true]
  · exact ⟨congrArg UInt8.ofNat (by omega), congrArg UInt8.ofNat (by omega)⟩
  · exact ⟨congrArg UInt8.ofNat (by omega), congrArg UInt8.ofNat (by omega),
      congrArg UInt8.ofNat (by omega)⟩
  · exact ⟨congrArg UInt8.ofNat (by omega), congrArg UInt8.ofNat (by omega),
      congrArg UInt8.ofNat (by omega), congrArg UInt8.ofNat (by omega)⟩

/-- Different texts have different octets. -/
theorem flatMap_encodeChar_injective {cs ds : List Char}
    (h : cs.flatMap encodeChar = ds.flatMap encodeChar) : cs = ds := by
  have hencode : cs.utf8Encode = ds.utf8Encode := by
    simp only [List.utf8Encode, ← funext encodeChar_eq, h]
  have hdecode := congrArg ByteArray.utf8Decode? hencode
  rw [List.utf8Decode?_utf8Encode, List.utf8Decode?_utf8Encode] at hdecode
  exact List.toArray_inj (Option.some.inj hdecode)

end Text.Utf8

namespace Address

open Text.Utf8

variable {safe : Char → Bool} {cs ds xs ys : List Char}

/-! ## Percent signs -/

/-- A hexadecimal digit. -/
def hexDigit (n : ℕ) : Char := (Nat.digitChar n).toUpper

theorem percentOctet_eq (b : UInt8) :
    percentOctet b = ['%', hexDigit (b.toNat / 16), hexDigit (b.toNat % 16)] := rfl

theorem hexValue?_hexDigit {n : ℕ} (hn : n < 16) : Json.Reader.hexValue? (hexDigit n) = some n := by
  revert n
  decide

theorem isPathSafe_hexDigit {n : ℕ} (hn : n < 16) :
    isPathSafe (hexDigit n) = true ∧ hexDigit n ≠ '/' := by
  revert n
  decide

theorem decodeOctets_percentOctet (b : UInt8) (cs : List Char) :
    decodeOctets (percentOctet b ++ cs) = b :: decodeOctets cs := by
  have hb := b.toNat_lt
  have hhigh := hexValue?_hexDigit (n := b.toNat / 16) (by omega)
  have hlow := hexValue?_hexDigit (n := b.toNat % 16) (by omega)
  rw [percentOctet_eq]
  simp only [List.cons_append, List.nil_append, decodeOctets, hhigh, hlow]
  rw [Nat.div_add_mod' b.toNat 16, UInt8.ofNat_toNat]

theorem decodeOctets_flatMap_percentOctet (bs : List UInt8) (cs : List Char) :
    decodeOctets (bs.flatMap percentOctet ++ cs) = bs ++ decodeOctets cs := by
  induction bs with
  | nil => rfl
  | cons b bs ih =>
    rw [List.flatMap_cons, List.append_assoc, decodeOctets_percentOctet, ih, List.cons_append]

theorem decodeOctets_cons {c : Char} (hc : c ≠ '%') :
    decodeOctets (c :: cs) = encodeChar c ++ decodeOctets cs := by
  rw [decodeOctets]
  exact fun _ _ _ hpercent => absurd hpercent hc

theorem encodeWith_append : encodeWith safe (cs ++ ds) = encodeWith safe cs ++ encodeWith safe ds :=
  List.flatMap_append

theorem encodeWith_cons_of_safe {c : Char} (hc : safe c = true) :
    encodeWith safe (c :: cs) = c :: encodeWith safe cs := by
  simp [encodeWith, hc]

theorem encodeWith_cons_of_not_safe {c : Char} (hc : safe c = false) :
    encodeWith safe (c :: cs) =
      (encodeChar c).flatMap percentOctet ++ encodeWith safe cs := by
  simp [encodeWith, hc]

theorem encodeWith_of_safe (h : ∀ c ∈ cs, safe c = true) : encodeWith safe cs = cs := by
  induction cs with
  | nil => rfl
  | cons c cs ih =>
    obtain ⟨hc, hcs⟩ := List.forall_mem_cons.1 h
    rw [encodeWith_cons_of_safe hc, ih hcs]

/-- The characters of an encoded text: those that were safe, percent signs and digits. -/
theorem mem_encodeWith {x : Char} (h : x ∈ encodeWith safe cs) :
    (x ∈ cs ∧ safe x = true) ∨ x = '%' ∨ ∃ n < 16, x = hexDigit n := by
  obtain ⟨c, hc, hx⟩ := List.mem_flatMap.1 h
  split_ifs at hx with hsafe
  · rw [List.mem_singleton.1 hx]
    exact .inl ⟨hc, hsafe⟩
  · obtain ⟨b, -, hx⟩ := List.mem_flatMap.1 hx
    have hb := b.toNat_lt
    rw [percentOctet_eq] at hx
    simp only [List.mem_cons, List.not_mem_nil, or_false] at hx
    rcases hx with rfl | rfl | rfl
    · exact .inr (.inl rfl)
    · exact .inr (.inr ⟨_, by omega, rfl⟩)
    · exact .inr (.inr ⟨_, by omega, rfl⟩)

/-- **The octets of a text can be read off its encoding**, unless it has percent signs itself. -/
theorem decodeOctets_encodeWith (h : '%' ∉ cs) :
    decodeOctets (encodeWith safe cs) = cs.flatMap encodeChar := by
  induction cs with
  | nil => rfl
  | cons c cs ih =>
    rw [List.mem_cons, not_or] at h
    obtain ⟨hc, hcs⟩ := h
    rw [List.flatMap_cons, ← ih hcs]
    cases hsafe : safe c with
    | true => rw [encodeWith_cons_of_safe hsafe, decodeOctets_cons (Ne.symm hc)]
    | false => rw [encodeWith_cons_of_not_safe hsafe, decodeOctets_flatMap_percentOctet]

/-- **Texts without percent signs are encoded differently.** -/
theorem encodeWith_injective (hcs : '%' ∉ cs) (hds : '%' ∉ ds)
    (h : encodeWith safe cs = encodeWith safe ds) : cs = ds := by
  apply flatMap_encodeChar_injective
  rw [← decodeOctets_encodeWith hcs, h, decodeOctets_encodeWith hds]

/-- An encoding without percent signs is the text itself. -/
theorem encodeWith_eq_self (h : '%' ∉ encodeWith safe cs) : encodeWith safe cs = cs := by
  refine encodeWith_of_safe fun c hc => ?_
  by_contra hsafe
  refine h (List.mem_flatMap.2 ⟨c, hc, ?_⟩)
  rw [if_neg hsafe]
  obtain ⟨b, hb⟩ := List.exists_mem_of_ne_nil (encodeChar c) (by
    rw [encodeChar_eq]
    simp)
  exact List.mem_flatMap.2 ⟨b, hb, List.mem_cons_self⟩

/-! ### Characters of paths and queries -/

theorem isQuerySafe_of_isPathSafe {c : Char} (h : isPathSafe c = true) : isQuerySafe c = true := by
  simp only [isPathSafe, Bool.and_eq_true] at h
  exact h.1.1.1.1

/-- What is encoded needs no more encoding if percent signs and digits do not. -/
theorem safe_of_mem_encodeWith (hpercent : safe '%' = true)
    (hdigit : ∀ n < 16, safe (hexDigit n) = true) {x : Char} (h : x ∈ encodeWith safe cs) :
    safe x = true := by
  rcases mem_encodeWith h with ⟨-, hsafe⟩ | rfl | ⟨n, hn, rfl⟩
  · exact hsafe
  · exact hpercent
  · exact hdigit n hn

theorem isPathSafe_of_mem {c : Char} (h : c ∈ encodeWith isPathSafe cs) : isPathSafe c = true :=
  safe_of_mem_encodeWith (by decide) (fun _ hn => (isPathSafe_hexDigit hn).1) h

theorem isQuerySafe_of_mem {c : Char} (h : c ∈ encodeWith isQuerySafe cs) : isQuerySafe c = true :=
  safe_of_mem_encodeWith (by decide)
    (fun _ hn => isQuerySafe_of_isPathSafe (isPathSafe_hexDigit hn).1) h

/-- An encoded path has no question mark. -/
theorem question_not_mem : '?' ∉ encodeWith isPathSafe cs := by
  intro h
  have hsafe := isPathSafe_of_mem h
  revert hsafe
  decide

/-! ## Segments -/

/-- No part between slashes is one dot or two. -/
def IsPlain (cs : List Char) : Prop := ∀ s ∈ segments cs, s ≠ ['.'] ∧ s ≠ ['.', '.']

instance (cs : List Char) : Decidable (IsPlain cs) := inferInstanceAs (Decidable (∀ _ ∈ _, _))

theorem segments_cons_slash : segments ('/' :: cs) = [] :: segments cs := by
  simp [segments, List.splitOn_cons_eq_if_modifyHead]

theorem segments_cons_of_ne {c : Char} (hc : c ≠ '/') :
    segments (c :: cs) = (segments cs).modifyHead (c :: ·) := by
  simp [segments, List.splitOn_cons_eq_if_modifyHead, hc]

theorem segments_append_of_not_mem (h : '/' ∉ xs) :
    segments (xs ++ ys) = (segments ys).modifyHead (xs ++ ·) := by
  induction xs with
  | nil => exact (congrFun List.modifyHead_id (segments ys)).symm
  | cons x xs ih =>
    rw [List.mem_cons, not_or] at h
    obtain ⟨hx, hxs⟩ := h
    rw [List.cons_append, segments_cons_of_ne (Ne.symm hx), ih hxs, List.modifyHead_modifyHead]
    rfl

/-- The segments of an encoded path are those of the path, encoded. -/
theorem segments_encodeWith :
    segments (encodeWith isPathSafe cs) = (segments cs).map (encodeWith isPathSafe) := by
  induction cs with
  | nil => rfl
  | cons c cs ih =>
    by_cases hc : c = '/'
    · subst hc
      rw [encodeWith_cons_of_safe (by decide), segments_cons_slash, segments_cons_slash, ih]
      rfl
    · have hslash : '/' ∉ encodeWith isPathSafe [c] := by
        intro hmem
        rcases mem_encodeWith hmem with ⟨hmem, -⟩ | hpercent | ⟨n, hn, hdigit⟩
        · exact hc (List.mem_singleton.1 hmem).symm
        · exact absurd hpercent (by decide)
        · exact (isPathSafe_hexDigit hn).2 hdigit.symm
      rw [segments_cons_of_ne hc, ← List.singleton_append, encodeWith_append,
        segments_append_of_not_mem hslash, ih]
      cases segments cs with
      | nil => rfl
      | cons s rest =>
        simp only [List.map_cons, List.modifyHead_cons, ← encodeWith_append, List.singleton_append]

/-- Encoding a path makes no segments of dots. -/
theorem isPlain_encodeWith (h : IsPlain cs) : IsPlain (encodeWith isPathSafe cs) := by
  intro s hs
  rw [segments_encodeWith] at hs
  obtain ⟨t, ht, rfl⟩ := List.mem_map.1 hs
  have hself (hpercent : '%' ∉ encodeWith isPathSafe t) :
      encodeWith isPathSafe t ∈ segments cs := by
    rwa [encodeWith_eq_self hpercent]
  constructor
  · intro heq
    exact (h _ (hself (by rw [heq]; decide))).1 heq
  · intro heq
    exact (h _ (hself (by rw [heq]; decide))).2 heq

theorem resolveDots_append (done xs ys : List (List Char)) :
    resolveDots done (xs ++ ys) = resolveDots (resolveDots done xs) ys := by
  induction done, xs using resolveDots.induct with
  | case1 done => rfl
  | case2 done s rest h ih => simp [resolveDots, h, ih]
  | case3 s rest h h' ih => simp [resolveDots, h, h', ih]
  | case4 s rest h h' ih => simp [resolveDots, h, h', ih]
  | case5 s rest h h' t earlier hne ih => simp [resolveDots, h, h', ih]
  | case6 done s rest h h' ih => simp [resolveDots, h, h', ih]

theorem resolveDots_of_plain (done : List (List Char)) {parts : List (List Char)}
    (h : ∀ s ∈ parts, s ≠ ['.'] ∧ s ≠ ['.', '.']) :
    resolveDots done parts = parts.reverse ++ done := by
  induction parts generalizing done with
  | nil => rfl
  | cons s rest ih =>
    obtain ⟨⟨hone, htwo⟩, hrest⟩ := List.forall_mem_cons.1 h
    simp [resolveDots, hone, htwo, ih _ hrest]

theorem intercalate_append {parts rest : List (List Char)} (hparts : parts ≠ [])
    (hrest : rest ≠ []) : List.intercalate ['/'] (parts ++ rest) =
      List.intercalate ['/'] parts ++ '/' :: List.intercalate ['/'] rest := by
  induction parts with
  | nil => exact absurd rfl hparts
  | cons s parts ih =>
    cases parts with
    | nil => simp [List.intercalate_cons_of_ne_nil hrest]
    | cons t parts =>
      have ih := ih (List.cons_ne_nil _ _)
      simp only [List.cons_append] at ih ⊢
      rw [List.intercalate_cons_cons, ih, List.intercalate_cons_cons]
      simp

theorem normalizePath_eq (cs : List Char) : normalizePath cs =
    if ['.'] ∈ segments cs ∨ ['.', '.'] ∈ segments cs then
      List.intercalate ['/'] (resolveDots [] (segments cs)).reverse
    else cs := by
  simp [normalizePath]

/-- **What has no segments of dots is left as it is**, whatever stands before it. -/
theorem exists_normalizePath (xs : List Char) :
    ∃ ys, ∀ cs, IsPlain cs → normalizePath (xs ++ '/' :: cs) = ys ++ cs := by
  have hsegments (cs : List Char) : segments (xs ++ '/' :: cs) = segments xs ++ segments cs :=
    List.splitOn_append_cons_self xs cs
  have hdots {cs : List Char} (hcs : IsPlain cs) :
      (['.'] ∈ segments xs ++ segments cs ∨ ['.', '.'] ∈ segments xs ++ segments cs) ↔
        (['.'] ∈ segments xs ∨ ['.', '.'] ∈ segments xs) := by
    have hone : ['.'] ∉ segments cs := fun h => (hcs _ h).1 rfl
    have htwo : ['.', '.'] ∉ segments cs := fun h => (hcs _ h).2 rfl
    simp [hone, htwo]
  have hne (cs : List Char) : segments cs ≠ [] := List.splitOn_ne_nil '/' cs
  have hjoin (cs : List Char) : List.intercalate ['/'] (segments cs) = cs :=
    List.intercalate_splitOn '/'
  by_cases h : ['.'] ∈ segments xs ∨ ['.', '.'] ∈ segments xs
  · have hresolved {cs : List Char} (hcs : IsPlain cs) : normalizePath (xs ++ '/' :: cs) =
        List.intercalate ['/'] ((resolveDots [] (segments xs)).reverse ++ segments cs) := by
      rw [normalizePath_eq, hsegments, if_pos ((hdots hcs).2 h), resolveDots_append,
        resolveDots_of_plain _ hcs, List.reverse_append, List.reverse_reverse]
    generalize (resolveDots [] (segments xs)).reverse = done at hresolved
    by_cases hdone : done = []
    · refine ⟨[], fun cs hcs => ?_⟩
      rw [hresolved hcs, hdone]
      exact hjoin cs
    · refine ⟨List.intercalate ['/'] done ++ ['/'], fun cs hcs => ?_⟩
      rw [hresolved hcs, intercalate_append hdone (hne cs), hjoin, List.append_assoc]
      rfl
  · refine ⟨xs ++ ['/'], fun cs hcs => ?_⟩
    rw [normalizePath_eq, hsegments, if_neg fun hmem => h ((hdots hcs).1 hmem), List.append_assoc]
    rfl

/-! ## Paths and queries -/

variable {path path' : List Char} {query query' : Option (List Char)}

theorem written_append (xs path : List Char) (query : Option (List Char)) :
    written (xs ++ path) query = xs ++ written path query := by
  cases query with
  | none => rfl
  | some q => exact List.append_assoc _ _ _

/-- A text is cut where its query starts. -/
theorem cutWritten_written (h : '?' ∉ path) : cutWritten (written path query) = (path, query) := by
  have hpath : ∀ c ∈ path, (c != '?') = true := fun c hc => by
    rw [bne_iff_ne]
    exact fun heq => h (heq ▸ hc)
  cases query with
  | none =>
    simp [cutWritten, written, List.dropWhile_eq_nil_iff.2 hpath]
  | some q =>
    simp [cutWritten, written, List.dropWhile_append_of_pos hpath,
      List.takeWhile_append_of_pos hpath]

theorem eq_of_written (h : '?' ∉ path) (h' : '?' ∉ path')
    (heq : written path query = written path' query') : path = path' ∧ query = query' := by
  have hcut := congrArg cutWritten heq
  rw [cutWritten_written h, cutWritten_written h'] at hcut
  exact Prod.mk.inj hcut

theorem cutReference_cons {c : Char} (h : c ≠ '?') (h' : c ≠ '#') :
    cutReference (c :: cs) = (c :: (cutReference cs).1, (cutReference cs).2) := by
  simp only [cutReference, List.takeWhile_cons, List.dropWhile_cons, bne_iff_ne.2 h,
    bne_iff_ne.2 h', Bool.and_self, if_true]
  split <;> rfl

theorem cutReference_append (hquestion : '?' ∉ xs) (hhash : '#' ∉ xs) :
    cutReference (xs ++ cs) = (xs ++ (cutReference cs).1, (cutReference cs).2) := by
  induction xs with
  | nil => rfl
  | cons x xs ih =>
    rw [List.mem_cons, not_or, ← ne_eq, ne_comm] at hquestion hhash
    rw [List.cons_append, cutReference_cons hquestion.1 hhash.1, ih hquestion.2 hhash.2]
    rfl

/-- A reference without a fragment consists of its path and query. -/
theorem written_cutReference (h : '#' ∉ cs) :
    written (cutReference cs).1 (cutReference cs).2 = cs := by
  induction cs with
  | nil => rfl
  | cons c cs ih =>
    rw [List.mem_cons, not_or] at h
    obtain ⟨hc, hcs⟩ := h
    by_cases hquestion : c = '?'
    · have hself : cs.takeWhile (· != '#') = cs :=
        List.takeWhile_eq_self_iff.2 fun x hx => bne_iff_ne.2 fun heq => hcs (heq ▸ hx)
      simp [cutReference, hquestion, hself, written]
    · rw [cutReference_cons hquestion (Ne.symm hc), ← List.singleton_append, written_append, ih hcs]
      rfl

end Address

end Stowage
