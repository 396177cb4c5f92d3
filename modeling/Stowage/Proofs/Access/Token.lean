import Stowage.Access.Operator
import Stowage.Proofs.Digest.Base64
import Stowage.Proofs.Json.Written

/-!
# Tokens that were issued

The claims that a token was written with are read back from it, if they are integers and plain texts
(`Token.signedClaims?_write`). So an issued token stands for the operator it was issued to, until it
expires (`Operator.of_read_token`), and lets in an operator who is there and active
(`Operator.ofToken_eq_ok`).
-/

namespace Stowage

/-- What comes before the first of a character and what comes from there on. -/
theorem Text.split_at_first {d : Char} {cs : List Char} (h : ∀ c ∈ cs, c ≠ d) (rest : List Char) :
    (cs ++ d :: rest).takeWhile (· != d) = cs ∧
      (cs ++ d :: rest).dropWhile (· != d) = d :: rest := by
  have hcs : ∀ c ∈ cs, (c != d) = true := fun c hc => bne_iff_ne.2 (h c hc)
  rw [List.takeWhile_append_of_pos hcs, List.dropWhile_append_of_pos hcs]
  simp

namespace Token

variable {depth : ℕ} {secret token : String} {members : List (RawText × Json)} {now days time : ℤ}

/-! ## Parts -/

/-- Three parts with points between them are told apart again, if there is no point in the first and
in the last. -/
theorem parts?_join {header claims signature : List Char} (hheader : ∀ c ∈ header, c ≠ '.')
    (hsignature : ∀ c ∈ signature, c ≠ '.') :
    parts? (header ++ '.' :: claims ++ '.' :: signature) =
      some (header ++ '.' :: claims, header, claims, signature) := by
  have hlater : ∀ c ∈ signature.reverse, c ≠ '.' := fun c hc =>
    hsignature c (List.mem_reverse.1 hc)
  obtain ⟨hlast, hsigned⟩ := Text.split_at_first hlater (header ++ '.' :: claims).reverse
  obtain ⟨hfirst, hclaims⟩ := Text.split_at_first hheader claims
  have hreverse : (header ++ '.' :: claims ++ '.' :: signature).reverse =
      signature.reverse ++ '.' :: (header ++ '.' :: claims).reverse := by simp
  simp only [parts?, hreverse, hlast, hsigned, List.reverse_reverse, hfirst, hclaims]

/-! ## Claims -/

theorem decode?_print (h : Json.FlatObject members) :
    Text.Utf8.decode? (Text.Utf8.encode (Json.object members).print) =
      some (Json.object members).print :=
  Text.Utf8.decode?_encode fun c hc => (Json.ascii_print_object h c hc).2

theorem object?_print (h : Json.FlatObject members) (depth : ℕ) :
    object? (depth + 1) (Text.Utf8.encode (Json.object members).print) = .ok (some members) := by
  simp only [object?, decode?_print h, Option.map_some, Json.ofText?_print h]

/-- Where nothing may be nested, no object is read. -/
theorem object?_print_zero (h : Json.FlatObject members) :
    object? 0 (Text.Utf8.encode (Json.object members).print) = .error (.unreadable .tooDeep) := by
  simp only [object?, decode?_print h, Option.map_some, Json.ofText?_print_zero]

/-- The header of new tokens can be read back. -/
theorem flatObject_header : Json.FlatObject [("alg", .text algorithm), ("typ", .text "JWT")] := by
  have hplain : ∀ s ∈ ["alg", "HS256", "typ", "JWT"], Json.Plain s := by decide
  exact ⟨nofun, by simp [Json.Flat, hplain, algorithm], by decide⟩

/-- The signature of a token that was written is that of the secret, so that all depends on its
header and its claims. -/
theorem signedClaims?_write_eq (depth : ℕ) (secret : String) (claims : Json) :
    signedClaims? depth secret (write secret claims) =
      (object? depth (Text.Utf8.encode header.print)).bind fun found =>
        match found with
        | some found =>
          if namesAlgorithm found then object? depth (Text.Utf8.encode claims.print) else .ok none
        | none => .ok none := by
  have htoken : (write secret claims).toList =
      (encodePart header).toList ++ '.' :: (encodePart claims).toList ++
        '.' :: (Base64.encodeUrl
          (sign secret (encodePart header ++ "." ++ encodePart claims))).toList := by
    simp [write]
  have hsigned : String.ofList ((encodePart header).toList ++ '.' :: (encodePart claims).toList) =
      encodePart header ++ "." ++ encodePart claims := by
    rw [← String.toList_inj]
    simp
  have hpart (v : Json) : Base64.decodeUrl? (encodePart v).toList =
      some (Text.Utf8.encode v.print) := Base64.decodeUrl?_encodeUrl _
  have hpoint : ∀ c ∈ (encodePart header).toList, c ≠ '.' := Base64.ne_point_of_mem_encodeUrl _
  rw [signedClaims?, htoken, parts?_join hpoint (Base64.ne_point_of_mem_encodeUrl _)]
  simp only [hpart, Base64.decodeUrl?_encodeUrl, hsigned]
  cases object? depth (Text.Utf8.encode header.print) with
  | error f => rfl
  | ok found =>
    cases found with
    | none => rfl
    | some found =>
      simp only [ok_bind, beq_self_eq_true, Bool.and_true]
      rfl

/-- **The claims that a token was written with are read back from it**, if they are integers and
plain texts. -/
theorem signedClaims?_write (secret : String) (h : Json.FlatObject members) (depth : ℕ) :
    signedClaims? (depth + 1) secret (write secret (.object members)) = .ok (some members) := by
  rw [signedClaims?_write_eq, header, object?_print flatObject_header, object?_print h]
  rfl

theorem signedClaims?_write_zero (secret : String) (claims : Json) :
    signedClaims? 0 secret (write secret claims) = .error (.unreadable .tooDeep) := by
  rw [signedClaims?_write_eq, header, object?_print_zero flatObject_header]
  rfl

/-- A token is made of characters for six bits and points. -/
theorem mem_write {claims : Json} {c : Char} (h : c ∈ (write secret claims).toList) :
    c = '.' ∨ ∃ n < 64, c = Base64.urlChar n := by
  simp only [write, encodePart, String.toList_append, List.mem_append] at h
  rcases h with (((h | h) | h) | h) | h
  · exact .inr (Base64.exists_of_mem_encodeUrl h)
  · exact .inl (List.mem_singleton.1 h)
  · exact .inr (Base64.exists_of_mem_encodeUrl h)
  · exact .inl (List.mem_singleton.1 h)
  · exact .inr (Base64.exists_of_mem_encodeUrl h)

/-! ## Expiry -/

/-- A token is good for so many days, and to a time of at most twelve digits. -/
theorem expiry_eq_ok (h : expiry now days = .ok time) :
    time = now + days * 86400 ∧ Text.isLong time.natAbs = false := by
  unfold expiry at h
  dsimp only at h
  split_ifs at h with hrange
  obtain rfl := Except.ok.inj h
  exact ⟨rfl, Json.Reader.isLong_eq_false (by omega)⟩

/-- An issued token has the claims it was issued for and its expiry. -/
theorem issue_eq_ok {claims : List (RawText × Json)}
    (h : issue secret now claims days = .ok token) :
    token = write secret
        (.object (Json.setMember (.whole "exp") (.int (now + days * 86400)) claims)) ∧
      Text.isLong (now + days * 86400).natAbs = false := by
  obtain ⟨time, htime, h⟩ := bind_eq_ok.1 h
  obtain ⟨rfl, hlong⟩ := expiry_eq_ok htime
  exact ⟨(pure_eq_ok.1 h).symm, hlong⟩

/-- Claims that are read are signed and may be used. -/
theorem read_eq_some {claims : List (RawText × Json)}
    (h : read depth secret now token = .ok (some claims)) :
    signedClaims? depth secret token = .ok (some claims) ∧ isValid now claims = .ok true := by
  obtain ⟨found, hsigned, h⟩ := bind_eq_ok.1 h
  cases found with
  | none => simp at h
  | some found =>
    obtain ⟨valid, hvalid, h⟩ := bind_eq_ok.1 h
    cases valid with
    | false => simp at h
    | true =>
      obtain rfl := Option.some.inj (pure_eq_ok.1 h)
      exact ⟨hsigned, hvalid⟩

end Token

namespace Operator

variable {settings : Settings} {issued now : ℤ} {operators : List Operator} {o p : Operator}
  {token : String}

/-- The claims of an operator's token that is good up to a time. -/
def claimsUntil (o : Operator) (time : ℤ) : List (RawText × Json) :=
  [("type", tokenKind), ("oid", .int o.id), ("exp", .int time)]

theorem flatObject_claimsUntil (o : Operator) {time : ℤ} (htime : Text.isLong time.natAbs = false) :
    Json.FlatObject (o.claimsUntil time) := by
  have hplain : ∀ s ∈ ["type", "oid", "exp", "operator"], Json.Plain s := by decide
  have hid : Text.isLong o.id.natAbs = false := by
    obtain ⟨hlow, hhigh⟩ := o.inRange
    rw [idBound] at hlow hhigh
    exact Json.Reader.isLong_eq_false (by omega)
  exact ⟨nofun, by simp [claimsUntil, tokenKind, Json.Flat, hplain, hid, htime],
    by simp [claimsUntil]⟩

/-- An operator's token is signed, and is about the operator. -/
theorem signedClaims?_token (h : o.token settings issued = .ok token) (depth : ℕ) :
    Token.signedClaims? (depth + 1) settings.secret token =
      .ok (some (o.claimsUntil (issued + settings.tokenDays * 86400))) := by
  obtain ⟨rfl, hlong⟩ := Token.issue_eq_ok h
  exact Token.signedClaims?_write _ (o.flatObject_claimsUntil hlong) depth

/-- An operator's token may be used as long as it has not expired. -/
theorem isValid_claimsUntil (o : Operator) (time : ℤ) :
    Token.isValid now (o.claimsUntil time) = .ok (decide (now ≤ time)) := by
  have hexp : Token.timeAllows (o.claimsUntil time) "exp" (fun i => now ≤ i) =
      .ok (decide (now ≤ time)) := rfl
  have hissued : Token.timeAllows (o.claimsUntil time) "iat" (fun _ => true) = .ok true := rfl
  have hstart : Token.timeAllows (o.claimsUntil time) "nbf" (fun i => i ≤ now) = .ok true := rfl
  have hothers : ((Json.member? (o.claimsUntil time) "aud").isNone &&
      Token.isTextIfThere (o.claimsUntil time) "sub" &&
        Token.isTextIfThere (o.claimsUntil time) "jti" &&
          (Json.member? (o.claimsUntil time) "at_hash").isNone) = true := rfl
  simp only [Token.isValid, hissued, hstart, hexp, hothers, ok_bind]
  by_cases hnow : now ≤ time <;> simp [hnow]

/-- An operator's token is about the operator, whose identifier has to be one. -/
theorem idOfClaims_claimsUntil (o : Operator) (time : ℤ) :
    idOfClaims (o.claimsUntil time) = if o.id = 0 then .error .invalidToken else .ok o.id := by
  have hoid : Json.member? (o.claimsUntil time) "oid" = some (.int o.id) := rfl
  have hkind : ((Json.member? (o.claimsUntil time) "type").getD .null).same tokenKind = true := rfl
  have htruthy : (Json.int o.id).truthy = !decide (o.id = 0) := rfl
  simp [idOfClaims, hoid, hkind, htruthy, Json.toWhole, o.inRange]

/-- Whoever a token stands for is an active operator. -/
theorem ofToken_eq_ok {text : Option String} (h : ofToken settings now operators text = .ok p) :
    ∃ token claims, text = some token ∧
      Token.read settings.depth settings.secret now token = .ok (some claims) ∧
      idOfClaims claims = .ok p.id ∧ p ∈ operators ∧ p.isActive = true := by
  unfold ofToken at h
  cases htext : text.filter fun t => !t.isEmpty with
  | none => simp [htext] at h
  | some token =>
    rw [htext] at h
    dsimp only at h
    cases hread : Token.read settings.depth settings.secret now token with
    | error f => simp [hread] at h
    | ok read =>
      rw [hread] at h
      cases read with
      | none => simp at h
      | some claims =>
        obtain ⟨id, hid, h⟩ := bind_eq_ok.1 h
        cases hfind : operators.find? fun o => o.id == id && o.isActive with
        | none => simp [hfind] at h
        | some found =>
          rw [hfind] at h
          obtain rfl := pure_eq_ok.1 h
          have hfound := List.find?_some hfind
          simp only [Bool.and_eq_true, beq_iff_eq] at hfound
          exact ⟨token, claims, (Option.filter_eq_some_iff.1 htext).1, hread, hfound.1 ▸ hid,
            List.mem_of_find?_eq_some hfind, hfound.2⟩

/-- **A token that is read stands for the operator it was issued to**, and has not expired. -/
theorem of_read_token {depth : ℕ} {claims : List (RawText × Json)} {id : ℤ}
    (htoken : o.token settings issued = .ok token)
    (hread : Token.read depth settings.secret now token = .ok (some claims))
    (hid : idOfClaims claims = .ok id) :
    id = o.id ∧ now ≤ issued + settings.tokenDays * 86400 := by
  obtain ⟨hsigned, hvalid⟩ := Token.read_eq_some hread
  cases depth with
  | zero =>
    obtain ⟨rfl, -⟩ := Token.issue_eq_ok htoken
    rw [Token.signedClaims?_write_zero] at hsigned
    cases hsigned
  | succ depth =>
    rw [signedClaims?_token htoken depth] at hsigned
    obtain rfl := Option.some.inj (Except.ok.inj hsigned)
    rw [isValid_claimsUntil] at hvalid
    rw [idOfClaims_claimsUntil] at hid
    split_ifs at hid
    exact ⟨(Except.ok.inj hid).symm, of_decide_eq_true (Except.ok.inj hvalid)⟩

/-- An operator who is there and active is let in with a token until it expires. -/
theorem exists_ofToken_token (hdepth : 0 < settings.depth)
    (htoken : o.token settings issued = .ok token)
    (hnow : now ≤ issued + settings.tokenDays * 86400) (hid : o.id ≠ 0) (hp : p ∈ operators)
    (hpid : p.id = o.id) (hactive : p.isActive = true) :
    ∃ q, ofToken settings now operators (some token) = .ok q := by
  have hsigned := signedClaims?_token htoken (settings.depth - 1)
  rw [Nat.sub_add_cancel hdepth] at hsigned
  have hread : Token.read settings.depth settings.secret now token =
      .ok (some (o.claimsUntil (issued + settings.tokenDays * 86400))) := by
    simp [Token.read, hsigned, isValid_claimsUntil, hnow]
  have hfilled : (some token).filter (fun t => !t.isEmpty) = some token := by
    rw [Option.filter_eq_some_iff, Bool.not_eq_true', ← Bool.not_eq_true, String.isEmpty_iff]
    refine ⟨rfl, ?_⟩
    rintro rfl
    cases hsigned
  have hclaims : idOfClaims (o.claimsUntil (issued + settings.tokenDays * 86400)) = .ok o.id := by
    rw [idOfClaims_claimsUntil, if_neg hid]
  obtain ⟨q, hq⟩ : ∃ q, (operators.find? fun p => p.id == o.id && p.isActive) = some q := by
    rw [← Option.isSome_iff_exists, List.find?_isSome]
    exact ⟨p, hp, by simp [hpid, hactive]⟩
  refine ⟨q, ?_⟩
  unfold ofToken
  rw [hfilled]
  dsimp only
  rw [hread]
  simp [hclaims, hq]

/-- The first operator can log in, if the name in the settings has no blanks around it and the
password is not too long. -/
theorem ofCredentials_first (settings : Settings) (salt : List UInt8)
    (hname : Text.strip settings.operatorName = settings.operatorName)
    (hpassword : settings.operatorPassword.length ≤ Password.maxLength) :
    ofCredentials [first settings salt] settings.operatorName settings.operatorPassword =
      .ok (first settings salt) := by
  have haccepts : (first settings salt).password.accepts settings.operatorPassword = true := by
    simp [first, Password.Stored.accepts, Password.store, hpassword]
  have hfound : ((first settings salt).name == Text.strip settings.operatorName) = true := by
    simp [first, hname]
  simp only [ofCredentials, List.find?_cons, hfound, RawText.whole?, Option.any_some, haccepts]
  rfl

end Operator

end Stowage
