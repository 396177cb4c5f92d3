import Stowage.Digest.Base64
import Stowage.Digest.Keyed
import Stowage.Json.Printer
import Stowage.Json.Reader
import Stowage.Json.Whole
import Stowage.Text.Utf8
import Stowage.Time.Timestamp

/-!
# Signed tokens

A token is a header, claims and a signature, each in base 64, with points between them. Only tokens
signed with the secret by the keyed digest are read, and only while their claims allow it: not past
their expiry, not before their start, and not when they are meant for a particular audience.
-/

namespace Stowage.Token

/-- The name of the signature algorithm. -/
def algorithm : String := "HS256"

/-- The header of new tokens. -/
def header : Json := .object [("alg", .text algorithm), ("typ", .text "JWT")]

/-- A JSON document in base 64. -/
def encodePart (v : Json) : String := Base64.encodeUrl (Text.Utf8.encode v.print)

/-- The signature of a text. -/
def sign (secret text : String) : List UInt8 :=
  Keyed.authenticate (Text.Utf8.encode secret) (Text.Utf8.encode text)

/-- A token with the given claims. -/
def write (secret : String) (claims : Json) : String :=
  let text := encodePart header ++ "." ++ encodePart claims
  text ++ "." ++ Base64.encodeUrl (sign secret text)

/-- The largest number of days of a span of time. -/
def maxDays : Int := 999999999

/-- The time, in seconds after the start of 1970, that is so many days after another. -/
def expiry (now days : Int) : Fallible Int :=
  let time := now + days * 86400
  if maxDays < days.natAbs ∨ time < -62135596800 ∨ 253402300800 ≤ time then .error .outOfRange
  else .ok time

/-- A token for an object of claims that is good for some days. -/
def issue (secret : String) (now : Int) (claims : List (RawText × Json)) (days : Int) :
    Fallible String := do
  let time ← expiry now days
  return write secret (.object (Json.setMember "exp" (.int time) claims))

/-- The parts of a token: what is signed, the header and the claims in it, and the signature. -/
def parts? (token : List Char) : Option (List Char × List Char × List Char × List Char) :=
  let reversed := token.reverse
  let signature := (reversed.takeWhile (· != '.')).reverse
  match reversed.dropWhile (· != '.') with
  | [] => none
  | _ :: signed =>
    let signed := signed.reverse
    match signed.dropWhile (· != '.') with
    | [] => none
    | _ :: claims => some (signed, signed.takeWhile (· != '.'), claims, signature)

/-- The object in a part of a token, in which arrays and objects may be nested to a depth. A part
that is none of this is no good, but one that is nested too deep fails. -/
def object? (depth : Nat) (octets : List UInt8) : Fallible (Option (List (RawText × Json))) :=
  match (Text.Utf8.decode? octets).map (Json.ofText? depth) with
  | some (.ok (.object members)) => .ok (some members)
  | some (.error .tooDeep) => .error (.unreadable .tooDeep)
  | _ => .ok none

/-- Whether a header names the algorithm. -/
def namesAlgorithm (header : List (RawText × Json)) : Bool :=
  match Json.member? header "alg" with
  | some (.text name) => name == algorithm
  | _ => false

/-- The claims of a token whose signature is that of the secret. -/
def signedClaims? (depth : Nat) (secret token : String) :
    Fallible (Option (List (RawText × Json))) :=
  match parts? token.toList with
  | none => .ok none
  | some (signed, header, claims, signature) =>
    match Base64.decodeUrl? header with
    | none => .ok none
    | some header => do
      match ← object? depth header, Base64.decodeUrl? claims, Base64.decodeUrl? signature with
      | some header, some claims, some signature =>
        if namesAlgorithm header && sign secret (String.ofList signed) == signature then
          object? depth claims
        else return none
      | _, _, _ => return none

/-- Whether a claim about a time lets a token pass. A claim that is not there does; one that stands
for no number does not. -/
def timeAllows (claims : List (RawText × Json)) (name : String) (allows : Int → Bool) :
    Fallible Bool :=
  match Json.member? claims name with
  | none => .ok true
  | some v => do
    match ← v.toWhole with
    | some i => return allows i
    | none => return false

/-- Whether a claim is not there or is a text. -/
def isTextIfThere (claims : List (RawText × Json)) (name : String) : Bool :=
  match Json.member? claims name with
  | none | some (.text _) => true
  | _ => false

/-- Whether claims allow the use of a token now. -/
def isValid (now : Int) (claims : List (RawText × Json)) : Fallible Bool := do
  if !(← timeAllows claims "iat" fun _ => true) then return false
  if !(← timeAllows claims "nbf" fun i => i ≤ now) then return false
  if !(← timeAllows claims "exp" fun i => now ≤ i) then return false
  return (Json.member? claims "aud").isNone && isTextIfThere claims "sub" &&
    isTextIfThere claims "jti" && (Json.member? claims "at_hash").isNone

/-- The claims of a token that is signed with the secret and may be used now. -/
def read (depth : Nat) (secret : String) (now : Int) (token : String) :
    Fallible (Option (List (RawText × Json))) := do
  match ← signedClaims? depth secret token with
  | none => return none
  | some claims => if ← isValid now claims then return some claims else return none

end Stowage.Token
