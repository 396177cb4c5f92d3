import Stowage.Access.Password
import Stowage.Access.Token
import Stowage.Settings

/-!
# Operators

Whoever changes cartons has to be an operator. An operator logs in with a name and a password and
gets a session token, which from then on stands for the operator until it expires, as long as the
operator is not disabled.
-/

namespace Stowage

/-- The bound of identifiers. -/
def Operator.idBound : Int := 9223372036854775808

/-- An account that may change cartons. -/
structure Operator where
  id : Int
  name : String
  password : Password.Stored
  isActive : Bool
  /-- Identifiers are numbers of 64 bits. -/
  inRange : -Operator.idBound ≤ id ∧ id < Operator.idBound

/-- Why someone is not let in. -/
inductive AccessRefusal where
  /-- There is no session token. -/
  | notLoggedIn
  /-- The session token is no good. -/
  | invalidToken
  /-- The session token stands for no active operator. -/
  | operatorNotFound
  /-- No operator has the name and the password. -/
  | invalidCredentials
  /-- The operator is disabled. -/
  | operatorDisabled
  /-- Something else went wrong. -/
  | failed (failure : Failure)

namespace Operator

/-- The kind of session token that stands for an operator. -/
def tokenKind : Json := .text "operator"

/-- The claims in the session token of an operator. -/
def claims (o : Operator) : List (RawText × Json) := [("type", tokenKind), ("oid", .int o.id)]

/-- The identifier of the operator that claims are about. Claims of another kind, or about no one,
are no good. -/
def idOfClaims (claims : List (RawText × Json)) : Except AccessRefusal Int :=
  let oid := (Json.member? claims "oid").getD .null
  if !((Json.member? claims "type").getD .null).same tokenKind || !oid.truthy then
    .error .invalidToken
  else
    match oid.toWhole with
    | .error f => .error (.failed f)
    | .ok none => .error (.failed .wrongKind)
    | .ok (some id) =>
      if -idBound ≤ id ∧ id < idBound then .ok id else .error (.failed .outOfRange)

/-- The operator that a session token stands for now. -/
def ofToken (settings : Settings) (now : Int) (operators : List Operator)
    (token : Option String) : Except AccessRefusal Operator :=
  match token.filter fun t => !t.isEmpty with
  | none => .error .notLoggedIn
  | some token =>
    match Token.read settings.depth settings.secret now token with
    | .error f => .error (.failed f)
    | .ok none => .error .invalidToken
    | .ok (some claims) => do
      let id ← idOfClaims claims
      match operators.find? fun o => o.id == id && o.isActive with
      | some o => return o
      | none => throw .operatorNotFound

/-- The operator with a name and a password. Blanks around the name do not count. A name that has no
octets cannot be looked up, and no password is one that has none. -/
def ofCredentials (operators : List Operator) (name password : RawText) :
    Except AccessRefusal Operator :=
  match name with
  | .broken _ => .error (.failed .unencodable)
  | .whole name =>
    match operators.find? fun o => o.name == Text.strip name with
    | none => .error .invalidCredentials
    | some o =>
      if !(password.whole?.any o.password.accepts) then .error .invalidCredentials
      else if !o.isActive then .error .operatorDisabled
      else .ok o

/-- A session token for an operator. -/
def token (settings : Settings) (now : Int) (o : Operator) : Fallible String :=
  Token.issue settings.secret now o.claims settings.tokenDays

/-- The operator there is from the start. -/
def first (settings : Settings) (salt : List UInt8) : Operator :=
  ⟨1, settings.operatorName, Password.store settings.operatorPassword salt, true, by decide⟩

end Operator

end Stowage
