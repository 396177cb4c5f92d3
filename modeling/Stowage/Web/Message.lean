import Stowage.Failure.Checked
import Stowage.Json.Finite
import Stowage.Json.Reader

/-!
# Requests and responses

What a client sends and what it gets back. The names of headers are compared without regard to
case. A body is taken for JSON only when it says that it is.
-/

namespace Stowage.Web

/-- What a request wants done. -/
inductive Method where
  | get
  | post
  | put
  | delete
  | options
  | other
  deriving DecidableEq

/-- The method that a name stands for. -/
def Method.ofName (name : String) : Method :=
  if name == "GET" then .get
  else if name == "POST" then .post
  else if name == "PUT" then .put
  else if name == "DELETE" then .delete
  else if name == "OPTIONS" then .options
  else .other

/-- A request. -/
structure Request where
  method : Method
  /-- The path, without percent signs. -/
  path : String
  /-- The query, with percent signs. -/
  query : String
  headers : List (String × String)
  body : List UInt8

namespace Request

/-- A name of a header in small letters. -/
def small (name : String) : String := String.ofList (name.toList.map Char.toLower)

/-- The value of the first header with a name, which is given in small letters. -/
def header? (r : Request) (name : String) : Option String :=
  (r.headers.find? fun h => small h.1 == name).map (·.2)

/-- The value of a header that is there and not empty. -/
def filledHeader? (r : Request) (name : String) : Option String :=
  (r.header? name).filter fun value => !value.isEmpty

/-- Whether a type of content is that of JSON documents. -/
def isJsonType (value : String) : Bool :=
  let kind := small (Text.strip (String.ofList (value.toList.takeWhile (· != ';'))))
  match kind.toList.splitOn '/' with
  | [main, sub] =>
    main == "application".toList && (sub == "json".toList || "+json".toList.isSuffixOf sub)
  | _ => false

end Request

/-- What a request has for a body. -/
inductive Payload where
  | absent
  | document (value : Json)
  /-- Octets that are not said to be JSON. -/
  | plain (octets : List UInt8)

namespace Payload

/-- The body of a request. One that is said to be JSON has to be. -/
def ofRequest (depth : Nat) (r : Request) : Except Json.ReadError Payload :=
  if r.body.isEmpty then .ok .absent
  else if ((r.header? "content-type").map Request.isJsonType).getD false then
    (Json.ofOctets? depth r.body).map .document
  else .ok (.plain r.body)

/-- The form in a body, as a reader reads it. -/
def form {α : Type} (p : Payload) (read : Json → Checked α) : Checked α :=
  let found : Checked α := match p with
    | .absent | .document .null => .refuse .missing
    | .plain _ => .refuse .modelAttributesType
    | .document v => read v
  found.under (.member "body")

/-- The value at a place inside another one. -/
def valueAt (value : Json) : List Place → Json
  | [] => value
  | .member name :: rest => valueAt (value.field name) rest
  | .index i :: rest => valueAt ((value.items?.getD []).getD i .null) rest

/-- The value in a document that a problem with a body concerns. What is missing concerns the value
that it is missing from. -/
def concerned (document : Json) (d : Detail) : Json :=
  let place := d.place.drop 1
  valueAt document (if d.problem = .missing then place.dropLast else place)

/-- Whether problems with the form in a body can be told. They are told with the values that they
concern, and these have to be sent. -/
def tells (p : Payload) (details : List Detail) : Bool :=
  match p with
  | .absent => true
  | .plain octets => (Text.Utf8.decode? octets).isSome
  | .document v => details.all fun d => (concerned v d).isWhole && (concerned v d).isFinite

end Payload

/-- What becomes of the session cookie of a client. -/
inductive CookieChange where
  | set (value : String)
  | clear

/-- The body of a response. -/
inductive Content where
  | empty
  | json (value : Json)
  | text (value : String)

/-- What is answered to a request, apart from the names under which it is answered. -/
structure Reply where
  status : Nat
  content : Content
  cookie : Option CookieChange
  /-- Where the client has to go instead. -/
  location : Option String

namespace Reply

/-- A reply with a JSON body. -/
def json (status : Nat) (v : Json) : Reply := ⟨status, .json v.finite, none, none⟩

/-- A reply without a body. -/
def empty (status : Nat) : Reply := ⟨status, .empty, none, none⟩

/-- A reply in words. -/
def text (status : Nat) (s : String) : Reply := ⟨status, .text s, none, none⟩

/-- A reply that sends the client to another address. -/
def moved (location : String) : Reply := ⟨307, .empty, none, some location⟩

/-- Whether the reply can be sent. -/
def isSendable (r : Reply) : Bool :=
  match r.content with
  | .json v => v.isWhole
  | _ => true

/-- The reply with a change of the session cookie. -/
def withCookie (r : Reply) (change : CookieChange) : Reply := { r with cookie := some change }

end Reply

/-- A response: a reply and the names of the request it belongs to. -/
structure Response where
  reply : Reply
  requestId : Option String
  correlationId : Option String

end Stowage.Web
