import Stowage.Web.Site

/-!
# Clients

A client keeps the session cookie and goes where it is sent. It holds apart the cookie that was put
into its hands and the one that a site has set: both are sent, the latter last, and a site that
clears the cookie takes back only its own.
-/

namespace Stowage.Web

/-- The session cookies that a client holds. -/
structure Client where
  given : Option String
  received : Option String

/-- What a call has for a body. -/
inductive CallBody where
  | none
  | json (value : Json)
  | raw (text : String)

/-- A call: a request as a client puts it. -/
structure Call where
  method : String
  /-- A path, and a query after a question mark. -/
  path : String
  /-- Names and values that make up the query instead. -/
  params : Option (List (String × String))
  headers : List (String × String)
  body : CallBody

namespace Client

/-- A client without cookies. -/
def new : Client := ⟨none, none⟩

/-- A client with nothing but a session cookie that it was given. -/
def holding (token : String) : Client := ⟨some token, none⟩

/-- The cookies as a header, unless there are none. -/
def cookieHeader (c : Client) (name : String) : List (String × String) :=
  match (c.given.toList ++ c.received.toList).map (Cookie.write name) with
  | [] => []
  | cookies => [("cookie", String.intercalate "; " cookies)]

/-- The client after a response. -/
def after (c : Client) : Option CookieChange → Client
  | some (.set token) => { c with received := some token }
  | some .clear => { c with received := none }
  | none => c

/-- The address that calls start from. -/
def base : Address := ⟨"http", "testserver", "/", none⟩

/-- The path of an address as it arrives. It is freed from percent signs once more than it has
been given any. -/
def arrivingPath (a : Address) : String := Address.decoded a.plainPath.toList

/-- The headers of a call that has a body, with the type of a JSON document. -/
def headersOf (call : Call) : List (String × String) :=
  match call.body with
  | .json _ => call.headers ++ [("content-type", "application/json")]
  | _ => call.headers

/-- The octets of a body. -/
def bodyOf : CallBody → List UInt8
  | .none => []
  | .json v => Text.Utf8.encode v.print
  | .raw s => Text.Utf8.encode s

/-- The query of a call to an address. -/
def queryOf (call : Call) (a : Address) : String :=
  match call.params with
  | some pairs => Query.encode pairs
  | none => a.query.getD ""

/-- Whether headers have one of a name in small letters. -/
def hasHeader (headers : List (String × String)) (name : String) : Bool :=
  headers.any fun h => Request.small h.1 == name

/-- The request that a call makes. Cookies named in the call count before those of the client. -/
def request (c : Client) (cookieName : String) (call : Call) : Fallible Request := do
  let address ← base.append call.path
  let headers := headersOf call
  let cookies := if hasHeader headers "cookie" then [] else c.cookieHeader cookieName
  return {
    method := Method.ofName (Text.upper call.method)
    path := arrivingPath address
    query := queryOf call address
    headers := headers ++ cookies
    body := bodyOf call.body }

/-- A request sent on to another address. -/
def redirected (c : Client) (cookieName : String) (r : Request) (location : String) :
    Fallible Request := do
  let address ← base.append location
  let others := r.headers.filter fun h => Request.small h.1 != "cookie"
  return { r with
    path := arrivingPath address
    query := address.query.getD ""
    headers := others ++ c.cookieHeader cookieName }

/-- How often a client lets itself be sent on. -/
def maxRedirections : Nat := 20

/-- Sends a request to a site, and sends it on as often as the site says, up to a number of
times. -/
def follow (now : Int) : (redirections : Nat) → Client → Site → Request →
    Fallible Response × Client × Site
  | redirections, c, s, r =>
    let (response, s) := s.respond now r
    let c := c.after response.reply.cookie
    match redirections, response.reply.location with
    | n + 1, some location =>
      match c.redirected s.settings.cookieName r location with
      | .ok r => follow now n c s r
      | .error f => (.error f, c, s)
    | _, _ => (.ok response, c, s)

/-- The response as a client gets it. There is no body when only the headers were asked for. -/
def received? (method : String) (response : Response) : Response :=
  if Text.upper method == "HEAD" then
    { response with reply := { response.reply with content := .empty } }
  else response

/-- Makes a call to a site. -/
def call (c : Client) (now : Int) (s : Site) (call : Call) : Fallible Response × Client × Site :=
  match c.request s.settings.cookieName call with
  | .error f => (.error f, c, s)
  | .ok r =>
    let (response, rest) := follow now maxRedirections c s r
    (response.map (received? call.method), rest)

end Client

end Stowage.Web
