import Stowage.View.Json
import Stowage.Warehouse.Opening
import Stowage.Warehouse.Revision
import Stowage.Web.Command

/-!
# Sites

A site answers requests over a warehouse. Every request has a name, which the sender may choose and
which is made up otherwise; the response carries it, except when the site breaks down over the
request.
-/

namespace Stowage.Web

/-- A warehouse with those who may change it and the means to answer requests. -/
structure Site where
  desk : Calculation.Desk
  operators : List Operator
  warehouse : Warehouse

namespace Site

/-- The site as it is after the program has started. -/
def opened (desk : Calculation.Desk) (salt : List UInt8) : Fallible Site := do
  let warehouse ← Warehouse.empty.opened desk.settings
  return ⟨desk, [Operator.first desk.settings salt], warehouse⟩

/-- The settings of a site. -/
def settings (s : Site) : Settings := s.desk.settings

/-- What commands to a site are read with. -/
def gate (s : Site) (now : Int) : Gate := ⟨s.settings, now, s.operators⟩

/-- What is known of an operator. -/
def operatorJson (o : Operator) : Json := .object [("id", .int o.id), ("username", .text o.name)]

/-- How a site is. How long it has been up is not told. -/
def healthJson (s : Site) : Json :=
  .object [("status", .text "UP"), ("application", .text s.settings.application),
    ("version", .text s.settings.version), ("uptimeSeconds", .null),
    ("activeCartons", .int (s.warehouse.cartons.count true))]

/-- The outcome of doing something: a reply or a failure. -/
abbrev Outcome := Fallible Reply

/-- The reply that shows a carton. -/
def showCarton (status : Nat) (c : Fallible Carton) : Outcome := do
  let view ← (← c).view
  return .json status view.toJson

/-- The reply that shows a solution. -/
def showSolution (v : Fallible SolutionView) : Outcome := v.map fun v => .json 200 v.toJson

/-- The reply that shows cartons. -/
def showCartons (cartons : Fallible (List Carton)) : Outcome := do
  let views ← (← cartons).mapM Carton.view
  return .json 200 (.array (views.map CartonView.toJson))

/-- The reply to an operator who has logged in. -/
def welcome (s : Site) (now : Int) (o : Operator) : Outcome := do
  let token ← o.token s.settings now
  let reply := Reply.json 200 (.object [("ok", .bool true), ("operator", operatorJson o)])
  return reply.withCookie (.set token)

/-- Does what a command says with the warehouse. -/
def perform (s : Site) (now : Int) : Command → Outcome × Warehouse
  | .health => (.ok (.json 200 s.healthJson), s.warehouse)
  | .listCartons activeOnly => (showCartons (s.warehouse.cartons.list activeOnly), s.warehouse)
  | .getCarton id => (showCarton 200 (s.warehouse.getCarton id), s.warehouse)
  | .createCarton form =>
    let (c, w) := s.warehouse.createCarton (.text form.name) (.known form.dimensions)
      (.known form.weight)
    (showCarton 201 c, w)
  | .updateCarton id form =>
    let (c, w) := s.warehouse.revise id
      (.update (.text form.name) (.known form.dimensions) (.known form.weight))
    (showCarton 200 c, w)
  | .deactivateCarton id =>
    let (c, w) := s.warehouse.revise id .deactivate
    (c.map fun _ => .empty 204, w)
  | .activateCarton id =>
    let (c, w) := s.warehouse.revise id .activate
    (showCarton 200 c, w)
  | .calculate order =>
    let (v, w) := s.warehouse.calculate s.desk order
    (showSolution v, w)
  | .getSolution id => (showSolution (s.warehouse.getSolution id), s.warehouse)
  | .login o => (s.welcome now o, s.warehouse)
  | .logout =>
    (.ok ((Reply.json 200 (.object [("ok", .bool true)])).withCookie .clear), s.warehouse)
  | .whoAmI o => (.ok (.json 200 (operatorJson o)), s.warehouse)

/-! ## Refusals -/

/-- A step to a problem as clients see it. -/
def placeJson : Place → Json
  | .member name => .text name
  | .index i => .int i

/-- A problem as clients see it. -/
def detailJson (d : Detail) : Json :=
  .object [("type", .text d.problem.text), ("loc", .array (d.place.map placeJson))]

/-- A reply that says in one word what is the matter. -/
def remark (status : Nat) (word : String) : Reply :=
  .json status (.object [("detail", .text word)])

/-- The reply to a request with a name that broke a rule of the domain. -/
def domainReply (requestId : String) (e : DomainError) : Reply :=
  .json e.kind.status (.object [("error", .text e.kind.code), ("detail", .text e.message),
    ("request_id", .text requestId)])

/-- The reply to a request with a name that failed, if the site does not break down over it. -/
def failureReply? (requestId : String) : Failure → Option Reply
  | .domain e => some (domainReply requestId e)
  | _ => none

/-- The reply to someone who is not let in, if the site does not break down over it. -/
def accessReply? : AccessRefusal → Option Reply
  | .notLoggedIn => some (remark 401 "not_logged_in")
  | .invalidToken => some (remark 401 "invalid_token")
  | .operatorNotFound => some (remark 401 "operator_not_found")
  | .invalidCredentials => some (remark 400 "invalid_credentials")
  | .operatorDisabled => some (remark 403 "operator_disabled")
  | .failed _ => none

/-- The characters of an address that are not written as octets. -/
def isAddressPlain (c : Char) : Bool :=
  Query.isPlain c || ":/%#?=@[]!$&'()*+,;".toList.contains c

/-- The address of a path, with the query of a request. -/
def addressOf (path : String) (r : Request) : String :=
  let target := if r.query.isEmpty then path else path ++ "?" ++ r.query
  String.ofList (Address.encodeWith isAddressPlain target.toList)

/-- The reply to a request with a name that is refused, if the site does not break down over it. -/
def refusalReply? (requestId : String) (r : Request) : Refusal → Option Reply
  | .problems details =>
    some (.json 422 (.object [("detail", .array (details.map detailJson))]))
  | .unparsed => some (remark 400 "There was an error parsing the body")
  | .denied why => accessReply? why
  | .notFound => some (remark 404 "Not Found")
  | .notAllowed => some (remark 405 "Method Not Allowed")
  | .moved path => some (.moved (addressOf path r))
  | .failed f => failureReply? requestId f

/-! ## Responses -/

/-- The methods that pages of other sites may use. -/
def sharedMethods : List String := ["DELETE", "GET", "HEAD", "OPTIONS", "PATCH", "POST", "PUT"]

/-- The reply to a page of another site that asks which methods it may use. -/
def sharingReply? (r : Request) : Option Reply :=
  match r.method, r.header? "origin", r.header? "access-control-request-method" with
  | .options, some _, some asked =>
    if asked ∈ sharedMethods then some (.text 200 "OK")
    else some (.text 400 "Disallowed CORS method")
  | _, _, _ => none

/-- The name of a request, which is made up unless the sender gives one. -/
def nameRequest (supply : Supply) (r : Request) : String × Supply :=
  match r.filledHeader? "x-request-id" with
  | some name => (name, supply)
  | none =>
    let (serial, supply) := supply.newId
    (Supply.uuid serial, supply)

/-- What is to be replied to a request with a name, unless the site breaks down over it, and the
warehouse afterwards. -/
def draft? (s : Site) (now : Int) (requestId : String) (r : Request) : Option Reply × Warehouse :=
  match sharingReply? r with
  | some reply => (some reply, s.warehouse)
  | none =>
    match (s.gate now).read requestId r with
    | .error refusal => (refusalReply? requestId r refusal, s.warehouse)
    | .ok command =>
      let (outcome, w) := s.perform now command
      match outcome with
      | .ok reply => (some reply, w)
      | .error f => (failureReply? requestId f, w)

/-- The reply to a request with a name, unless the site breaks down over it, and the warehouse
afterwards. The site also breaks down over a reply that cannot be sent. -/
def reply? (s : Site) (now : Int) (requestId : String) (r : Request) : Option Reply × Warehouse :=
  let (reply, w) := s.draft? now requestId r
  (reply.filter Reply.isSendable, w)

/-- The response to a request. -/
def respond (s : Site) (now : Int) (r : Request) : Response × Site :=
  let (name, supply) := nameRequest s.warehouse.supply r
  let s := { s with warehouse := { s.warehouse with supply } }
  let (reply, w) := s.reply? now name r
  let response : Response := match reply with
    | some reply =>
      ⟨reply, some name, some ((r.filledHeader? "x-correlation-id").getD name)⟩
    | none => ⟨.text 500 "Internal Server Error", none, none⟩
  (response, { s with warehouse := w })

end Site

end Stowage.Web
