import Stowage.Access.Operator
import Stowage.Form.Basic
import Stowage.Warehouse.Calculation
import Stowage.Web.Cookie
import Stowage.Web.Query
import Stowage.Web.Resource

/-!
# Commands

What a request asks for, once it has been understood and allowed. A request that cannot be read,
whose form has problems or whose sender may not do what it asks for never becomes a command.

An unreadable body is noticed first, then whether the sender may go on, and last the problems with
the form.
-/

namespace Stowage.Web

/-- Something to be done. -/
inductive Command where
  | health
  | listCartons (activeOnly : Bool)
  | getCarton (id : String)
  | createCarton (form : CartonForm)
  | updateCarton (id : String) (form : CartonForm)
  | deactivateCarton (id : String)
  | activateCarton (id : String)
  | calculate (order : PackingOrder)
  | getSolution (id : String)
  | login (operator : Operator)
  | logout
  | whoAmI (operator : Operator)

/-- Why a request is not done. -/
inductive Refusal where
  /-- Something is wrong with the form. -/
  | problems (details : List Detail)
  /-- The body could not be taken apart. -/
  | unparsed
  /-- The sender may not do it. -/
  | denied (why : AccessRefusal)
  /-- There is nothing at the path. -/
  | notFound
  /-- This cannot be done with what is at the path. -/
  | notAllowed
  /-- It is to be found at another path. -/
  | moved (path : String)
  /-- It was tried and failed. -/
  | failed (failure : Failure)

/-- What commands are read with: the settings, the time, and who may do what. -/
structure Gate where
  settings : Settings
  /-- Seconds after the start of 1970. -/
  now : Int
  operators : List Operator

namespace Gate

/-- The session token that a request comes with. -/
def tokenOf (g : Gate) (r : Request) : Option String :=
  match r.header? "cookie" with
  | some header => Cookie.value? header g.settings.cookieName
  | none => none

/-- The operator that a request comes from. -/
def operator (g : Gate) (r : Request) : Except Refusal Operator :=
  (Operator.ofToken g.settings g.now g.operators (g.tokenOf r)).mapError .denied

/-- The outcome of a check. -/
def checked {α : Type} (c : Checked α) : Except Refusal α := c.mapError .problems

/-- Why a request is not done whose body cannot be read. -/
def unreadable : Json.ReadError → Refusal
  | .fault position => .problems [⟨.jsonInvalid, [.member "body", .index position]⟩]
  | _ => .unparsed

/-- The body of a request. -/
def payload (g : Gate) (r : Request) : Except Refusal Payload :=
  (Payload.ofRequest g.settings.depth r).mapError unreadable

/-- The form in a body, as a reader reads it. It fails with problems that cannot be told. -/
def form {α : Type} (p : Payload) (read : Form.Reader α) : Except Refusal α :=
  (p.form read).mapError fun details =>
    if p.tells details then .problems details else .failed .unsendable

/-- Whether only active cartons are asked for. -/
def activeOnly (r : Request) : Checked Bool :=
  match Query.value? r.query "activeOnly" with
  | some word => ((Form.flag (.text word)).under (.member "activeOnly")).under (.member "query")
  | none => .ok false

/-- The order in a form, for a request of a name. -/
def order (requestId : String) (form : PackingForm) : Fallible PackingOrder := do
  let lines ← form.items.mapM fun line => OrderLine.ofRaw (.text line.sku) (.int line.quantity)
  return ⟨.text requestId, form.orderId.elim .null fun s => .text s, lines, form.tightest,
    form.mixedCategories⟩

/-- The form for a carton in the body of a request from an operator. -/
def cartonForm (g : Gate) (r : Request) : Except Refusal CartonForm := do
  let payload ← g.payload r
  let _ ← g.operator r
  form payload (CartonForm.read .modelAttributesType)

/-- The order in the body of a request of a name. -/
def packingOrder (g : Gate) (requestId : String) (r : Request) : Except Refusal PackingOrder := do
  let payload ← g.payload r
  let form ← form payload (PackingForm.read .modelAttributesType)
  (order requestId form).mapError .failed

/-- The operator whose name and password are in the body of a request. -/
def credentials (g : Gate) (r : Request) : Except Refusal Operator := do
  let payload ← g.payload r
  let form ← form payload (LoginForm.read .modelAttributesType)
  (Operator.ofCredentials g.operators form.username form.password).mapError .denied

/-- What a request with a name asks for with what it is about. -/
def readAbout (g : Gate) (requestId : String) (r : Request) :
    Resource → Except Refusal Command
  | .health =>
    match r.method with
    | .get => .ok .health
    | _ => .error .notAllowed
  | .cartons =>
    match r.method with
    | .get => (checked (activeOnly r)).map .listCartons
    | .post => (g.cartonForm r).map .createCarton
    | _ => .error .notAllowed
  | .carton id =>
    match r.method with
    | .get => .ok (.getCarton id)
    | .put => (g.cartonForm r).map (.updateCarton id)
    | .delete => (g.operator r).map fun _ => .deactivateCarton id
    | _ => .error .notAllowed
  | .activation id =>
    match r.method with
    | .post => (g.operator r).map fun _ => .activateCarton id
    | _ => .error .notAllowed
  | .solutions =>
    match r.method with
    | .post => (g.packingOrder requestId r).map .calculate
    | _ => .error .notAllowed
  | .solution id =>
    match r.method with
    | .get => .ok (.getSolution id)
    | _ => .error .notAllowed
  | .login =>
    match r.method with
    | .post => (g.credentials r).map .login
    | _ => .error .notAllowed
  | .logout =>
    match r.method with
    | .post => .ok .logout
    | _ => .error .notAllowed
  | .operator =>
    match r.method with
    | .get => (g.operator r).map .whoAmI
    | _ => .error .notAllowed

/-- What a request with a name asks for. -/
def read (g : Gate) (requestId : String) (r : Request) : Except Refusal Command :=
  match Resource.ofPath? r.path with
  | some resource => g.readAbout requestId r resource
  | none =>
    let other := Resource.otherSpelling r.path
    if (Resource.ofPath? other).isSome then .error (.moved other) else .error .notFound

end Gate

end Stowage.Web
