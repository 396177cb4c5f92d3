import Stowage.Form.Scalar
import Stowage.Measure.Dimensions
import Stowage.Measure.Weight

/-!
# Forms

The forms that clients send: for a carton, for a packing request and for a login. Members may be
named in camel case or with underscores, of which the first counts before the second. A form is
refused with all its problems, in the order in which the members are listed here.
-/

namespace Stowage

namespace Form

/-- The first of several names that an object has a member for, with its value. -/
def findMember (members : List (RawText × Json)) : List String → Option (String × Json)
  | [] => none
  | name :: names =>
    match Json.member? members name with
    | some v => some (name, v)
    | none => findMember members names

/-- Reads a member under one of its names, or makes do without it. -/
def member {α : Type} (members : List (RawText × Json)) (names : List String)
    (absent : Checked α) (read : Reader α) : Checked α :=
  match findMember members names with
  | some (name, v) => (read v).under (.member name)
  | none => absent

/-- Reads a member that has to be there. -/
def required {α : Type} (members : List (RawText × Json)) (names : List String)
    (read : Reader α) : Checked α :=
  member members names ((Checked.refuse .missing).under (.member (names.headD ""))) read

/-- Reads the items of a list; the problems of all of them are reported. -/
def itemsFrom {α : Type} (read : Reader α) : Nat → List Json → Checked (List α)
  | _, [] => .ok []
  | i, raw :: rest =>
    (Checked.both ((read raw).under (.index i)) (itemsFrom read (i + 1) rest)).map fun (x, xs) =>
      x :: xs

/-- Reads a list that is not empty. -/
def filledList {α : Type} (read : Reader α) : Reader (List α)
  | .array items => do
    let xs ← itemsFrom read 0 items
    if xs.isEmpty then .refuse .tooShort else return xs
  | _ => .refuse .listType

/-- Reads an object; `other` is the problem with any other value. -/
def object {α : Type} (other : Problem) (read : List (RawText × Json) → Checked α) : Reader α
  | .object members => read members
  | _ => .refuse other

end Form

/-- A form for a carton. -/
structure CartonForm where
  name : String
  length : Amount
  width : Amount
  height : Amount
  dimensionUnit : LengthUnit
  maxWeight : Amount
  weightUnit : WeightUnit

/-- Reads a form for a carton. -/
def CartonForm.read (other : Problem) : Form.Reader CartonForm :=
  Form.object other fun members =>
    let name := Form.required members ["name"] (Form.text 1 100)
    let length := Form.required members ["length"] Form.amount
    let width := Form.required members ["width"] Form.amount
    let height := Form.required members ["height"] Form.amount
    let dimensionUnit := Form.member members ["dimensionUnit", "dimension_unit"] (.ok .inches)
      Form.lengthUnit
    let maxWeight := Form.required members ["maxWeight", "max_weight"] Form.amount
    let weightUnit := Form.member members ["weightUnit", "weight_unit"] (.ok .pounds)
      Form.weightUnit
    (name.both (length.both (width.both (height.both (dimensionUnit.both
      (maxWeight.both weightUnit)))))).map
      fun (name, length, width, height, dimensionUnit, maxWeight, weightUnit) =>
        ⟨name, length, width, height, dimensionUnit, maxWeight, weightUnit⟩

/-- The dimensions in a form for a carton. -/
def CartonForm.dimensions (f : CartonForm) : Dimensions :=
  ⟨f.length, f.width, f.height, f.dimensionUnit⟩

/-- The weight in a form for a carton. -/
def CartonForm.weight (f : CartonForm) : Weight := ⟨f.maxWeight, f.weightUnit⟩

/-- A line in a form for a packing request. -/
structure LineForm where
  sku : String
  quantity : Int

/-- Reads a line in a form for a packing request. -/
def LineForm.read (other : Problem) : Form.Reader LineForm :=
  Form.object other fun members =>
    let sku := Form.required members ["sku"] (Form.text 1 64)
    let quantity := Form.required members ["quantity"] Form.positiveWhole
    (sku.both quantity).map fun (sku, quantity) => ⟨sku, quantity⟩

/-- A form for a packing request. -/
structure PackingForm where
  items : List LineForm
  orderId : Option String
  tightest : Bool
  mixedCategories : Bool

/-- Reads a form for a packing request. -/
def PackingForm.read (other : Problem) : Form.Reader PackingForm :=
  Form.object other fun members =>
    let items := Form.required members ["items"] (Form.filledList (LineForm.read other))
    let orderId := Form.member members ["orderId", "order_id"] (.ok none)
      (Form.optional (Form.text 0 50))
    let tightest := Form.member members ["optimizeForMinimumBoxes", "optimize_for_minimum_boxes"]
      (.ok true) Form.flag
    let mixedCategories := Form.member members ["allowMixedCategories", "allow_mixed_categories"]
      (.ok true) Form.flag
    (items.both (orderId.both (tightest.both mixedCategories))).map
      fun (items, orderId, tightest, mixedCategories) =>
        ⟨items, orderId, tightest, mixedCategories⟩

/-- A form for a login. -/
structure LoginForm where
  username : RawText
  password : RawText

/-- Reads a form for a login. -/
def LoginForm.read (other : Problem) : Form.Reader LoginForm :=
  Form.object other fun members =>
    let username := Form.required members ["username"] Form.rawText
    let password := Form.required members ["password"] Form.rawText
    (username.both password).map fun (username, password) => ⟨username, password⟩

end Stowage
