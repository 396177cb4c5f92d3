import Stowage.Binary64.Text
import Stowage.Text.Raw

/-!
# JSON values

The values of JSON documents, with integers of any size kept apart from binary floating point.
Texts and names are those that a document can hold, halves of surrogate pairs included. An object is
the list of its members in the order in which their names first came up. Two values are the same
when they agree as values: `1`, `1.0` and `true` do, and the order of members does not count.
-/

namespace Stowage

/-- A JSON value. -/
inductive Json where
  | null
  | bool (value : Bool)
  | int (value : Int)
  | float (value : Binary64)
  | text (value : RawText)
  | array (items : List Json)
  | object (members : List (RawText × Json))

namespace Json

instance : Inhabited Json := ⟨.null⟩

/-- The members with one set to a value: in its place when the name is there, at the end when it is
new. -/
def setMember (name : RawText) (value : Json) : List (RawText × Json) → List (RawText × Json)
  | [] => [(name, value)]
  | (n, v) :: rest => if n == name then (n, value) :: rest else (n, v) :: setMember name value rest

/-- The members written in a document; of a repeated name the last value counts. -/
def membersOf (written : List (RawText × Json)) : List (RawText × Json) :=
  written.foldl (fun members (name, value) => setMember name value members) []

/-- The value of a member. -/
def member? (members : List (RawText × Json)) (name : String) : Option Json :=
  members.lookup (.whole name)

/-- The value of a member of an object; nothing for any other value. -/
def field? (value : Json) (name : String) : Option Json :=
  match value with
  | .object members => member? members name
  | _ => none

/-- The value of a member, null when it is absent. -/
def field (value : Json) (name : String) : Json :=
  (value.field? name).getD .null

/-- Whether the value is null. -/
def isNull : Json → Bool
  | .null => true
  | _ => false

/-- The text, when the value is one. -/
def text? : Json → Option RawText
  | .text s => some s
  | _ => none

/-- Whether the value is a text that has no octets. -/
def isBroken : Json → Bool
  | .text s => !s.isWhole
  | _ => false

/-- The integer, when the value is one; truth values are no integers. -/
def int? : Json → Option Int
  | .int i => some i
  | _ => none

/-- The items, when the value is an array. -/
def items? : Json → Option (List Json)
  | .array xs => some xs
  | _ => none

/-- Whether a value counts as true: not null, false, zero or empty. -/
def truthy : Json → Bool
  | .null => false
  | .bool b => b
  | .int i => i != 0
  | .float x => !x.isZero
  | .text s => !s.isEmpty
  | .array xs => !xs.isEmpty
  | .object members => !members.isEmpty

/-- Whether a value can be a member of a set: everything but arrays and objects. -/
def isScalar : Json → Bool
  | .array _ | .object _ => false
  | _ => true

/-- The integer a number or truth value stands for; nothing for a fraction and for other kinds. -/
def wholeValue? : Json → Option Int
  | .bool b => some (if b then 1 else 0)
  | .int i => some i
  | .float x => x.toInt?
  | _ => none

mutual

/-- Whether two values agree. -/
def same : Json → Json → Bool
  | .null, .null => true
  | .text s, .text t => s == t
  | .array xs, .array ys => sameItems xs ys
  | .object xs, .object ys => xs.length == ys.length && sameMembers xs ys
  | .float x, .float y => x.sameValue y
  | x, y =>
    match x.wholeValue?, y.wholeValue? with
    | some i, some j => i == j
    | _, _ => false

/-- Whether two lists of values agree, item by item. -/
def sameItems : List Json → List Json → Bool
  | [], [] => true
  | x :: xs, y :: ys => same x y && sameItems xs ys
  | _, _ => false

/-- Whether every member of the first object has its like in the second. -/
def sameMembers : List (RawText × Json) → List (RawText × Json) → Bool
  | [], _ => true
  | (name, x) :: xs, ys =>
    (match ys.lookup name with
      | some y => same x y
      | none => false) && sameMembers xs ys

end

end Json

end Stowage
