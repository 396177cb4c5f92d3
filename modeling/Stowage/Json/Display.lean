import Stowage.Json.Basic
import Stowage.Text.Quoted

/-!
# Displayed values

How a value is shown inside a message. A text stands as it is; every other value stands as a
literal: `None`, `True`, `False`, numbers, quoted texts, and lists and objects with a blank after
each comma and colon. An integer with too many digits is not shown (`Json.hasLongNumber`), and
neither is a value it is part of.
-/

namespace Stowage.Json

mutual

/-- A value as a literal. -/
def literal : Json → String
  | .null => "None"
  | .bool b => if b then "True" else "False"
  | .int i => toString i
  | .float x => x.text
  | .text s => Text.quoted s
  | .array xs => "[" ++ String.intercalate ", " (itemLiterals xs) ++ "]"
  | .object members => "\x7b" ++ String.intercalate ", " (memberLiterals members) ++ "\x7d"

/-- The literals of the items of an array. -/
def itemLiterals : List Json → List String
  | [] => []
  | x :: xs => literal x :: itemLiterals xs

/-- The literals of the members of an object. -/
def memberLiterals : List (RawText × Json) → List String
  | [] => []
  | (name, x) :: rest => (Text.quoted name ++ ": " ++ literal x) :: memberLiterals rest

end

/-- A value as it is shown in a message. -/
def display : Json → RawText
  | .text s => s
  | x => literal x

/-! ## Long numbers -/

mutual

/-- Whether a value holds an integer with too many digits to be shown. -/
def hasLongNumber : Json → Bool
  | .int i => Text.isLong i.natAbs
  | .array xs => anyLong xs
  | .object members => anyMemberLong members
  | _ => false

/-- Whether an item of an array holds an integer with too many digits to be shown. -/
def anyLong : List Json → Bool
  | [] => false
  | x :: xs => hasLongNumber x || anyLong xs

/-- Whether a member of an object holds an integer with too many digits to be shown. -/
def anyMemberLong : List (RawText × Json) → Bool
  | [] => false
  | (_, x) :: rest => hasLongNumber x || anyMemberLong rest

end

end Stowage.Json
