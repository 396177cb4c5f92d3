import Stowage.Json.Basic
import Stowage.Text.Quoted

/-!
# Printed JSON

The compact form of a value: no blanks, characters outside ASCII as they are, and controls, the
quote, the backslash and halves of surrogate pairs escaped.
-/

namespace Stowage.Json

/-- A character as it stands inside a JSON string. -/
def printedChar (c : Char) : List Char :=
  if c == '"' || c == '\\' then ['\\', c]
  else if c == '\n' then ['\\', 'n']
  else if c == '\r' then ['\\', 'r']
  else if c == '\t' then ['\\', 't']
  else if c.toNat < 32 || c.toNat == 127 then '\\' :: 'u' :: Text.hexDigits 4 c.toNat
  else [c]

/-- A code point as it stands inside a JSON string. -/
def printedPoint : CodePoint → List Char
  | .char c => printedChar c
  | p => '\\' :: 'u' :: Text.hexDigits 4 p.toNat

/-- A JSON string. -/
def printedText (t : RawText) : String :=
  String.ofList ('"' :: t.points.flatMap printedPoint ++ ['"'])

/-- A number, with names for the values that have no digits. -/
def printedFloat : Binary64 → String
  | .infinite negative => if negative then "-Infinity" else "Infinity"
  | .nan => "NaN"
  | x => x.text

mutual

/-- The compact form. -/
def print : Json → String
  | .null => "null"
  | .bool b => if b then "true" else "false"
  | .int i => toString i
  | .float x => printedFloat x
  | .text s => printedText s
  | .array xs => "[" ++ String.intercalate "," (printItems xs) ++ "]"
  | .object members => "\x7b" ++ String.intercalate "," (printMembers members) ++ "\x7d"

/-- The compact forms of the items of an array. -/
def printItems : List Json → List String
  | [] => []
  | x :: xs => print x :: printItems xs

/-- The compact forms of the members of an object. -/
def printMembers : List (RawText × Json) → List String
  | [] => []
  | (name, x) :: rest => (printedText name ++ ":" ++ print x) :: printMembers rest

end

end Stowage.Json
