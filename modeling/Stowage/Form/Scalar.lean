import Stowage.Failure.Checked
import Stowage.Measure.Amount
import Stowage.Measure.Unit

/-!
# Scalars in forms

How the values in a form are read. A form is generous: whole numbers may come as texts or with a
fraction of zero, flags as numbers or words, decimals as texts. What cannot be read that way is a
problem, and each kind of value has problems of its own.
-/

namespace Stowage.Form

/-- Reads a value of a form. -/
abbrev Reader (α : Type) := Json → Checked α

/-- Reads any text. -/
def rawText : Reader RawText
  | .text s => .ok s
  | _ => .refuse .stringType

/-- Reads a text of characters, of a length between two bounds. -/
def text (least most : Nat) : Reader String
  | .text (.whole s) =>
    if s.length < least then .refuse .stringTooShort
    else if most < s.length then .refuse .stringTooLong
    else .ok s
  | .text (.broken _) => .refuse .stringUnicode
  | _ => .refuse .stringType

/-- Reads null as nothing and every other value as a reader does. -/
def optional {α : Type} (read : Reader α) : Reader (Option α)
  | .null => .ok none
  | raw => (read raw).map some

/-- Removes single underscores that stand between digits. -/
def joinDigits? : List Char → Option (List Char)
  | [] => none
  | [c] => if Text.isAsciiDigit c then some [c] else none
  | c :: '_' :: rest =>
    if Text.isAsciiDigit c then (joinDigits? rest).map (c :: ·) else none
  | c :: rest => if Text.isAsciiDigit c then (joinDigits? rest).map (c :: ·) else none

/-- A number written without its sign: digits, and a point with zeros after it or nothing. -/
def unsignedWhole? (cs : List Char) : Option Nat := do
  let digits ← joinDigits? (cs.takeWhile (· != '.'))
  let zeros := (cs.dropWhile (· != '.')).drop 1
  if zeros.all (· == '0') then some (Text.digitsValue digits) else none

/-- Whether digits start with a zero that says nothing. -/
def hasLeadingZero : List Char → Bool
  | '0' :: c :: _ => c != '.'
  | _ => false

/-- The whole number that a text stands for. After a minus sign no zeros may lead. -/
def wholeOfText? (s : String) : Option Int :=
  let isWhite := Text.isWhiteSpace
  match ((s.toList.dropWhile isWhite).reverse.dropWhile isWhite).reverse with
  | '-' :: cs => if hasLeadingZero cs then none else (unsignedWhole? cs).map fun n => -(n : Int)
  | '+' :: cs => (unsignedWhole? cs).map fun n => (n : Int)
  | cs => (unsignedWhole? cs).map fun n => (n : Int)

/-- The bound below which a whole binary floating point number is read as a whole number. -/
def wholeBound : Int := 9223372036854775808

/-- Reads a binary floating point number as a whole number. -/
def wholeOfFloat (x : Binary64) : Checked Int :=
  if !x.isFinite then .refuse .finiteNumber
  else
    match x.toInt? with
    | none => .refuse .intFromFloat
    | some i => if -wholeBound < i ∧ i < wholeBound then .ok i else .refuse .intParsingSize

/-- Reads a whole number. -/
def whole : Reader Int
  | .int i => .ok i
  | .bool b => .ok (if b then 1 else 0)
  | .float x => wholeOfFloat x
  | .text (.whole s) =>
    match wholeOfText? s with
    | some i => if Text.isLong i.natAbs then .refuse .intParsingSize else .ok i
    | none => .refuse .intParsing
  | .text (.broken _) => .refuse .stringUnicode
  | _ => .refuse .intType

/-- Reads a whole number above zero. -/
def positiveWhole : Reader Int := fun raw => do
  let i ← whole raw
  if 0 < i then return i else .refuse .greaterThan

/-- The flag that a whole number stands for. -/
def flagOfWhole (i : Int) : Checked Bool :=
  if i = 0 then .ok false else if i = 1 then .ok true else .refuse .boolParsing

/-- The words for no. -/
def noWords : List String := ["0", "off", "f", "false", "n", "no"]

/-- The words for yes. -/
def yesWords : List String := ["1", "on", "t", "true", "y", "yes"]

/-- The flag that a word stands for, in letters of either case. -/
def flagOfWord (s : String) : Checked Bool :=
  let small := String.ofList (s.toList.map Char.toLower)
  if small ∈ noWords then .ok false
  else if small ∈ yesWords then .ok true
  else .refuse .boolParsing

/-- Reads a flag. -/
def flag : Reader Bool
  | .bool b => .ok b
  | .int i => flagOfWhole i
  | .text (.whole s) => flagOfWord s
  | .text (.broken _) => .refuse .stringUnicode
  | .float x =>
    match wholeOfFloat x with
    | .ok i => flagOfWhole i
    | .error _ => .refuse .boolType
  | _ => .refuse .boolType

/-- Reads a finite decimal above zero. -/
def amount : Reader Amount := fun raw =>
  let numeral : Checked Numeral := match raw with
    | .int i => .ok (Decimal.ofInt i)
    | .float x => .ok x.toNumeral
    | .text s =>
      match s.whole?.bind Numeral.ofText? with
      | some n => .ok n
      | none => .refuse .decimalParsing
    | _ => .refuse .decimalType
  match numeral with
  | .error d => .error d
  | .ok (.finite d) =>
    match Amount.ofDecimal? d with
    | some a => .ok a
    | none => .refuse .greaterThan
  | .ok _ => .refuse .finiteNumber

/-- Reads a unit of length. -/
def lengthUnit : Reader LengthUnit := fun raw =>
  (LengthUnit.ofRaw raw).mapError fun _ => [⟨.valueError, []⟩]

/-- Reads a unit of weight. -/
def weightUnit : Reader WeightUnit := fun raw =>
  (WeightUnit.ofRaw raw).mapError fun _ => [⟨.valueError, []⟩]

end Stowage.Form
