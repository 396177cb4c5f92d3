import Stowage.Failure.Basic

/-!
# Positive amounts

Sides and weights are finite positive decimals. `Json.numeral?` says which numeral a raw value
denotes, and `Amount.ofRaw` takes the positive ones.
-/

namespace Stowage

/-! ## Spelled decimals -/

/-- The part of a spelled decimal that has to be an integer or a truth value of machine size. -/
def Json.machineInt (message : String) : Json → Fallible Int
  | .bool b => .ok (if b then 1 else 0)
  | .int i =>
    if -9223372036854775808 ≤ i ∧ i ≤ 9223372036854775807 then .ok i else .error .outOfRange
  | _ => .error (.misspelled message)

/-- The sign of a spelled decimal. -/
def Json.spelledSign (raw : Json) : Fallible String := do
  let message := "sign must be an integer with the value 0 or 1"
  let sign ← raw.machineInt message
  if sign = 0 then return ""
  else if sign = 1 then return "-"
  else throw (.misspelled message)

/-- The digits of a spelled decimal. -/
def Json.spelledDigits (raw : Json) : Fallible (List Char) :=
  let message := "coefficient must be a tuple of digits"
  match raw with
  | .array digits => digits.mapM fun raw => do
    let digit ← raw.machineInt message
    if 0 ≤ digit ∧ digit ≤ 9 then return Text.digitChar digit.toNat else throw (.misspelled message)
  | _ => .error (.misspelled message)

/-- What a spelled decimal is, by its last part: a number with an exponent, an infinity, or one of
the two kinds of `nan`. -/
inductive Json.Spelled where
  | scaled (exponent : Int)
  | infinite
  | nan (signaling : Bool)

/-- The last part of a spelled decimal. -/
def Json.spelledKind : Json → Fallible Json.Spelled
  | .text (.whole "F") => .ok .infinite
  | .text (.whole "n") => .ok (.nan false)
  | .text (.whole "N") => .ok (.nan true)
  | .text _ => .error (.misspelled "string argument in the third position must be 'F', 'n' or 'N'")
  | raw => (raw.machineInt "exponent must be an integer").map .scaled

/-- The text of the decimal that an array spells: a sign, an exponent or the kind of what is no
number, and digits, of which an infinity has none. -/
def Json.spelledText : List Json → Fallible String
  | [sign, digits, kind] => do
    let sign ← sign.spelledSign
    let kind ← kind.spelledKind
    let digits ← digits.spelledDigits
    match kind with
    | .scaled exponent =>
      return sign ++ String.ofList (if digits.isEmpty then ['0'] else digits) ++ "E" ++
        toString exponent
    | .infinite => return sign ++ "Inf"
    | .nan signaling => return sign ++ (if signaling then "sNaN" else "NaN") ++ String.ofList digits
  | _ => .error (.misspelled "argument must be a sequence of length 3")

/-! ## Numerals -/

/-- The numeral that a text denotes. -/
def Json.numeralOfText (s : RawText) : Fallible (Option Numeral) :=
  match s.whole?.bind Numeral.ofText? with
  | some n => .ok (some n)
  | none => .error (.arithmetic .invalidOperation)

/-- The numeral that a raw value denotes. Null denotes none; a truth value is one or zero; binary
floating point denotes the decimal it is written as; and an array may spell one. -/
def Json.numeral? : Json → Fallible (Option Numeral)
  | .null => .ok none
  | .bool b => .ok (some (Decimal.ofNat (if b then 1 else 0)))
  | .int i => .ok (some (Decimal.ofInt i))
  | .float x => .ok (some x.toNumeral)
  | .text s => numeralOfText s
  | .array parts => do
    let s ← spelledText parts
    numeralOfText s
  | .object _ => .error .wrongKind

/-- A finite positive decimal. -/
structure Amount where
  /-- The decimal. -/
  value : Decimal
  /-- It is above zero. -/
  positive : value.isPositive = true
  deriving DecidableEq

namespace Amount

/-- A decimal as an amount, when it is positive. -/
def ofDecimal? (d : Decimal) : Option Amount :=
  if h : d.isPositive = true then some ⟨d, h⟩ else none

/-- A decimal as the amount that is being measured. -/
def ofDecimal (what : Measured) (d : Decimal) : Fallible Amount :=
  match ofDecimal? d with
  | some a => .ok a
  | none => .refuse (.notPositive what)

/-- A numeral as the amount that is being measured. -/
def ofNumeral (what : Measured) : Numeral → Fallible Amount
  | .finite d => ofDecimal what d
  | _ => .refuse (.notPositive what)

/-- A raw value as the amount that is being measured. -/
def ofRaw (what : Measured) (raw : Json) : Fallible Amount := do
  match ← raw.numeral? with
  | some n => ofNumeral what n
  | none => .refuse (.notPositive what)

/-- The amount as a binary floating point number. -/
def toBinary (a : Amount) : Binary64 := Binary64.ofDecimal a.value

end Amount

end Stowage
