import Stowage.Failure.Basic
import Stowage.Text.Upper

/-!
# Units

Inches and centimetres, pounds and kilograms: how they are named and read, and the factors between
them. The factor of one direction is a definition; that of the other is its reciprocal rounded to
four and six places. Units of different kinds do not convert, and their factor is one.
-/

namespace Stowage

/-- A unit of length. -/
inductive LengthUnit where
  | inches
  | centimeters
  deriving DecidableEq

/-- A unit of weight. -/
inductive WeightUnit where
  | pounds
  | kilograms
  deriving DecidableEq

/-- The keyword that a raw value stands for: its text without blanks around it, in upper case. -/
def unitKeyword? (raw : Json) : Option String := raw.display.strip.whole?.map Text.upper

namespace LengthUnit

/-- The name of a unit. -/
def name : LengthUnit → String
  | .inches => "INCHES"
  | .centimeters => "CENTIMETERS"

/-- The unit that a keyword names. -/
def ofKeyword? (key : String) : Option LengthUnit :=
  if key ∈ ["INCHES", "IN", "INCH"] then some .inches
  else if key ∈ ["CENTIMETERS", "CM", "CENTIMETER"] then some .centimeters
  else none

/-- The unit that a raw value names. -/
def ofRaw (raw : Json) : Fallible LengthUnit :=
  match (unitKeyword? raw).bind ofKeyword? with
  | some u => .ok u
  | none => .error (.unknownUnit .length raw)

/-- What a length in the first unit is multiplied by to be in the second. -/
def factor : LengthUnit → LengthUnit → Decimal
  | .inches, .centimeters => ⟨false, 254, -2⟩
  | .centimeters, .inches => ⟨false, 3937, -4⟩
  | _, _ => ⟨false, 1, 0⟩

end LengthUnit

namespace WeightUnit

/-- The name of a unit. -/
def name : WeightUnit → String
  | .pounds => "POUNDS"
  | .kilograms => "KILOGRAMS"

/-- The unit that a keyword names. -/
def ofKeyword? (key : String) : Option WeightUnit :=
  if key ∈ ["POUNDS", "LB", "LBS", "POUND"] then some .pounds
  else if key ∈ ["KILOGRAMS", "KG", "KILOGRAM"] then some .kilograms
  else none

/-- The unit that a raw value names. -/
def ofRaw (raw : Json) : Fallible WeightUnit :=
  match (unitKeyword? raw).bind ofKeyword? with
  | some u => .ok u
  | none => .error (.unknownUnit .weight raw)

/-- What a weight in the first unit is multiplied by to be in the second. -/
def factor : WeightUnit → WeightUnit → Decimal
  | .pounds, .kilograms => ⟨false, 453592, -6⟩
  | .kilograms, .pounds => ⟨false, 2204624, -6⟩
  | _, _ => ⟨false, 1, 0⟩

end WeightUnit

/-- A unit of either kind. -/
inductive MeasureUnit where
  | length (unit : LengthUnit)
  | weight (unit : WeightUnit)
  deriving DecidableEq

/-- The factor from one unit to another, one when their kinds differ. -/
def MeasureUnit.factor : MeasureUnit → MeasureUnit → Decimal
  | .length a, .length b => a.factor b
  | .weight a, .weight b => a.factor b
  | _, _ => ⟨false, 1, 0⟩

/-- The unit of either kind that a name stands for. -/
def MeasureUnit.ofName? (name : String) : Option MeasureUnit :=
  [.length .inches, .length .centimeters, .weight .pounds, .weight .kilograms].find? fun u =>
    (match u with
      | .length l => l.name
      | .weight w => w.name) == name

/-- A volume counted in cubes of the first unit, in cubes of the second. -/
def MeasureUnit.convertVolume (volume : Numeral) (source target : MeasureUnit) :
    Except Decimal.Signal Numeral := do
  volume.mul (← (source.factor target).cube)

/-- A volume counted in cubes of the first unit, in cubes of the second. -/
def LengthUnit.convertVolume (volume : Decimal) (source target : LengthUnit) :
    Except Decimal.Signal Decimal := do
  volume.mul (← (source.factor target).cube)

end Stowage
