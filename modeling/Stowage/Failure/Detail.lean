/-!
# Details of a refused form

A form is refused with a list of details, each of which names one problem and the place of the
value it concerns: member names and list indexes from the outside in.
-/

namespace Stowage

/-- One step on the way from a form to a value inside it. -/
inductive Place where
  /-- A member of an object. -/
  | member (name : String)
  /-- An item of a list. -/
  | index (i : Nat)
  deriving DecidableEq

/-- What is wrong with a value. -/
inductive Problem where
  | missing
  | stringType
  | stringUnicode
  | stringTooShort
  | stringTooLong
  | intType
  | intParsing
  | intParsingSize
  | intFromFloat
  | finiteNumber
  | greaterThan
  | boolType
  | boolParsing
  | decimalType
  | decimalParsing
  | valueError
  | listType
  | tooShort
  | modelType
  | modelAttributesType
  | jsonInvalid
  deriving DecidableEq

/-- The name under which a problem is reported. -/
def Problem.text : Problem → String
  | .missing => "missing"
  | .stringType => "string_type"
  | .stringUnicode => "string_unicode"
  | .stringTooShort => "string_too_short"
  | .stringTooLong => "string_too_long"
  | .intType => "int_type"
  | .intParsing => "int_parsing"
  | .intParsingSize => "int_parsing_size"
  | .intFromFloat => "int_from_float"
  | .finiteNumber => "finite_number"
  | .greaterThan => "greater_than"
  | .boolType => "bool_type"
  | .boolParsing => "bool_parsing"
  | .decimalType => "decimal_type"
  | .decimalParsing => "decimal_parsing"
  | .valueError => "value_error"
  | .listType => "list_type"
  | .tooShort => "too_short"
  | .modelType => "model_type"
  | .modelAttributesType => "model_attributes_type"
  | .jsonInvalid => "json_invalid"

/-- One problem and its place. -/
structure Detail where
  /-- What is wrong. -/
  problem : Problem
  /-- Where it is wrong, from the outside in. -/
  place : List Place
  deriving DecidableEq

/-- The detail as seen from outside a member or item. -/
def Detail.under (step : Place) (d : Detail) : Detail := { d with place := step :: d.place }

end Stowage
