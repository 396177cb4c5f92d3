import Stowage.Measure.Dimensions
import Stowage.Measure.Weight

/-!
# Attributes

An attribute of an item or a carton may be known, missing, or stand for something that is no such
attribute at all. Whoever needs the attribute fails on the last two alike; only where an item is
listed does a missing attribute show as missing.
-/

namespace Stowage

/-- An attribute that may be missing. -/
inductive Attribute (α : Type) where
  | known (value : α)
  | missing
  /-- A value of another kind in the place of the attribute. -/
  | unusable
  deriving DecidableEq

namespace Attribute

/-- The attribute, for one who needs it. -/
def get {α : Type} : Attribute α → Fallible α
  | .known a => .ok a
  | _ => .error .absentValue

/-- An attribute from a raw value: an object describes one, and any other value is none. -/
def ofRaw {α : Type} (read : Json → Fallible α) (raw : Json) : Fallible (Attribute α) :=
  match raw with
  | .object _ => (read raw).map .known
  | raw => .ok (if raw.truthy then .unusable else .missing)

/-- The attribute in a listing, null when it is missing. -/
def toJson {α : Type} (shown : α → Json) : Attribute α → Fallible Json
  | .known a => .ok (shown a)
  | .missing => .ok .null
  | .unusable => .error .absentValue

end Attribute

/-- Dimensions from an object. A side that is absent is null, and without a unit it is inches. -/
def Dimensions.ofObject (raw : Json) : Fallible Dimensions :=
  Dimensions.ofRaw (raw.field "length") (raw.field "width") (raw.field "height")
    ((raw.field? "unit").getD (.text LengthUnit.inches.name))

/-- A weight from an object. A value that is absent is null, and without a unit it is pounds. -/
def Weight.ofObject (raw : Json) : Fallible Weight :=
  Weight.ofRaw (raw.field "value") ((raw.field? "unit").getD (.text WeightUnit.pounds.name))

end Stowage
