import Stowage.Measure.Amount

/-!
# Packing policies

The rules under which items share packages: whether to look for the tightest fit, whether
categories may be mixed, whether fragile items are kept apart, and how full a package may be.
Whether the threshold makes sense is for the validation of a request to say.
-/

namespace Stowage

/-- The rules of a packing request. -/
structure Policy where
  /-- Look for the tightest fit among the open packages, instead of the first. -/
  tightest : Bool
  /-- Let items of different categories share a package. -/
  mixedCategories : Bool
  /-- Keep fragile items and others in different packages. -/
  separateFragile : Bool
  /-- The largest part of a carton's volume that may be used. -/
  threshold : Numeral
  deriving DecidableEq

namespace Policy

/-- The threshold of a policy that states none. -/
def usualThreshold : Numeral := .finite ⟨false, 95, -2⟩

/-- The policy that states nothing. -/
def usual : Policy := ⟨true, true, true, usualThreshold⟩

/-- A flag from a raw value: yes when it is null. -/
def flag (raw : Json) : Bool := raw.isNull || raw.truthy

/-- A policy from raw values, each of which may be null. -/
def ofRaw (tightest mixedCategories separateFragile threshold : Json) : Fallible Policy := do
  let threshold ← threshold.numeral?
  return ⟨flag tightest, flag mixedCategories, flag separateFragile,
    threshold.getD usualThreshold⟩

/-- A policy from an object. -/
def ofObject (raw : Json) : Fallible Policy :=
  ofRaw (raw.field "optimize_for_minimum_boxes") (raw.field "allow_mixed_categories")
    (raw.field "separate_fragile_items") (raw.field "max_utilization_threshold")

/-- Whether two policies say the same. The thresholds are compared last, by value. -/
def sameAs (p q : Policy) : Except Decimal.Signal Bool :=
  if p.tightest = q.tightest ∧ p.mixedCategories = q.mixedCategories ∧
      p.separateFragile = q.separateFragile then
    p.threshold.sameValue q.threshold
  else .ok false

end Policy

end Stowage
