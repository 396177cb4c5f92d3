/-!
# Decimal numbers

A decimal number is a sign, a coefficient and a power of ten. The exponent is part of the number:
`1.50` and `1.5` are equal in value but are written with different digits, and every operation of
`Stowage.Decimal` says which exponent its result has. Comparison looks at the value alone.
-/

namespace Stowage

/-- The count of decimal digits of a number; zero has one. Numbers of five digits and more are cut
by four digits at a time, large ones by sixteen. -/
def digitCount (n : Nat) : Nat :=
  if n < 10 then 1
  else if n < 100 then 2
  else if n < 1000 then 3
  else if n < 10000 then 4
  else if n < 10000000000000000 then digitCount (n / 10000) + 4
  else digitCount (n / 10000000000000000) + 16
termination_by n
decreasing_by all_goals omega

/-- A finite decimal number, `coeff` times ten to the power `exp`, negated when `negative`. -/
structure Decimal where
  /-- Whether the sign is a minus; zero has a sign too. -/
  negative : Bool
  /-- The digits as a natural number. -/
  coeff : Nat
  /-- The power of ten of the last digit. -/
  exp : Int
  deriving DecidableEq

namespace Decimal

-- a power of naturals is that of the core library, whatever else is imported
attribute [local instance (2000)] instPowNat

/-- The number zero without fraction digits. -/
def zero : Decimal := ⟨false, 0, 0⟩

instance : Inhabited Decimal := ⟨zero⟩

/-- A natural number without fraction digits. -/
def ofNat (n : Nat) : Decimal := ⟨false, n, 0⟩

/-- An integer without fraction digits. -/
def ofInt (i : Int) : Decimal := ⟨decide (i < 0), i.natAbs, 0⟩

/-- The number with the other sign. -/
def negate (a : Decimal) : Decimal := { a with negative := !a.negative }

/-- Whether the value is zero, of either sign. -/
def isZero (a : Decimal) : Bool := a.coeff == 0

/-- Whether the value is above zero. -/
def isPositive (a : Decimal) : Bool := !a.negative && a.coeff != 0

/-- The exponent of the leading digit. -/
def adjusted (a : Decimal) : Int := a.exp + digitCount a.coeff - 1

/-- How two magnitudes that are not zero compare. With equal exponents the coefficients decide, and
leading digits of different weight decide at once, so no power of ten beyond the digits at hand is
computed. -/
def compareMagnitude (a b : Decimal) : Ordering :=
  if a.exp = b.exp then compare a.coeff b.coeff
  else if a.adjusted < b.adjusted then .lt
  else if b.adjusted < a.adjusted then .gt
  else
    let least := min a.exp b.exp
    compare (a.coeff * 10 ^ (a.exp - least).toNat) (b.coeff * 10 ^ (b.exp - least).toNat)

/-- How two numbers compare by value. -/
def compareValue (a b : Decimal) : Ordering :=
  if a.coeff == 0 then
    if b.coeff == 0 then .eq else if b.negative then .gt else .lt
  else if b.coeff == 0 then
    if a.negative then .lt else .gt
  else if a.negative != b.negative then
    if a.negative then .lt else .gt
  else if a.negative then compareMagnitude b a
  else compareMagnitude a b

/-- Whether one value is below another. -/
def lt (a b : Decimal) : Bool := a.compareValue b == .lt

/-- Whether one value is at most another. -/
def le (a b : Decimal) : Bool := a.compareValue b != .gt

/-- Whether two values are equal, whatever their exponents. -/
def sameValue (a b : Decimal) : Bool := a.compareValue b == .eq

/-- The largest of three numbers; of equal ones the first. -/
def largest (a b c : Decimal) : Decimal :=
  let ab := if a.lt b then b else a
  if ab.lt c then c else ab

/-- The smallest of three numbers; of equal ones the first. -/
def smallest (a b c : Decimal) : Decimal :=
  let ab := if b.lt a then b else a
  if c.lt ab then c else ab

end Decimal

end Stowage
