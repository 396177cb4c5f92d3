import Stowage.Decimal.Basic

/-!
# Rounding to the working precision

Every arithmetic result is the exact result rounded once, half to even, to 28 digits with the
leading digit's exponent at most 999999. Below exponent -999999 digits are lost one by one down to
the last place, -1000026; a result that is too large is an overflow.
-/

namespace Stowage

-- a power of naturals is that of the core library, whatever else is imported
attribute [local instance (2000)] instPowNat

/-- Which neighbour a value halfway between two takes. -/
inductive Rounding where
  /-- The neighbour with an even last digit. -/
  | halfEven
  /-- The neighbour away from zero. -/
  | halfUp
  deriving DecidableEq

/-- Whether the quotient `q` with remainder `r` of a division by `d` is rounded away from zero. -/
def Rounding.roundsUp (mode : Rounding) (q r d : Nat) : Bool :=
  d < 2 * r || (2 * r == d && (mode == .halfUp || q % 2 == 1))

/-- The quotient of two natural numbers, rounded to the nearest. -/
def roundDiv (mode : Rounding) (n d : Nat) : Nat :=
  if mode.roundsUp (n / d) (n % d) d then n / d + 1 else n / d

/-- A coefficient without its last `k` digits, rounded to the nearest. When more digits go than
there are, what is left is below a tenth and rounds to zero. -/
def dropDigits (mode : Rounding) (n k : Nat) : Nat :=
  if digitCount n < k then 0 else roundDiv mode n (10 ^ k)

namespace Decimal

/-- Why an operation has no decimal result. -/
inductive Signal where
  /-- The operation has no meaning for its operands, or its result needs too many digits. -/
  | invalidOperation
  /-- A number that is not zero was divided by zero. -/
  | divisionByZero
  /-- The result is too large for the exponent range. -/
  | overflow
  deriving DecidableEq

/-- The digits a result may have. -/
def precision : Nat := 28

/-- The largest exponent of a leading digit. -/
def maxExponent : Int := 999999

/-- The exponent of the last place that any result may have. -/
def tiniest : Int := -1000026

/-- The largest exponent of a result with all its 28 digits. -/
def topExponent : Int := 999972

/-- The exact value `coeff` times ten to the power `exp`, rounded half to even to the working
precision and exponent range. A value that fits keeps its exponent. -/
def round (negative : Bool) (coeff : Nat) (exp : Int) : Except Signal Decimal :=
  if coeff = 0 then .ok ⟨negative, 0, max tiniest (min exp maxExponent)⟩
  else
    let least := (digitCount coeff : Int) + exp - precision
    if topExponent < least then .error .overflow
    else
      let place := max least tiniest
      if place ≤ exp then .ok ⟨negative, coeff, exp⟩
      else
        let kept := dropDigits .halfEven coeff (place - exp).toNat
        if kept < 10000000000000000000000000000 then .ok ⟨negative, kept, place⟩
        else if topExponent < place + 1 then .error .overflow
        else .ok ⟨negative, kept / 10, place + 1⟩

end Decimal

end Stowage
