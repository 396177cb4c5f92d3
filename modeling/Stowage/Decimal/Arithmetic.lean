import Stowage.Decimal.Round

/-!
# Decimal arithmetic

Sum, difference, product, quotient, cube and rescaling. Each is the exact result rounded once by
`Decimal.round`; what differs is the exponent that an exact result is written with.
-/

namespace Stowage.Decimal

-- a power of naturals is that of the core library, whatever else is imported
attribute [local instance (2000)] instPowNat

/-- The coefficient of `a` written with an exponent that is not above its own. -/
def coeffAt (a : Decimal) (exp : Int) : Nat :=
  a.coeff * 10 ^ (a.exp - exp).toNat

/-- A stand-in for the smaller of two addends. When `b` lies wholly below every digit that can
decide the rounding of the sum with `a`, one unit of that place has the same effect. -/
def nudge (a b : Decimal) : Decimal :=
  let place := a.exp + min (-1) ((digitCount a.coeff : Int) - precision - 2)
  if b.adjusted < place then ⟨b.negative, 1, place⟩ else b

/-- The sum of two numbers that are not zero, the first with the larger exponent or the same. -/
def addAligned (a b : Decimal) : Except Signal Decimal :=
  let least := min a.exp b.exp
  let b := nudge a b
  let m := a.coeffAt b.exp
  if a.negative == b.negative then round a.negative (m + b.coeff) b.exp
  else if m = b.coeff then round false 0 least
  else if b.coeff < m then round a.negative (m - b.coeff) b.exp
  else round b.negative (b.coeff - m) b.exp

/-- The sum. An exact sum has the smaller of the two exponents; next to a zero, the other addend
is written with as many places as the zero has, as far as they fit. -/
def add (a b : Decimal) : Except Signal Decimal :=
  let least := min a.exp b.exp
  if a.coeff = 0 then
    if b.coeff = 0 then round (a.negative && b.negative) 0 least
    else
      let exp := max least (b.exp - precision - 1)
      round b.negative (b.coeffAt exp) exp
  else if b.coeff = 0 then
    let exp := max least (a.exp - precision - 1)
    round a.negative (a.coeffAt exp) exp
  else if a.exp < b.exp then addAligned b a
  else addAligned a b

/-- The difference. -/
def sub (a b : Decimal) : Except Signal Decimal :=
  a.add b.negate

/-- The product. An exact product has the sum of the two exponents. -/
def mul (a b : Decimal) : Except Signal Decimal :=
  round (a.negative != b.negative) (a.coeff * b.coeff) (a.exp + b.exp)

/-- Trailing zeros of a coefficient, taken off while the exponent stays at most `ideal`. -/
def stripZeros : (fuel : Nat) → (coeff : Nat) → (exp ideal : Int) → Nat × Int
  | 0, coeff, exp, _ => (coeff, exp)
  | fuel + 1, coeff, exp, ideal =>
    if exp < ideal ∧ coeff % 10 = 0 then stripZeros fuel (coeff / 10) (exp + 1) ideal
    else (coeff, exp)

/-- The quotient. It is computed to more digits than are kept; a remainder that is cut off still
counts when it would otherwise leave a tie or an exact value. An exact quotient has the exponent
nearest to the difference of the two exponents. -/
def div (a b : Decimal) : Except Signal Decimal :=
  let negative := a.negative != b.negative
  if b.coeff = 0 then .error (if a.coeff = 0 then .invalidOperation else .divisionByZero)
  else if a.coeff = 0 then round negative 0 (a.exp - b.exp)
  else
    let shift : Int := (digitCount b.coeff : Int) - digitCount a.coeff + precision + 1
    let exp := a.exp - b.exp - shift
    let n := a.coeff * 10 ^ shift.toNat
    let d := b.coeff * 10 ^ (-shift).toNat
    let q := n / d
    if n % d = 0 then
      let (coeff, exp) := stripZeros (digitCount q) q exp (a.exp - b.exp)
      round negative coeff exp
    else round negative (if q % 5 = 0 then q + 1 else q) exp

/-- The third power, rounded once. -/
def cube (a : Decimal) : Except Signal Decimal :=
  round a.negative (a.coeff ^ (3 : Nat)) (3 * a.exp)

/-- The number with the exponent `exp`, a half rounded away from zero. A result of more than 28
digits is invalid. -/
def quantize (a : Decimal) (exp : Int) : Except Signal Decimal :=
  if exp < tiniest ∨ maxExponent < exp then .error .invalidOperation
  else if a.coeff = 0 then .ok ⟨a.negative, 0, exp⟩
  else if maxExponent < a.adjusted ∨ (precision : Int) < a.adjusted - exp + 1 then
    .error .invalidOperation
  else
    let coeff := if exp ≤ a.exp then a.coeffAt exp
      else dropDigits .halfUp a.coeff (exp - a.exp).toNat
    if precision < digitCount coeff then .error .invalidOperation
    else .ok ⟨a.negative, coeff, exp⟩

/-- The sum of a list, from zero and from left to right. -/
def sum (xs : List Decimal) : Except Signal Decimal :=
  xs.foldlM add zero

end Stowage.Decimal
