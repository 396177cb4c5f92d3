import Stowage.Binary64.Shortest
import Stowage.Decimal.Text

/-!
# Written binary numbers

The form in which binary64 numbers are written: their shortest digits, positional from `0.0001` up
to below ten to the power 16 and always with a point, scientific outside. The decimal of a number
is the one that this form denotes, so `0.1` is one tenth and not its binary neighbour.
-/

namespace Stowage.Binary64

-- a power of naturals is that of the core library, whatever else is imported
attribute [local instance (2000)] instPowNat

/-- Whether a number whose leading digit has this exponent is written with the point in place. -/
def isPositional (leading : Int) : Bool := -4 ≤ leading && leading < 16

/-- A decimal exponent with its sign and at least two digits. -/
def exponentText (e : Int) : String :=
  (if e < 0 then "e-" else "e+") ++ (if e.natAbs < 10 then "0" else "") ++ toString e.natAbs

/-- The written form of a positive number. -/
def positiveText (mantissa : Nat) (exp : Int) : String :=
  let (n, e) := shortest mantissa exp
  let digits := Text.natDigits n
  let leading := e + digits.length - 1
  if isPositional leading then
    let shown := Decimal.pointed digits (leading + 1)
    if 0 ≤ e then shown ++ ".0" else shown
  else Decimal.pointed digits 1 ++ exponentText leading

/-- The written form. -/
def text : Binary64 → String
  | .finite negative m exp _ =>
    (if negative then "-" else "") ++ if m = 0 then "0.0" else positiveText m exp
  | .infinite negative => if negative then "-inf" else "inf"
  | .nan => "nan"

/-- The decimal of a positive number. -/
def positiveDecimal (negative : Bool) (mantissa : Nat) (exp : Int) : Decimal :=
  let (n, e) := shortest mantissa exp
  let leading := e + digitCount n - 1
  if isPositional leading ∧ 0 ≤ e then ⟨negative, n * 10 ^ (e.toNat + 1), -1⟩
  else ⟨negative, n, e⟩

/-- The numeral that the written form denotes. -/
def toNumeral : Binary64 → Numeral
  | .finite negative m exp _ =>
    .finite (if m = 0 then ⟨negative, 0, -1⟩ else positiveDecimal negative m exp)
  | .infinite negative => .infinite negative
  | .nan => .nan false false 0

/-- The number rounded half to even to four places. -/
def fourPlaces : Binary64 → Numeral
  | .finite negative m exp _ =>
    let c := roundDiv .halfEven (10000 * m * 2 ^ exp.toNat) (2 ^ (-exp).toNat)
    .finite ⟨negative, c, -4⟩
  | .infinite negative => .infinite negative
  | .nan => .nan false false 0

end Stowage.Binary64
