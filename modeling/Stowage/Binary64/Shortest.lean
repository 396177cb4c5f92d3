import Stowage.Binary64.Basic

/-!
# Shortest digits

The decimal with the fewest digits that reads back as a given binary64 number, and of those the
nearest to it. A number reads back exactly when it lies between the midpoints to its two
neighbours, the midpoints included when its mantissa is even. For each count of digits the two
decimals around the number are tried; if any decimal with that many digits reads back, one of
these two does.
-/

namespace Stowage.Binary64

-- a power of naturals is that of the core library, whatever else is imported
attribute [local instance (2000)] instPowNat

/-- A value and the two ends of the interval that reads back as it, over one denominator. -/
structure Span where
  /-- The value. -/
  value : Nat
  /-- The midpoint to the next number below. -/
  low : Nat
  /-- The midpoint to the next number above. -/
  high : Nat
  /-- The common denominator. -/
  unit : Nat
  /-- Whether the ends belong to the interval. -/
  closed : Bool

/-- The span of a positive number. The neighbour below a power of two is twice as near. -/
def span (mantissa : Nat) (exp : Int) : Span :=
  let up := 2 ^ exp.toNat
  let narrow := mantissa = 4503599627370496 ∧ tiniest < exp
  { value := 4 * mantissa * up
    low := (if narrow then 4 * mantissa - 1 else 4 * mantissa - 2) * up
    high := (4 * mantissa + 2) * up
    unit := 4 * 2 ^ (-exp).toNat
    closed := mantissa % 2 == 0 }

/-- Whether the decimal `n` times ten to the power `exp` lies in the span. -/
def Span.contains (s : Span) (n : Nat) (exp : Int) : Bool :=
  let x := n * 10 ^ exp.toNat * s.unit
  let scale := 10 ^ (-exp).toNat
  if s.closed then s.low * scale ≤ x && x ≤ s.high * scale
  else s.low * scale < x && x < s.high * scale

/-- The exponent of the leading decimal digit of a span's value. -/
def Span.leading (s : Span) : Int :=
  (digitCount (s.value * 10 ^ (350 : Nat) / s.unit) : Int) - 351

/-- The nearest decimal with the last digit at `exp` that lies in the span, if any does. -/
def Span.nearest? (s : Span) (exp : Int) : Option Nat :=
  let n := s.value * 10 ^ (-exp).toNat
  let d := s.unit * 10 ^ exp.toNat
  let below := n / d
  let first := roundDiv .halfEven n d
  let second := if first = below then below + 1 else below
  if s.contains first exp then some first
  else if s.contains second exp then some second
  else none

/-- Tries growing counts of digits, `left` of them, from the last digit at `exp` on. -/
def Span.search (s : Span) : (left : Nat) → (exp : Int) → Nat × Int
  | 0, exp => (roundDiv .halfEven (s.value * 10 ^ (-exp).toNat) (s.unit * 10 ^ exp.toNat), exp)
  | left + 1, exp =>
    match s.nearest? exp with
    | some n => (n, exp)
    | none => s.search left (exp - 1)

/-- The shortest digits of a positive number, with the exponent of the last one. -/
def shortest (mantissa : Nat) (exp : Int) : Nat × Int :=
  let s := span mantissa exp
  let (n, e) := s.search 17 s.leading
  Decimal.stripZeros (digitCount n) n e (e + digitCount n)

end Stowage.Binary64
