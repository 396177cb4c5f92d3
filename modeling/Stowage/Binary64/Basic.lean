import Stowage.Decimal.Numeral

/-!
# Binary floating point

A binary64 number is held exactly, as a sign, a natural mantissa below `2 ^ 53` and a power of two.
Every such number has one mantissa only, and what is no number of the format cannot be written
(`Binary64.IsMagnitude`). `Binary64.ofRatio` rounds a quotient of naturals to the nearest such
number, a tie to the even mantissa, and `Binary64.ofNumeral` does so for a numeral.
-/

namespace Stowage

namespace Binary64

/-- The exponent of the smallest positive number. -/
def tiniest : Int := -1074

/-- The exponent of the largest numbers. -/
def topExponent : Int := 971

/-- Whether a mantissa and an exponent are those of a number of the format. -/
structure IsMagnitude (mantissa : Nat) (exp : Int) : Prop where
  /-- There are at most 53 binary digits. -/
  narrow : mantissa < 9007199254740992
  /-- There are no fewer, except at the least exponent. -/
  full : 4503599627370496 ≤ mantissa ∨ exp = tiniest
  tiniest_le : tiniest ≤ exp
  le_topExponent : exp ≤ topExponent

instance (mantissa : Nat) (exp : Int) : Decidable (IsMagnitude mantissa exp) :=
  decidable_of_iff
    (mantissa < 9007199254740992 ∧ (4503599627370496 ≤ mantissa ∨ exp = tiniest) ∧
      tiniest ≤ exp ∧ exp ≤ topExponent)
    ⟨fun ⟨h₁, h₂, h₃, h₄⟩ => ⟨h₁, h₂, h₃, h₄⟩, fun ⟨h₁, h₂, h₃, h₄⟩ => ⟨h₁, h₂, h₃, h₄⟩⟩

end Binary64

/-- A binary64 number. -/
inductive Binary64 where
  /-- The number `mantissa` times two to the power `exp`, negated when `negative`. -/
  | finite (negative : Bool) (mantissa : Nat) (exp : Int)
      (valid : Binary64.IsMagnitude mantissa exp)
  /-- An infinity. -/
  | infinite (negative : Bool)
  /-- Not a number. -/
  | nan
  deriving DecidableEq

namespace Binary64

-- a power of naturals is that of the core library, whatever else is imported
attribute [local instance (2000)] instPowNat

theorem isMagnitude_zero : IsMagnitude 0 tiniest := by decide

/-- Zero. -/
def zero (negative : Bool) : Binary64 := .finite negative 0 tiniest isMagnitude_zero

/-- The number with a mantissa and an exponent, an infinity when there is none. -/
def ofMagnitude (negative : Bool) (mantissa : Nat) (exp : Int) : Binary64 :=
  if h : IsMagnitude mantissa exp then .finite negative mantissa exp h else .infinite negative

/-- The quotient `n / d` divided by two to the power `exp`, rounded half to even. -/
def scaledMantissa (n d : Nat) (exp : Int) : Nat :=
  roundDiv .halfEven (n * 2 ^ (-exp).toNat) (d * 2 ^ exp.toNat)

/-- The power of two at which the quotient of two positive numbers has a mantissa of 53 bits, or
the least there is. -/
def exponentFor (n d : Nat) : Int :=
  let guess : Int := (n.log2 : Int) - d.log2 - 52
  let wide := n * 2 ^ (-guess).toNat
  let unit := d * 2 ^ guess.toNat
  max tiniest (if wide < unit * 4503599627370496 then guess - 1 else guess)

/-- The number nearest to the quotient of two naturals, the second positive. -/
def ofRatio (negative : Bool) (n d : Nat) : Binary64 :=
  if n = 0 then zero negative
  else
    let exp := exponentFor n d
    let m := scaledMantissa n d exp
    if m = 9007199254740992 then ofMagnitude negative 4503599627370496 (exp + 1)
    else ofMagnitude negative m exp

/-- The number nearest to a decimal. A leading digit far outside the range of binary64 decides at
once. -/
def ofDecimal (a : Decimal) : Binary64 :=
  if a.coeff = 0 then zero a.negative
  else if 310 < a.adjusted then .infinite a.negative
  else if a.adjusted < -330 then zero a.negative
  else ofRatio a.negative (a.coeff * 10 ^ a.exp.toNat) (10 ^ (-a.exp).toNat)

/-- The number nearest to a numeral. -/
def ofNumeral : Numeral → Binary64
  | .finite d => ofDecimal d
  | .infinite negative => .infinite negative
  | .nan _ _ _ => .nan

/-- The number nearest to an integer. -/
def ofInt (i : Int) : Binary64 := ofRatio (decide (i < 0)) i.natAbs 1

/-- Whether the value is zero, of either sign. -/
def isZero : Binary64 → Bool
  | .finite _ m _ _ => m == 0
  | _ => false

/-- Whether the number is neither an infinity nor a `nan`. -/
def isFinite : Binary64 → Bool
  | .finite _ _ _ _ => true
  | _ => false

/-- The value as a signed numerator over a power of two. -/
def ratio? : Binary64 → Option (Int × Nat)
  | .finite negative m exp _ =>
    let n : Int := m * 2 ^ exp.toNat
    some (if negative then -n else n, 2 ^ (-exp).toNat)
  | _ => none

/-- The integer that is the value, when the value is an integer. -/
def toInt? (x : Binary64) : Option Int :=
  match x.ratio? with
  | some (n, d) => if n % d = 0 then some (n / d) else none
  | none => none

/-- The integer next to the value in the direction of zero, when the value is finite. -/
def truncate? (x : Binary64) : Option Int :=
  x.ratio?.map fun (n, d) => n.tdiv d

/-- The exact sum of two numbers, rounded once. -/
def add (x y : Binary64) : Binary64 :=
  match x, y with
  | .infinite m, .infinite n => if m == n then .infinite m else .nan
  | .nan, _ | _, .nan => .nan
  | .infinite m, _ => .infinite m
  | _, .infinite n => .infinite n
  | .finite mx ax ex _, .finite my ay ey _ =>
    let least := min ex ey
    let a : Int := ax * 2 ^ (ex - least).toNat
    let b : Int := ay * 2 ^ (ey - least).toNat
    let s := (if mx then -a else a) + (if my then -b else b)
    if s = 0 then zero (mx && my)
    else ofRatio (decide (s < 0)) (s.natAbs * 2 ^ least.toNat) (2 ^ (-least).toNat)

/-- Whether two numbers have the same value; zeros of both signs do, and a `nan` has none. -/
def sameValue (x y : Binary64) : Bool :=
  match x, y with
  | .nan, _ | _, .nan => false
  | x, y => x == y || (x.isZero && y.isZero)

end Binary64

end Stowage
