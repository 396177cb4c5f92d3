import Stowage.Decimal.Arithmetic

/-!
# Numerals

A numeral is what a written number denotes: a finite decimal, an infinity, or one of the two kinds
of "not a number", which carry digits of their own. Arithmetic on numerals extends that on finite
decimals. A quiet `nan` operand is handed on, a signaling one is an invalid operation, and so is
ordering against either.
-/

namespace Stowage

/-- The denotation of a written number. -/
inductive Numeral where
  /-- A finite decimal number. -/
  | finite (value : Decimal)
  /-- An infinity. -/
  | infinite (negative : Bool)
  /-- Not a number; `payload` holds its diagnostic digits, zero when there are none. -/
  | nan (negative signaling : Bool) (payload : Nat)
  deriving DecidableEq

namespace Numeral

open Decimal (Signal)

instance : Coe Decimal Numeral := ⟨.finite⟩

/-- Whether the sign is a minus. -/
def isNegative : Numeral → Bool
  | .finite d => d.negative
  | .infinite negative => negative
  | .nan negative _ _ => negative

/-- Whether the value is zero, of either sign. -/
def isZero : Numeral → Bool
  | .finite d => d.isZero
  | _ => false

/-- What an operation with a `nan` operand gives: the first one, with as many of its digits as the
working precision holds. A signaling operand is invalid. Nothing when neither operand is one. -/
def nanResult? (a b : Numeral) : Option (Except Signal Numeral) :=
  let kept (negative : Bool) (payload : Nat) : Numeral :=
    .nan negative false (payload % 10000000000000000000000000000)
  match a, b with
  | .nan _ true _, _ => some (.error .invalidOperation)
  | _, .nan _ true _ => some (.error .invalidOperation)
  | .nan n false p, _ => some (.ok (kept n p))
  | _, .nan n false p => some (.ok (kept n p))
  | _, _ => none

/-- The product. -/
def mul (a b : Numeral) : Except Signal Numeral :=
  match nanResult? a b with
  | some r => r
  | none =>
    match a, b with
    | .finite x, .finite y => (x.mul y).map .finite
    | a, b =>
      if a.isZero || b.isZero then .error .invalidOperation
      else .ok (.infinite (a.isNegative != b.isNegative))

/-- The quotient. A finite number over an infinity is a zero in the last place there is. -/
def div (a b : Numeral) : Except Signal Numeral :=
  match nanResult? a b with
  | some r => r
  | none =>
    let negative := a.isNegative != b.isNegative
    match a, b with
    | .finite x, .finite y => (x.div y).map .finite
    | .finite _, _ => .ok (.finite ⟨negative, 0, Decimal.tiniest⟩)
    | _, .finite _ => .ok (.infinite negative)
    | _, _ => .error .invalidOperation

/-- The numeral with the exponent `exp`, a half rounded away from zero. -/
def quantize (a : Numeral) (exp : Int) : Except Signal Numeral :=
  match a with
  | .finite x => (x.quantize exp).map .finite
  | .infinite _ => .error .invalidOperation
  | .nan _ true _ => .error .invalidOperation
  | .nan n false p => .ok (.nan n false (p % 10000000000000000000000000000))

/-- How two numerals that are numbers compare. -/
def order : Numeral → Numeral → Ordering
  | .finite x, .finite y => x.compareValue y
  | .infinite m, .infinite n => if m == n then .eq else if m then .lt else .gt
  | .infinite m, _ => if m then .lt else .gt
  | _, .infinite n => if n then .gt else .lt
  | _, _ => .eq

/-- Whether the numeral is a `nan` of either kind. -/
def isNan : Numeral → Bool
  | .nan _ _ _ => true
  | _ => false

/-- Whether the first is above the second; there is no order with a `nan`. -/
def exceeds (a b : Numeral) : Except Signal Bool :=
  if a.isNan || b.isNan then .error .invalidOperation
  else .ok (a.order b == .gt)

/-- Whether two numerals have the same value. A quiet `nan` has none, and a signaling one may not
be asked. -/
def sameValue (a b : Numeral) : Except Signal Bool :=
  match a, b with
  | .nan _ true _, _ => .error .invalidOperation
  | _, .nan _ true _ => .error .invalidOperation
  | a, b => .ok (!a.isNan && !b.isNan && a.order b == .eq)

end Numeral

end Stowage
