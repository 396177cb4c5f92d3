import Stowage.Failure.Basic

/-!
# Quantities

A quantity is an integer, but nothing checks it before a request is validated. Arithmetic on raw
quantities takes truth values for one and zero and fails on what is no number.
-/

namespace Stowage.Quantity

/-- The sum of two raw quantities. -/
def plus : Json → Json → Fallible Json
  | .float x, .float y => .ok (.float (x.add y))
  | .float x, y =>
    match y.wholeValue? with
    | some j => .ok (.float (x.add (Binary64.ofInt j)))
    | none => .error .wrongKind
  | x, .float y =>
    match x.wholeValue? with
    | some i => .ok (.float ((Binary64.ofInt i).add y))
    | none => .error .wrongKind
  | x, y =>
    match x.wholeValue?, y.wholeValue? with
    | some i, some j => .ok (.int (i + j))
    | _, _ => .error .wrongKind

/-- The sum of raw quantities, from zero and from left to right. -/
def total (quantities : List Json) : Fallible Json :=
  quantities.foldlM plus (.int 0)

/-- The factor by which a quantity multiplies a measure; only integers and truth values are
factors. -/
def factor : Json → Fallible Int
  | .bool b => .ok (if b then 1 else 0)
  | .int i => .ok i
  | _ => .error .wrongKind

/-- Whether a quantity is equal to one. -/
def isOne (quantity : Json) : Bool := quantity.wholeValue? == some 1

/-- The largest number of units a line can be split into. -/
def maxUnits : Int := 9223372036854775807

/-- The least number of units a line can be asked to be split into; there are none for one below
zero. -/
def minUnits : Int := -9223372036854775808

/-- How many single units a quantity stands for. -/
def unitCount (quantity : Json) : Fallible Nat := do
  let n ← factor quantity
  if maxUnits < n ∨ n < minUnits then .error .outOfRange else return n.toNat

/-- Whether a quantity is a positive integer, the only kind that may be ordered. -/
def isOrderable : Json → Bool
  | .int i => 0 < i
  | _ => false

end Stowage.Quantity
