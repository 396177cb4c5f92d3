import Stowage.Failure.Basic

/-!
# Whole numbers from values

What whole number a value stands for where a number is called for: a number without its fraction,
or a text of digits of any script with single underscores between them, if there are not too many.
-/

namespace Stowage

/-- Reads digits of any script with single underscores between them. -/
def wholeDigits? : List Char → Option (List Char)
  | [] => none
  | [c] => (Text.asciiDigit? c).map fun d => [d]
  | c :: '_' :: rest => do
    let d ← Text.asciiDigit? c
    let ds ← wholeDigits? rest
    return d :: ds
  | c :: rest => do
    let d ← Text.asciiDigit? c
    let ds ← wholeDigits? rest
    return d :: ds

/-- The whole number that a text stands for. -/
def wholeOfText? (s : String) : Option Int :=
  let read (cs : List Char) : Option Int :=
    ((wholeDigits? cs).filter fun ds => ds.length ≤ Text.maxDigits).map fun ds =>
      (Text.digitsValue ds : Int)
  match Text.stripChars s.toList with
  | '-' :: cs => (read cs).map (- ·)
  | '+' :: cs => read cs
  | cs => read cs

/-- The whole number that a value stands for; nothing when a text or a `nan` stands for none. Other
kinds of value fail. -/
def Json.toWhole : Json → Fallible (Option Int)
  | .bool b => .ok (some (if b then 1 else 0))
  | .int i => .ok (some i)
  | .float (.infinite _) => .error .outOfRange
  | .float x => .ok x.truncate?
  | .text s => .ok (s.whole?.bind wholeOfText?)
  | _ => .error .wrongKind

end Stowage
