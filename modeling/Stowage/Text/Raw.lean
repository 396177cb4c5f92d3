import Stowage.Text.Blank

/-!
# Raw texts

A text from outside is a run of code points. Nearly always these are characters, but half of a
surrogate pair may stand among them on its own: a document can name it in an escape, and there are
no octets for it when the text has to be written again. `RawText` keeps the texts of characters
apart from those with such halves in them.
-/

namespace Stowage

/-- A code point of a text. -/
inductive CodePoint where
  | char (c : Char)
  /-- Half of a surrogate pair, by its distance from the first of them. -/
  | half (n : Fin 2048)
  deriving DecidableEq

namespace CodePoint

/-- The number of the first half of a surrogate pair. -/
def firstHalf : Nat := 0xD800

/-- The half of a surrogate pair at a distance from the first of them. -/
def halfAt (n : Nat) : CodePoint := .half (Fin.ofNat 2048 n)

/-- The code point with a number. -/
def ofNat (n : Nat) : CodePoint :=
  if firstHalf ≤ n ∧ n < firstHalf + 2048 then halfAt (n - firstHalf) else .char (Char.ofNat n)

/-- The number of a code point. -/
def toNat : CodePoint → Nat
  | .char c => c.toNat
  | .half n => firstHalf + n

/-- The character, when the code point is one. -/
def char? : CodePoint → Option Char
  | .char c => some c
  | .half _ => none

/-- Whether the code point is half of a surrogate pair. -/
def isHalf : CodePoint → Bool
  | .char _ => false
  | .half _ => true

/-- Whether the code point is a blank. -/
def isBlank : CodePoint → Bool
  | .char c => Text.isBlank c
  | .half _ => false

end CodePoint

/-- The code points of a text of characters. -/
def Text.points (s : String) : List CodePoint := s.toList.map .char

/-- A text with half of a surrogate pair in it. -/
structure BrokenText where
  points : List CodePoint
  /-- Not all of them are characters. -/
  broken : points.any CodePoint.isHalf = true
  deriving DecidableEq

/-- A text from outside. -/
inductive RawText where
  /-- A text of characters. -/
  | whole (s : String)
  | broken (t : BrokenText)
  deriving DecidableEq

instance : Coe String RawText := ⟨.whole⟩

namespace RawText

/-- The code points of a text. -/
def points : RawText → List CodePoint
  | .whole s => Text.points s
  | .broken t => t.points

/-- The text of some code points. -/
def ofPoints (cs : List CodePoint) : RawText :=
  if h : cs.any CodePoint.isHalf = true then .broken ⟨cs, h⟩
  else .whole (String.ofList (cs.filterMap CodePoint.char?))

/-- The text, when it is one of characters. -/
def whole? : RawText → Option String
  | .whole s => some s
  | .broken _ => none

/-- Whether all of a text can be written as octets. -/
def isWhole : RawText → Bool
  | .whole _ => true
  | .broken _ => false

/-- Whether there is nothing in a text. -/
def isEmpty : RawText → Bool
  | .whole s => s.isEmpty
  | .broken _ => false

/-- Whether a text has nothing but blanks in it. -/
def isBlank : RawText → Bool
  | .whole s => Text.isBlankText s
  | .broken _ => false

/-- A text without the blanks at its two ends. -/
def strip : RawText → RawText
  | .whole s => .whole (Text.strip s)
  | .broken t =>
    ofPoints ((t.points.dropWhile CodePoint.isBlank).reverse.dropWhile CodePoint.isBlank).reverse

/-- One text after another. -/
protected def append : RawText → RawText → RawText
  | .whole s, .whole t => .whole (s ++ t)
  | s, t => ofPoints (s.points ++ t.points)

instance : Append RawText := ⟨RawText.append⟩

end RawText

end Stowage
