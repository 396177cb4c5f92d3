import Stowage.Text.Utf8

/-!
# Encodings of documents

The octets of a document say by themselves how they are to be read. Either a mark stands in front of
them, or it can be told from the octets that are zero, since a document starts with two characters
of ASCII. Halves of surrogate pairs that stand alone are read as such in every encoding.
-/

namespace Stowage.Text

/-- How code points are written in octets. -/
inductive Encoding where
  | utf8
  | utf16 (bigFirst : Bool)
  | utf32 (bigFirst : Bool)
  deriving DecidableEq

namespace Encoding

/-- The marks in front of a document; of those that fit the first counts. -/
def marks : List (List Nat × Encoding) :=
  [([0x00, 0x00, 0xFE, 0xFF], .utf32 true), ([0xFF, 0xFE, 0x00, 0x00], .utf32 false),
   ([0xFE, 0xFF], .utf16 true), ([0xFF, 0xFE], .utf16 false), ([0xEF, 0xBB, 0xBF], .utf8)]

/-- The encoding of a document without a mark. -/
def guess (octets : List UInt8) : Encoding :=
  match (octets.take 4).map (·.toNat == 0) with
  | [true, second, _, _] => if second then .utf32 true else .utf16 true
  | [false, true, third, fourth] => if third && fourth then .utf32 false else .utf16 false
  | [true, _] => .utf16 true
  | [false, true] => .utf16 false
  | _ => .utf8

/-- The encoding of a document, and its octets without the mark. -/
def detect (octets : List UInt8) : Encoding × List UInt8 :=
  match marks.find? fun mark => mark.1.isPrefixOf (octets.map UInt8.toNat) with
  | some (mark, encoding) => (encoding, octets.drop mark.length)
  | none => (guess octets, octets)

/-- The number that some octets make up. -/
def number (bigFirst : Bool) (octets : List UInt8) : Nat :=
  (if bigFirst then octets else octets.reverse).foldl (fun n b => 256 * n + b.toNat) 0

/-- The numbers that groups of so many octets make up, unless octets are left over. -/
def numbers? (size : Nat) (bigFirst : Bool) : (fuel : Nat) → List UInt8 → Option (List Nat)
  | _, [] => some []
  | 0, _ :: _ => none
  | fuel + 1, octets =>
    if octets.length < size then none
    else
      (numbers? size bigFirst fuel (octets.drop size)).map (number bigFirst (octets.take size) :: ·)

/-- The character of two halves of a surrogate pair, if they are a first and a second one. -/
def pair? (high low : Nat) : Option Char :=
  if 0xD800 ≤ high ∧ high < 0xDC00 ∧ 0xDC00 ≤ low ∧ low < 0xE000 then
    some (Char.ofNat (0x10000 + (high - 0xD800) * 0x400 + (low - 0xDC00)))
  else none

/-- The code points of numbers of 16 bits. -/
def joinPairs : List Nat → List CodePoint
  | [] => []
  | [n] => [.ofNat n]
  | high :: low :: rest =>
    match pair? high low with
    | some c => .char c :: joinPairs rest
    | none => .ofNat high :: joinPairs (low :: rest)

/-- The code points of octets, if there are such. -/
def points? : Encoding → List UInt8 → Option (List CodePoint)
  | .utf8, octets => Utf8.points? octets
  | .utf16 bigFirst, octets => (numbers? 2 bigFirst octets.length octets).map joinPairs
  | .utf32 bigFirst, octets => do
    let codes ← numbers? 4 bigFirst octets.length octets
    if codes.all (· < 0x110000) then some (codes.map .ofNat) else none

end Encoding

/-- The code points of a document, if its octets stand for such. -/
def documentPoints? (octets : List UInt8) : Option (List CodePoint) :=
  let (encoding, rest) := Encoding.detect octets
  encoding.points? rest

end Stowage.Text
