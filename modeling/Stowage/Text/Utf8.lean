import Stowage.Text.Raw

/-!
# UTF-8

Characters as octets and back. Decoding takes one character at a time and says how many octets are
no part of any character when there is none; `decode?` refuses such octets and `decodeLossy` puts
the replacement character in their place. `points?` also takes halves of surrogate pairs, as if they
were characters of three octets.
-/

namespace Stowage.Text.Utf8

/-- The octets of a character. -/
def encodeChar (c : Char) : List UInt8 :=
  let n := c.toNat
  let tail (shift : Nat) : UInt8 := UInt8.ofNat (0x80 + (n >>> shift) % 64)
  if n < 0x80 then [UInt8.ofNat n]
  else if n < 0x800 then [UInt8.ofNat (0xC0 + n >>> 6), tail 0]
  else if n < 0x10000 then [UInt8.ofNat (0xE0 + n >>> 12), tail 6, tail 0]
  else [UInt8.ofNat (0xF0 + n >>> 18), tail 12, tail 6, tail 0]

/-- The octets of a text. -/
def encode (s : String) : List UInt8 := s.toList.flatMap encodeChar

/-- A lead octet: how many octets follow, the bits it gives, and the range of the next octet. -/
structure Lead where
  following : Nat
  bits : Nat
  low : Nat
  high : Nat

/-- What a lead octet of a character beyond ASCII says. -/
def lead? (n : Nat) : Option Lead :=
  if 0xC2 ≤ n ∧ n ≤ 0xDF then some ⟨1, n - 0xC0, 0x80, 0xBF⟩
  else if n = 0xE0 then some ⟨2, 0, 0xA0, 0xBF⟩
  else if n = 0xED then some ⟨2, 0xD, 0x80, 0x9F⟩
  else if 0xE1 ≤ n ∧ n ≤ 0xEF then some ⟨2, n - 0xE0, 0x80, 0xBF⟩
  else if n = 0xF0 then some ⟨3, 0, 0x90, 0xBF⟩
  else if 0xF1 ≤ n ∧ n ≤ 0xF3 then some ⟨3, n - 0xF0, 0x80, 0xBF⟩
  else if n = 0xF4 then some ⟨3, 4, 0x80, 0x8F⟩
  else none

/-- Reads the octets that follow a lead, the next of which has to lie between `low` and `high`.
Gives the code point, if they are all there, and how many of them were read. -/
def readTail : (following bits low high : Nat) → List UInt8 → Option Nat × Nat
  | 0, bits, _, _, _ => (some bits, 0)
  | _ + 1, _, _, _, [] => (none, 0)
  | k + 1, bits, low, high, b :: rest =>
    let n := b.toNat
    if low ≤ n ∧ n ≤ high then
      let (code, read) := readTail k (bits * 64 + (n - 0x80)) 0x80 0xBF rest
      (code, read + 1)
    else (none, 0)

/-- The first character of a sequence that starts with the octet `b`, if there is one, and how many
octets of `rest` belong to it or to its failure. -/
def first (b : UInt8) (rest : List UInt8) : Option Char × Nat :=
  let n := b.toNat
  if n < 0x80 then (some (Char.ofNat n), 0)
  else
    match lead? n with
    | none => (none, 0)
    | some lead =>
      let (code, read) := readTail lead.following lead.bits lead.low lead.high rest
      (code.map Char.ofNat, read)

/-- The characters of a sequence of octets, of which nothing stands for octets that are none. -/
def decodeOptions : (fuel : Nat) → List UInt8 → List (Option Char)
  | 0, _ => []
  | _ + 1, [] => []
  | fuel + 1, b :: rest =>
    let (c, read) := first b rest
    c :: decodeOptions fuel (rest.drop read)

/-- The text of a sequence of octets, if all of them belong to characters. -/
def decode? (octets : List UInt8) : Option String :=
  ((decodeOptions octets.length octets).mapM id).map String.ofList

/-- The text of a sequence of octets, with the replacement character for octets that belong to no
character. -/
def decodeLossy (octets : List UInt8) : String :=
  String.ofList ((decodeOptions octets.length octets).map fun c => c.getD (Char.ofNat 0xFFFD))

/-- The half of a surrogate pair that three octets stand for, the first of which is `b`. -/
def half? (b : UInt8) : List UInt8 → Option CodePoint
  | x :: y :: _ =>
    if b.toNat = 0xED ∧ 0xA0 ≤ x.toNat ∧ x.toNat ≤ 0xBF ∧ 0x80 ≤ y.toNat ∧ y.toNat ≤ 0xBF then
      some (CodePoint.halfAt ((x.toNat - 0xA0) * 64 + (y.toNat - 0x80)))
    else none
  | _ => none

/-- The code points of a sequence of octets, if all of them belong to one. -/
def pointsFrom? : (fuel : Nat) → List UInt8 → Option (List CodePoint)
  | _, [] => some []
  | 0, _ :: _ => none
  | fuel + 1, b :: rest =>
    match first b rest with
    | (some c, read) => (pointsFrom? fuel (rest.drop read)).map (.char c :: ·)
    | (none, _) => (half? b rest).bind fun c => (pointsFrom? fuel (rest.drop 2)).map (c :: ·)

/-- The code points of a sequence of octets, if all of them belong to one. -/
def points? (octets : List UInt8) : Option (List CodePoint) := pointsFrom? octets.length octets

end Stowage.Text.Utf8
