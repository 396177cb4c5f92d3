/-!
# Base 64

Octets as letters, digits and two marks, six bits to a character. Decoding skips every character
that is none of these and stops at padding that completes a group of four; it fails when the last
group is left without its padding.
-/

namespace Stowage.Base64

-- a power of naturals is that of the core library, whatever else is imported
attribute [local instance (2000)] instPowNat

/-- The character for six bits, with the marks for the last two values. -/
def charFor (mark62 mark63 : Char) (n : Nat) : Char :=
  if n < 26 then Char.ofNat (65 + n)
  else if n < 52 then Char.ofNat (71 + n)
  else if n < 62 then Char.ofNat (n - 4)
  else if n = 62 then mark62 else mark63

/-- Octets without padding, with the given marks. -/
def encodeWith (mark62 mark63 : Char) : List UInt8 → List Char
  | a :: b :: c :: rest =>
    let n := (a.toNat * 256 + b.toNat) * 256 + c.toNat
    let char (shift : Nat) : Char := charFor mark62 mark63 (n / 2 ^ shift % 64)
    char 18 :: char 12 :: char 6 :: char 0 :: encodeWith mark62 mark63 rest
  | [a, b] =>
    let n := (a.toNat * 256 + b.toNat) * 4
    let char (shift : Nat) : Char := charFor mark62 mark63 (n / 2 ^ shift % 64)
    [char 12, char 6, char 0]
  | [a] =>
    let n := a.toNat * 16
    let char (shift : Nat) : Char := charFor mark62 mark63 (n / 2 ^ shift % 64)
    [char 6, char 0]
  | [] => []

/-- Octets for use in addresses and tokens. -/
def encodeUrl (octets : List UInt8) : String := String.ofList (encodeWith '-' '_' octets)

/-- Octets for use in stored passwords. -/
def encodeStored (octets : List UInt8) : String := String.ofList (encodeWith '.' '/' octets)

/-- The six bits of a character. -/
def valueOf? (c : Char) : Option Nat :=
  let n := c.toNat
  if 65 ≤ n ∧ n ≤ 90 then some (n - 65)
  else if 97 ≤ n ∧ n ≤ 122 then some (n - 71)
  else if 48 ≤ n ∧ n ≤ 57 then some (n + 4)
  else if c == '+' then some 62
  else if c == '/' then some 63
  else none

/-- Decodes the characters after `place` characters of a group, of which the last has left some
bits over; `pads` counts the padding since then. -/
def decodeFrom : (place bits pads : Nat) → List Char → Option (List UInt8)
  | place, _, _, [] => if place = 0 then some [] else none
  | place, bits, pads, c :: rest =>
    if c == '=' then
      if 2 ≤ place ∧ 4 ≤ place + pads + 1 then some []
      else decodeFrom place bits (if 2 ≤ place then pads + 1 else pads) rest
    else
      match valueOf? c with
      | none => decodeFrom place bits pads rest
      | some v =>
        match place with
        | 0 => decodeFrom 1 v 0 rest
        | 1 => (decodeFrom 2 (v % 16) 0 rest).map (UInt8.ofNat (bits * 4 + v / 16) :: ·)
        | 2 => (decodeFrom 3 (v % 4) 0 rest).map (UInt8.ofNat (bits * 16 + v / 4) :: ·)
        | _ => (decodeFrom 0 0 0 rest).map (UInt8.ofNat (bits * 64 + v) :: ·)

/-- Decodes characters with the usual marks. -/
def decode? (cs : List Char) : Option (List UInt8) := decodeFrom 0 0 0 cs

/-- Decodes text from an address or token, whose padding is left out. -/
def decodeUrl? (cs : List Char) : Option (List UInt8) :=
  let usual := cs.map fun c => if c == '-' then '+' else if c == '_' then '/' else c
  decode? (usual ++ List.replicate ((4 - cs.length % 4) % 4) '=')

/-- Decodes text from a stored password, whose padding is left out. One character more than full
groups is no such text. -/
def decodeStored? (cs : List Char) : Option (List UInt8) :=
  let usual := cs.map fun c => if c == '.' then '+' else c
  if cs.length % 4 = 1 then none
  else decode? (usual ++ List.replicate ((4 - cs.length % 4) % 4) '=')

end Stowage.Base64
