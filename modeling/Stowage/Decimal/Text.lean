import Stowage.Decimal.Numeral
import Stowage.Text.Blank
import Stowage.Text.Digit

/-!
# Written decimals

How numerals are written and read. Writing keeps the exponent: the plain form shows a number whose
exponent is not above zero and whose leading digit is at most six places after the point, the
scientific form every other. Reading accepts a sign, digits of any script with at most one point,
an exponent, and the names of infinities and of `nan`; blanks around the number and underscores in
it are passed over.
-/

namespace Stowage

namespace Decimal

/-- An integer with its sign always shown. -/
def signedText (i : Int) : String :=
  (if i < 0 then "-" else "+") ++ toString i.natAbs

/-- The digits of a coefficient with the point after `whole` of them, and zeros where there is no
digit. -/
def pointed (digits : List Char) (whole : Int) : String :=
  if whole ≤ 0 then
    "0." ++ String.ofList (List.replicate (-whole).toNat '0' ++ digits)
  else if digits.length ≤ whole then
    String.ofList (digits ++ List.replicate (whole.toNat - digits.length) '0')
  else String.ofList (digits.take whole.toNat ++ '.' :: digits.drop whole.toNat)

/-- The written form. -/
def text (a : Decimal) : String :=
  let digits := Text.natDigits a.coeff
  let whole : Int := a.exp + digits.length
  let sign := if a.negative then "-" else ""
  if a.exp ≤ 0 ∧ -6 < whole then sign ++ pointed digits whole
  else
    let shown := sign ++ pointed digits 1
    if whole = 1 then shown else shown ++ "E" ++ signedText (whole - 1)

end Decimal

namespace Numeral

/-- The written form. -/
def text : Numeral → String
  | .finite d => d.text
  | .infinite negative => if negative then "-Infinity" else "Infinity"
  | .nan negative signaling payload =>
    (if negative then "-" else "") ++ (if signaling then "sNaN" else "NaN") ++
      (if payload = 0 then "" else toString payload)

/-- The largest exponent of a leading digit that a written number may have. -/
def maxReadable : Int := 999999999999999999

/-- The smallest exponent that a written number may have. -/
def minReadable : Int := -1999999999999999997

/-- A finite numeral within the range of exponents that can be read. -/
def inRange? (d : Decimal) : Option Numeral :=
  if d.adjusted ≤ maxReadable ∧ minReadable ≤ d.exp then some (.finite d) else none

/-- Reads an exponent part: nothing at all, or `e`, a sign or none, and digits. -/
def exponentOf? : List Char → Option Int
  | [] => some 0
  | e :: rest =>
    if e == 'e' || e == 'E' then
      let (negative, digits) := match rest with
        | '-' :: r => (true, r)
        | '+' :: r => (false, r)
        | r => (false, r)
      if digits.isEmpty || !digits.all Text.isAsciiDigit then none
      else
        let n : Int := Text.digitsValue digits
        some (if negative then -n else n)
    else none

/-- Reads digits with at most one point among them and an exponent part. -/
def finiteOf? (negative : Bool) (cs : List Char) : Option Numeral :=
  let whole := cs.takeWhile Text.isAsciiDigit
  let (places, rest) := match cs.dropWhile Text.isAsciiDigit with
    | '.' :: r => (r.takeWhile Text.isAsciiDigit, r.dropWhile Text.isAsciiDigit)
    | r => ([], r)
  if whole.isEmpty && places.isEmpty then none
  else do
    let exp ← exponentOf? rest
    inRange? ⟨negative, Text.digitsValue (whole ++ places), exp - places.length⟩

/-- Reads what follows the name of a `nan`: digits or nothing. -/
def nanOf? (negative signaling : Bool) (digits : List Char) : Option Numeral :=
  if digits.all Text.isAsciiDigit then some (.nan negative signaling (Text.digitsValue digits))
  else none

/-- Reads a numeral without its sign. -/
def unsignedOf? (negative : Bool) (cs : List Char) : Option Numeral :=
  let small := cs.map Char.toLower
  if small == "inf".toList || small == "infinity".toList then some (.infinite negative)
  else if "nan".toList.isPrefixOf small then nanOf? negative false (cs.drop 3)
  else if "snan".toList.isPrefixOf small then nanOf? negative true (cs.drop 4)
  else finiteOf? negative cs

/-- Reads a numeral in ASCII. -/
def signedOf? : List Char → Option Numeral
  | '-' :: cs => unsignedOf? true cs
  | '+' :: cs => unsignedOf? false cs
  | cs => unsignedOf? false cs

/-- An ASCII character as it is, and a digit of another script as the ASCII digit. -/
def plainChar? (c : Char) : Option Char :=
  if 0 < c.toNat ∧ c.toNat < 128 then some c else Text.asciiDigit? c

/-- Reads a numeral. -/
def ofText? (s : String) : Option Numeral := do
  let cs ← ((Text.stripChars s.toList).filter (· != '_')).mapM plainChar?
  signedOf? cs

end Numeral

end Stowage
