import Stowage.Json.Basic
import Stowage.Text.Encoding

/-!
# Reading JSON

A reader for JSON documents that also takes `NaN`, `Infinity` and `-Infinity`. A document that is
none is refused with the position at which reading stopped: where a value, a name, a colon or a
comma was expected, at the opening quote of a string without an end, or at a faulty escape. The
reader also gives up on an integer with too many digits, and where arrays and objects are nested
deeper than it may go.

The reader works on the code points still to come, and a position is first given by how many of
them were left.
-/

namespace Stowage.Json

/-- Why a document cannot be read. -/
inductive ReadError where
  /-- It is no JSON, with the index, from zero, of the code point at fault. -/
  | fault (position : Nat)
  /-- An integer in it has too many digits. -/
  | longNumber (digits : Nat)
  /-- Its arrays and objects are nested too deep. -/
  | tooDeep
  /-- Its octets stand for no text. -/
  | undecodable
  deriving DecidableEq

namespace Reader

/-- The outcome of a step: what was read, or why reading stopped. The position of a fault is given
by how many code points were left. -/
abbrev Outcome := Except ReadError

/-- A stop because of a fault before the code points that are left. -/
def stop {α : Type} (left : List CodePoint) : Outcome α := .error (.fault left.length)

/-- A code point between the parts of a document. -/
def isGap : CodePoint → Bool
  | .char c => c == ' ' || c == '\t' || c == '\n' || c == '\r'
  | .half _ => false

/-- What comes after a gap. -/
def skipGap (cs : List CodePoint) : List CodePoint := cs.dropWhile isGap

/-- The value of a hexadecimal digit. -/
def hexValue? (c : Char) : Option Nat :=
  let n := c.toNat
  if 48 ≤ n ∧ n ≤ 57 then some (n - 48)
  else if 97 ≤ n ∧ n ≤ 102 then some (n - 87)
  else if 65 ≤ n ∧ n ≤ 70 then some (n - 55)
  else none

/-- The value of four hexadecimal digits. -/
def hexFour? (a b c d : CodePoint) : Option Nat := do
  let w ← a.char?.bind hexValue?
  let x ← b.char?.bind hexValue?
  let y ← c.char?.bind hexValue?
  let z ← d.char?.bind hexValue?
  return ((w * 16 + x) * 16 + y) * 16 + z

/-- The character that a short escape stands for, by what follows the backslash. -/
def shortEscape? : CodePoint → Option Char
  | .char c =>
    if c == '"' || c == '\\' || c == '/' then some c
    else if c == 'b' then some (Char.ofNat 8)
    else if c == 'f' then some (Char.ofNat 12)
    else if c == 'n' then some '\n'
    else if c == 'r' then some '\r'
    else if c == 't' then some '\t'
    else none
  | .half _ => none

/-- The character of the surrogate pair whose first half is `high`, when the escape of the second
half comes next. -/
def joined? (high : Nat) : List CodePoint → Option (Char × List CodePoint)
  | .char '\\' :: .char 'u' :: a :: b :: c :: d :: rest =>
    if rest.isEmpty then none
    else do
      let low ← hexFour? a b c d
      let joined ← Text.Encoding.pair? high low
      return (joined, rest)
  | _ => none

/-- Reads the rest of a string; `opening` is how many code points were left at its opening quote. A
half of a surrogate pair that stands alone is read as such. -/
def readText (opening : Nat) :
    (fuel : Nat) → List CodePoint → List CodePoint → Outcome (RawText × List CodePoint)
  | 0, _, _ => .error (.fault opening)
  | _ + 1, _, [] => .error (.fault opening)
  | fuel + 1, acc, p :: rest =>
    if p == .char '"' then .ok (.ofPoints acc.reverse, rest)
    else if p.toNat < 32 then stop (p :: rest)
    else if p != .char '\\' then readText opening fuel (p :: acc) rest
    else
      match rest with
      | [] => .error (.fault opening)
      | .char 'u' :: after =>
        match after with
        | w :: x :: y :: z :: next =>
          if next.isEmpty then stop rest
          else
            match hexFour? w x y z with
            | none => stop rest
            | some n =>
              match joined? n next with
              | some (joined, next) => readText opening fuel (.char joined :: acc) next
              | none => readText opening fuel (.ofNat n :: acc) next
        | _ => stop rest
      | e :: next =>
        match shortEscape? e with
        | some read => readText opening fuel (.char read :: acc) next
        | none => stop (p :: rest)

/-- The digits at the front, and what comes after them. -/
def takeDigits : List CodePoint → List Char × List CodePoint
  | .char c :: rest =>
    if Text.isAsciiDigit c then
      let (digits, after) := takeDigits rest
      (c :: digits, after)
    else ([], .char c :: rest)
  | cs => ([], cs)

/-- Reads the whole digits of a number: a zero, or digits that do not start with one. -/
def wholeDigits? : List CodePoint → Option (List Char × List CodePoint)
  | .char '0' :: rest => some (['0'], rest)
  | cs =>
    let (digits, rest) := takeDigits cs
    if digits.isEmpty then none else some (digits, rest)

/-- Reads the digits after a point, when there is a point with digits after it. -/
def placeDigits (cs : List CodePoint) : List Char × List CodePoint :=
  match cs with
  | .char '.' :: rest =>
    let (digits, rest) := takeDigits rest
    if digits.isEmpty then ([], cs) else (digits, rest)
  | _ => ([], cs)

/-- Reads an exponent, when there is one with digits. -/
def exponent? (cs : List CodePoint) : Option (Int × List CodePoint) :=
  match cs with
  | .char e :: rest =>
    if e == 'e' || e == 'E' then
      let (negative, rest) := match rest with
        | .char '-' :: r => (true, r)
        | .char '+' :: r => (false, r)
        | r => (false, r)
      let (digits, rest) := takeDigits rest
      if digits.isEmpty then none
      else
        let n : Int := Text.digitsValue digits
        some (if negative then -n else n, rest)
    else none
  | _ => none

/-- Whether there is a minus sign at the front, and what comes after it. -/
def takeMinus : List CodePoint → Bool × List CodePoint
  | .char '-' :: rest => (true, rest)
  | cs => (false, cs)

/-- Reads a number. One with a point or an exponent is binary floating point; any other is an
integer, whose digits must not be too many. -/
def readNumber (cs : List CodePoint) : Outcome (Json × List CodePoint) :=
  let (negative, unsigned) := takeMinus cs
  match wholeDigits? unsigned with
  | none => stop cs
  | some (whole, rest) =>
    let (places, rest) := placeDigits rest
    match exponent? rest with
    | some (e, rest) =>
      let d : Decimal := ⟨negative, Text.digitsValue (whole ++ places), e - places.length⟩
      .ok (.float (Binary64.ofDecimal d), rest)
    | none =>
      if places.isEmpty then
        if Text.maxDigits < whole.length then .error (.longNumber whole.length)
        else
          let n : Int := Text.digitsValue whole
          .ok (.int (if negative then -n else n), rest)
      else
        let d : Decimal := ⟨negative, Text.digitsValue (whole ++ places), -places.length⟩
        .ok (.float (Binary64.ofDecimal d), rest)

/-- The values written as words. -/
def words : List (String × Json) :=
  [("null", .null), ("true", .bool true), ("false", .bool false), ("NaN", .float .nan),
   ("Infinity", .float (.infinite false)), ("-Infinity", .float (.infinite true))]

/-- Reads a value that is no string, array or object. -/
def readScalar (cs : List CodePoint) : Outcome (Json × List CodePoint) :=
  match words.find? fun w => (Text.points w.1).isPrefixOf cs with
  | some (word, value) => .ok (value, cs.drop word.length)
  | none => readNumber cs

mutual

/-- Reads a value, in which arrays and objects may be nested to a depth. -/
def readValue : (fuel depth : Nat) → List CodePoint → Outcome (Json × List CodePoint)
  | 0, _, cs => stop cs
  | fuel + 1, depth, cs =>
    match cs with
    | .char '"' :: rest => do
      let (s, rest) ← readText cs.length cs.length [] rest
      return (.text s, rest)
    | .char '[' :: rest =>
      match depth with
      | 0 => .error .tooDeep
      | depth + 1 =>
        match skipGap rest with
        | .char ']' :: rest => .ok (.array [], rest)
        | rest => do
          let (items, rest) ← readItems fuel depth rest
          return (.array items, rest)
    | .char '{' :: rest =>
      match depth with
      | 0 => .error .tooDeep
      | depth + 1 =>
        match skipGap rest with
        | .char '}' :: rest => .ok (.object [], rest)
        | rest => do
          let (members, rest) ← readMembers fuel depth rest
          return (.object (membersOf members), rest)
    | cs => readScalar cs

/-- Reads the items of an array that is not empty, with the closing bracket. -/
def readItems : (fuel depth : Nat) → List CodePoint → Outcome (List Json × List CodePoint)
  | 0, _, cs => stop cs
  | fuel + 1, depth, cs => do
    let (item, rest) ← readValue fuel depth cs
    match skipGap rest with
    | .char ']' :: rest => return ([item], rest)
    | .char ',' :: rest =>
      let (items, rest) ← readItems fuel depth (skipGap rest)
      return (item :: items, rest)
    | rest => stop rest

/-- Reads the members of an object that is not empty, with the closing brace. -/
def readMembers :
    (fuel depth : Nat) → List CodePoint → Outcome (List (RawText × Json) × List CodePoint)
  | 0, _, cs => stop cs
  | fuel + 1, depth, cs =>
    match cs with
    | .char '"' :: rest => do
      let (name, rest) ← readText cs.length cs.length [] rest
      match skipGap rest with
      | .char ':' :: rest =>
        let (value, rest) ← readValue fuel depth (skipGap rest)
        match skipGap rest with
        | .char '}' :: rest => return ([(name, value)], rest)
        | .char ',' :: rest =>
          let (members, rest) ← readMembers fuel depth (skipGap rest)
          return ((name, value) :: members, rest)
        | rest => stop rest
      | rest => stop rest
    | cs => stop cs

end

end Reader

/-- Reads a document: one value, with nothing but gaps around it. -/
def ofPoints? (depth : Nat) (cs : List CodePoint) : Except ReadError Json :=
  let read : Reader.Outcome Json := do
    let (value, rest) ← Reader.readValue (2 * cs.length + 2) depth (Reader.skipGap cs)
    let rest := Reader.skipGap rest
    if rest.isEmpty then return value else Reader.stop rest
  read.mapError fun e => match e with
    | .fault left => .fault (cs.length - left)
    | e => e

/-- Reads a document from its text. -/
def ofText? (depth : Nat) (s : String) : Except ReadError Json := ofPoints? depth (Text.points s)

/-- Reads a document from its octets. -/
def ofOctets? (depth : Nat) (octets : List UInt8) : Except ReadError Json :=
  match Text.documentPoints? octets with
  | some cs => ofPoints? depth cs
  | none => .error .undecodable

end Stowage.Json
