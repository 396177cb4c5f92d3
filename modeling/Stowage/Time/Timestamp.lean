import Stowage.Text.Digit

/-!
# Timestamps

A point of local time to the microsecond, with its distance from universal time when that is
known. Timestamps are written with a `T` between date and time, microseconds only when there are
some, and the offset as hours and minutes; views write a `Z` for universal time.
-/

namespace Stowage

/-- A day of the calendar. -/
structure Date where
  year : Int
  month : Nat
  day : Nat
  deriving DecidableEq

namespace Date

/-- The number of days from the first of January 1970 to a day. Years are counted from March, so
that a leap day comes last. -/
def toDays (d : Date) : Int :=
  let y := if d.month ≤ 2 then d.year - 1 else d.year
  let era := y.fdiv 400
  let yearOfEra := y - era * 400
  let month : Int := if d.month ≤ 2 then d.month + 9 else d.month - 3
  let dayOfYear := (153 * month + 2) / 5 + d.day - 1
  let dayOfEra := yearOfEra * 365 + yearOfEra / 4 - yearOfEra / 100 + dayOfYear
  era * 146097 + dayOfEra - 719468

/-- The day that is so many days after the first of January 1970. -/
def ofDays (days : Int) : Date :=
  let z := days + 719468
  let era := z.fdiv 146097
  let dayOfEra := z - era * 146097
  let yearOfEra := (dayOfEra - dayOfEra / 1460 + dayOfEra / 36524 - dayOfEra / 146096) / 365
  let dayOfYear := dayOfEra - (365 * yearOfEra + yearOfEra / 4 - yearOfEra / 100)
  let m := (5 * dayOfYear + 2) / 153
  let day := dayOfYear - (153 * m + 2) / 5 + 1
  let month := if m < 10 then m + 3 else m - 9
  let year := yearOfEra + era * 400 + (if month ≤ 2 then 1 else 0)
  ⟨year, month.toNat, day.toNat⟩

/-- Whether a year has a leap day. -/
def isLeap (year : Int) : Bool :=
  year % 4 == 0 && (year % 100 != 0 || year % 400 == 0)

/-- The days of a month. -/
def daysIn (year : Int) (month : Nat) : Nat :=
  if month = 2 then (if isLeap year then 29 else 28)
  else if month ∈ [4, 6, 9, 11] then 30 else 31

/-- Whether there is such a day, in a year of at most four digits. -/
def isValid (d : Date) : Bool :=
  1 ≤ d.year && d.year ≤ 9999 && 1 ≤ d.month && d.month ≤ 12 && 1 ≤ d.day &&
    d.day ≤ daysIn d.year d.month

end Date

/-- A point of local time. -/
structure Timestamp where
  /-- Microseconds of local time since the start of 1970. -/
  micros : Int
  /-- Seconds by which local time is ahead of universal time, when known. -/
  offset : Option Int
  deriving DecidableEq

namespace Timestamp

/-- The start of 1970 in universal time. -/
def epoch : Timestamp := ⟨0, some 0⟩

/-- So many seconds after the start of 1970, in universal time. -/
def ofSeconds (seconds : Int) : Timestamp := ⟨seconds * 1000000, some 0⟩

/-- The last `width` decimal digits of a number. -/
def padded (width n : Nat) : String :=
  let digits := Text.natDigits n
  String.ofList (List.replicate (width - digits.length) '0' ++ digits)

/-- Hours and minutes of an offset with its sign, and seconds when there are some. -/
def offsetText (seconds : Int) : String :=
  let n := seconds.natAbs
  let shown := (if seconds < 0 then "-" else "+") ++ padded 2 (n / 3600) ++ ":" ++
    padded 2 (n / 60 % 60)
  if n % 60 = 0 then shown else shown ++ ":" ++ padded 2 (n % 60)

/-- Date and time without the offset. -/
def localText (t : Timestamp) : String :=
  let date := Date.ofDays (t.micros.fdiv 86400000000)
  let micros := (t.micros.fmod 86400000000).toNat
  let seconds := micros / 1000000
  let shown := padded 4 date.year.toNat ++ "-" ++ padded 2 date.month ++ "-" ++
    padded 2 date.day ++ "T" ++ padded 2 (seconds / 3600) ++ ":" ++
    padded 2 (seconds / 60 % 60) ++ ":" ++ padded 2 (seconds % 60)
  if micros % 1000000 = 0 then shown else shown ++ "." ++ padded 6 (micros % 1000000)

/-- The written form. -/
def text (t : Timestamp) : String :=
  t.localText ++ match t.offset with
    | some seconds => offsetText seconds
    | none => ""

/-- The form in views, with `Z` for universal time. -/
def viewText (t : Timestamp) : String :=
  if t.offset = some 0 then t.localText ++ "Z" else t.text

/-! ## Reading -/

/-- Reads a number of exactly `width` digits. -/
def digits? (width : Nat) (cs : List Char) : Option (Nat × List Char) :=
  let read := cs.take width
  if read.length = width ∧ read.all Text.isAsciiDigit then
    some (Text.digitsValue read, cs.drop width)
  else none

/-- The characters after a separator, when there is one. -/
def skip (c : Char) : List Char → List Char
  | d :: rest => if c == d then rest else d :: rest
  | [] => []

/-- Reads a date with or without dashes. -/
def date? (cs : List Char) : Option (Date × List Char) := do
  let (year, rest) ← digits? 4 cs
  let (month, rest) ← digits? 2 (skip '-' rest)
  let (day, rest) ← digits? 2 (skip '-' rest)
  let date : Date := ⟨year, month, day⟩
  if date.isValid then some (date, rest) else none

/-- The microseconds of a fraction of a second; digits after the sixth do not count. -/
def fractionMicros (digits : List Char) : Nat :=
  Text.digitsValue ((digits ++ List.replicate 6 '0').take 6)

/-- Reads two digits after an optional colon, zero at the end of a time. -/
def part? (cs : List Char) : Option (Nat × List Char) :=
  match cs with
  | ':' :: rest => digits? 2 rest
  | d :: _ => if Text.isAsciiDigit d then digits? 2 cs else some (0, cs)
  | [] => some (0, [])

/-- Reads hours, minutes, seconds and a fraction, of which only the hours are needed, as
microseconds. -/
def clock? (hourLimit : Nat) (cs : List Char) : Option (Nat × List Char) := do
  let (hour, rest) ← digits? 2 cs
  let (minute, rest) ← part? rest
  let (second, rest) ← part? rest
  let (fraction, rest) ← match rest with
    | c :: after =>
      if c == '.' || c == ',' then
        let ds := after.takeWhile Text.isAsciiDigit
        if ds.isEmpty then none
        else some (fractionMicros ds, after.dropWhile Text.isAsciiDigit)
      else some (0, rest)
    | [] => some (0, [])
  if hour < hourLimit ∧ minute < 60 ∧ second < 60 then
    some (((hour * 60 + minute) * 60 + second) * 1000000 + fraction, rest)
  else none

/-- Reads the offset at the end of a timestamp. -/
def offset? : List Char → Option (Option Int)
  | [] => some none
  | ['Z'] => some (some 0)
  | sign :: rest =>
    if sign == '+' || sign == '-' then
      match clock? 24 rest with
      | some (micros, []) =>
        let seconds : Int := micros / 1000000
        some (some (if sign == '-' then -seconds else seconds))
      | _ => none
    else none

/-- Reads a timestamp: a date, and after one character of any kind a time of day and an offset. -/
def ofText? (s : String) : Option Timestamp := do
  let (date, rest) ← date? s.toList
  let midnight := date.toDays * 86400000000
  match rest with
  | [] => some ⟨midnight, none⟩
  | _ :: rest =>
    let (micros, rest) ← clock? 24 rest
    let offset ← offset? rest
    some ⟨midnight + micros, offset⟩

end Timestamp

end Stowage
