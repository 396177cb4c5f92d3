import Stowage.Text.Quoted
import Stowage.Time.Timestamp

/-!
# Readings and identifiers

Where new things get their time and their name from. The clock stands at the start of 2024 and
moves on by one second with every reading; identifiers are numbered from one on.
-/

namespace Stowage

/-- How many readings and identifiers have been handed out. -/
structure Supply where
  /-- Readings of the clock. -/
  readings : Nat
  /-- Identifiers. -/
  ids : Nat
  deriving DecidableEq

namespace Supply

/-- Nothing has been handed out. -/
def start : Supply := ⟨0, 0⟩

/-- The next reading of the clock. -/
def now (s : Supply) : Timestamp × Supply :=
  (Timestamp.ofSeconds (1704067200 + s.readings), { s with readings := s.readings + 1 })

/-- The twelve hexadecimal digits of an identifier. -/
def serial (n : Nat) : String := String.ofList (Text.hexDigits 12 n)

/-- An identifier in five groups of which all but the first two are zeros. -/
def uuid (n : Nat) : String :=
  let digits := Text.hexDigits 12 n
  String.ofList (digits.take 8 ++ '-' :: digits.drop 8) ++ "-0000-0000-000000000000"

/-- The next identifier. -/
def newId (s : Supply) : Nat × Supply :=
  (s.ids + 1, { s with ids := s.ids + 1 })

end Supply

end Stowage
