import Stowage.Failure.Detail
import Stowage.Failure.Domain
import Stowage.Json.Reader

/-!
# Failures

Every way in which a computation of this library can end without a result. Domain errors are the
refusals a client is told about; the other causes are inputs of a wrong kind, missing parts and the
limits of arithmetic.
-/

namespace Stowage

/-- What a unit measures. -/
inductive UnitKind where
  | length
  | weight
  deriving DecidableEq

/-- The cause of a failure. -/
inductive Failure where
  /-- A decimal operation without a result. -/
  | arithmetic (signal : Decimal.Signal)
  /-- A refusal by a rule of the domain. -/
  | domain (error : DomainError)
  /-- A text that names no unit. -/
  | unknownUnit (kind : UnitKind) (raw : Json)
  /-- A value that names no carton status. -/
  | unknownStatus (raw : Json)
  /-- An outbox that should hold fewer than no events. -/
  | negativeBound
  /-- A signaling `nan` that should become a binary floating point number. -/
  | signalingNan
  /-- A value of a kind that an operation is not defined on. -/
  | wrongKind
  /-- A record without a member that is needed. -/
  | missingMember
  /-- An absent value that was used as if it were there. -/
  | absentValue
  /-- An event that says nothing about itself. -/
  | abstractEvent
  /-- A document that cannot be read. -/
  | unreadable (why : Json.ReadError)
  /-- An integer with too many digits, where it was to be written. -/
  | longNumber
  /-- An array that spells no decimal, with what is wrong with it. -/
  | misspelled (message : String)
  /-- A text with halves of surrogate pairs, where its octets were called for. -/
  | unencodable
  /-- A reply that cannot be sent because of a value in it. -/
  | unsendable
  /-- A second solution for the same request. -/
  | duplicateRequest
  /-- A form with problems in it. -/
  | rejected (details : List Detail)
  /-- A number outside the range that a count or a time can have. -/
  | outOfRange
  /-- An address that is no address. -/
  | invalidAddress

/-- A computation that may fail. -/
abbrev Fallible := Except Failure

/-- A decimal operation as a computation that may fail. -/
def Fallible.ofDecimal {α : Type} (r : Except Decimal.Signal α) : Fallible α :=
  r.mapError .arithmetic

/-- A refusal by a rule of the domain. -/
def Fallible.refuse {α : Type} (e : DomainError) : Fallible α := .error (.domain e)

instance {α : Type} : CoeHead (Except Decimal.Signal α) (Fallible α) := ⟨Fallible.ofDecimal⟩

/-- A refusal whose message shows a value, unless the value holds an integer that is too long. -/
def Fallible.refuseShowing {α : Type} (shown : Json) (e : DomainError) : Fallible α :=
  if shown.hasLongNumber then .error .longNumber else .refuse e

namespace Failure

/-- What is said of an integer with too many digits, and what can be done about it. -/
def longNumberText (found : String) : String :=
  "Exceeds the limit (" ++ toString Text.maxDigits ++ " digits) for integer string conversion" ++
    found ++ "; use sys.set_int_max_str_digits() to increase the limit"

/-- The message of a failure, where it has one of its own. -/
def message? : Failure → Option RawText
  | .domain e => some e.message
  | .unknownUnit .length raw => some ("unknown dimension unit: " ++ raw.display)
  | .unknownUnit .weight raw => some ("unknown weight unit: " ++ raw.display)
  | .unknownStatus raw => some (RawText.whole (raw.literal ++ " is not a valid CartonStatus"))
  | .negativeBound => some "maxlen must be non-negative"
  | .signalingNan => some "cannot convert signaling NaN to float"
  | .unreadable (.longNumber digits) =>
    some (longNumberText (": value has " ++ toString digits ++ " digits"))
  | .longNumber => some (longNumberText "")
  | .misspelled message => some message
  | _ => none

end Failure

end Stowage
