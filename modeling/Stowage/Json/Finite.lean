import Stowage.Json.Basic

/-!
# JSON that can be sent

JSON proper has no numbers that are not finite, and what is sent is made of octets, of which there
are none for a broken text. `Json.finite` puts null in the place of such numbers. A value that
`isFinite` and `isWhole` can be sent as it is.
-/

namespace Stowage.Json

mutual

/-- The value with null in place of numbers that are not finite. -/
def finite : Json → Json
  | .float x => if x.isFinite then .float x else .null
  | .array xs => .array (finiteItems xs)
  | .object members => .object (finiteMembers members)
  | v => v

/-- The items with null in place of numbers that are not finite. -/
def finiteItems : List Json → List Json
  | [] => []
  | x :: xs => finite x :: finiteItems xs

/-- The members with null in place of numbers that are not finite. -/
def finiteMembers : List (RawText × Json) → List (RawText × Json)
  | [] => []
  | (name, x) :: rest => (name, finite x) :: finiteMembers rest

end

mutual

/-- Whether all numbers in a value are finite. -/
def isFinite : Json → Bool
  | .float x => x.isFinite
  | .array xs => areFinite xs
  | .object members => areMembersFinite members
  | _ => true

/-- Whether all numbers in the items are finite. -/
def areFinite : List Json → Bool
  | [] => true
  | x :: xs => isFinite x && areFinite xs

/-- Whether all numbers in the members are finite. -/
def areMembersFinite : List (RawText × Json) → Bool
  | [] => true
  | (_, x) :: rest => isFinite x && areMembersFinite rest

end

mutual

/-- Whether all texts and names in a value have octets. -/
def isWhole : Json → Bool
  | .text s => s.isWhole
  | .array xs => areWhole xs
  | .object members => areMembersWhole members
  | _ => true

/-- Whether all texts and names in the items have octets. -/
def areWhole : List Json → Bool
  | [] => true
  | x :: xs => isWhole x && areWhole xs

/-- Whether all texts and names in the members have octets. -/
def areMembersWhole : List (RawText × Json) → Bool
  | [] => true
  | (name, x) :: rest => name.isWhole && isWhole x && areMembersWhole rest

end

end Stowage.Json
