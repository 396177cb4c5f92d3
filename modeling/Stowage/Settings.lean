import Stowage.Packing.Policy

/-!
# Settings

What whoever runs the program decides once and for all.
-/

namespace Stowage

/-- The settings of a running program. -/
structure Settings where
  /-- The name under which the program reports itself. -/
  application : String
  version : String
  /-- The secret that session tokens are signed with. -/
  secret : String
  /-- The days for which a session token is good. -/
  tokenDays : Int
  /-- The name of the cookie that holds the session token. -/
  cookieName : String
  /-- The operator there is from the start. -/
  operatorName : String
  operatorPassword : String
  /-- Whether products that the catalogue does not know get usual attributes. -/
  useDefaults : Bool
  /-- Whether fragile items are kept apart. -/
  separateFragile : Bool
  /-- The largest part of a carton's volume that may be used. -/
  threshold : Numeral
  /-- Whether an empty table of cartons is filled with the usual ones. -/
  seedCartons : Bool
  /-- How deep arrays and objects may be nested in the documents of a request. -/
  depth : Nat

/-- The settings where nothing is decided. -/
def Settings.usual : Settings where
  application := "Cartonizer"
  version := "1.0.0"
  secret := "change-me"
  tokenDays := 14
  cookieName := "cartonizer_token"
  operatorName := "operator"
  operatorPassword := "change-me-now"
  useDefaults := true
  separateFragile := true
  threshold := Policy.usualThreshold
  seedCartons := true
  depth := 900

end Stowage
