import Stowage.Web.Message

/-!
# Resources

What can be found at which path. A path names a resource by its segments, of which the last may be
an identifier of any characters but slashes.
-/

namespace Stowage.Web

/-- Something that requests are about. -/
inductive Resource where
  | health
  | cartons
  | carton (id : String)
  | activation (id : String)
  | solutions
  | solution (id : String)
  | login
  | logout
  | operator
  deriving DecidableEq

namespace Resource

/-- The segments of a path below the root that all resources share. -/
def segments? (path : String) : Option (List String) :=
  match (path.toList.splitOn '/').map String.ofList with
  | "" :: "api" :: "v1" :: rest => some rest
  | _ => none

/-- A text without a line end at its end. -/
def withoutLineEnd (s : String) : String :=
  match s.toList.reverse with
  | '\n' :: rest => String.ofList rest.reverse
  | _ => s

/-- The resource with fixed names for its segments. -/
def ofNames? : List String → Option Resource
  | ["health"] => some .health
  | ["cartons"] => some .cartons
  | ["packing-solutions"] => some .solutions
  | ["auth", "login"] => some .login
  | ["auth", "logout"] => some .logout
  | ["auth", "me"] => some .operator
  | _ => none

/-- The resource with an identifier among its segments. -/
def ofIdentifier? : List String → Option Resource
  | ["cartons", id] => if id.isEmpty then none else some (.carton id)
  | ["cartons", id, "activate"] => if id.isEmpty then none else some (.activation id)
  | ["packing-solutions", id] => if id.isEmpty then none else some (.solution id)
  | _ => none

/-- The resource at a path. A line end after the last fixed name is passed over. -/
def ofPath? (path : String) : Option Resource := do
  let exact ← segments? path
  let trimmed ← segments? (withoutLineEnd path)
  ofNames? trimmed <|> ofIdentifier? exact <|>
    (ofIdentifier? trimmed).filter fun r => match r with
      | .activation _ => true
      | _ => false

/-- The path with a slash at its end, or without the slashes it has there. -/
def otherSpelling (path : String) : String :=
  match path.toList.reverse with
  | '/' :: rest => String.ofList ((rest.dropWhile (· == '/')).reverse)
  | _ => path ++ "/"

end Resource

end Stowage.Web
