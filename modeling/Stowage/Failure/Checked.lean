import Stowage.Failure.Basic

/-!
# Checked values

A value that was checked is there or comes with details of every problem found. Checking two values
together reports the problems of both.
-/

namespace Stowage

/-- A value, or the problems with it. -/
abbrev Checked (α : Type) := Except (List Detail) α

namespace Checked

/-- A problem with the value itself. -/
def refuse {α : Type} (p : Problem) : Checked α := .error [⟨p, []⟩]

/-- The check as seen from outside a member or item. -/
def under {α : Type} (c : Checked α) (step : Place) : Checked α :=
  c.mapError fun details => details.map (Detail.under step)

/-- Two values; the problems of the first come first. -/
def both {α β : Type} (a : Checked α) (b : Checked β) : Checked (α × β) :=
  match a, b with
  | .ok a, .ok b => .ok (a, b)
  | .error d, .ok _ => .error d
  | .ok _, .error e => .error e
  | .error d, .error e => .error (d ++ e)

/-- The outcome of a check: a form with problems is rejected. -/
def settle {α : Type} (c : Checked α) : Fallible α := c.mapError .rejected

end Checked

end Stowage
