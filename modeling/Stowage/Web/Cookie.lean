import Stowage.Text.Blank
import Stowage.Text.Digit

/-!
# Cookies

The names and values in a cookie header. Blanks around them do not count, and a value in double
quotes stands without them and without its escapes.
-/

namespace Stowage.Web.Cookie

/-- The character whose code three digits give in base eight, if it is below 256. -/
def octal? (a b c : Char) : Option Char :=
  if [a, b, c].all (fun d => '0' ≤ d && d ≤ '7') && a ≤ '3' then
    some (Char.ofNat (Text.digitsValue [a] * 64 + Text.digitsValue [b] * 8 + Text.digitsValue [c]))
  else none

/-- The characters of a value in quotes, without the quotes. -/
def unescape : List Char → List Char
  | '\\' :: a :: b :: c :: rest =>
    match octal? a b c with
    | some d => d :: unescape rest
    | none => a :: unescape (b :: c :: rest)
  | '\\' :: a :: rest => a :: unescape rest
  | c :: rest => c :: unescape rest
  | [] => []

/-- The value that a written value stands for. -/
def readValue (cs : List Char) : List Char :=
  match cs with
  | '"' :: rest =>
    match rest.reverse with
    | '"' :: inner => unescape inner.reverse
    | _ => cs
  | _ => cs

/-- The name and value in one part of a header. A part without an equals sign has no name. -/
def readPart (part : List Char) : String × String :=
  let (name, value) := match part.dropWhile (· != '=') with
    | _ :: value => (part.takeWhile (· != '='), value)
    | [] => ([], part)
  (String.ofList (Text.stripChars name), String.ofList (readValue (Text.stripChars value)))

/-- The names and values in a header. -/
def read (header : String) : List (String × String) :=
  ((header.toList.splitOn ';').map readPart).filter fun (name, value) =>
    !(name.isEmpty && value.isEmpty)

/-- The value of a name, the last one when there are several. -/
def value? (header name : String) : Option String := (read header).reverse.lookup name

/-- A name and a value as they stand in a header. -/
def write (name value : String) : String := name ++ "=" ++ value

end Stowage.Web.Cookie
