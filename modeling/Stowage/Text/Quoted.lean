import Stowage.Text.Printable
import Stowage.Text.Raw

/-!
# Quoted text

A text between quotes with every code point visible. Single quotes are used unless the text holds
one and no double quote. The quote in use, the backslash, the characters that cannot be shown and
halves of surrogate pairs are escaped.
-/

namespace Stowage.Text

/-- The single quote. -/
def singleQuote : Char := Char.ofNat 39

/-- The last `width` hexadecimal digits of a number, in lower case. -/
def hexDigits : (width : Nat) → Nat → List Char
  | 0, _ => []
  | width + 1, n => hexDigits width (n / 16) ++ [Nat.digitChar (n % 16)]

/-- The escape of a character that cannot be shown, as short as its code point allows. -/
def escapeCode (n : Nat) : List Char :=
  if n < 0x100 then '\\' :: 'x' :: hexDigits 2 n
  else if n < 0x10000 then '\\' :: 'u' :: hexDigits 4 n
  else '\\' :: 'U' :: hexDigits 8 n

/-- A character as it stands between the given quotes. -/
def quotedChar (quote c : Char) : List Char :=
  if c == quote || c == '\\' then ['\\', c]
  else if c == '\n' then ['\\', 'n']
  else if c == '\r' then ['\\', 'r']
  else if c == '\t' then ['\\', 't']
  else if isPrintable c then [c]
  else escapeCode c.toNat

/-- The quote for a text. -/
def quoteFor (cs : List Char) : Char :=
  if cs.contains singleQuote && !cs.contains '"' then '"' else singleQuote

/-- A code point as it stands between the given quotes. -/
def quotedPoint (quote : Char) : CodePoint → List Char
  | .char c => quotedChar quote c
  | p => escapeCode p.toNat

/-- A text between quotes with every code point visible. -/
def quoted (t : RawText) : String :=
  let quote := quoteFor (t.points.filterMap CodePoint.char?)
  String.ofList (quote :: t.points.flatMap (quotedPoint quote) ++ [quote])

end Stowage.Text
