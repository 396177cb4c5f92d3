/-!
# Upper case for keywords

Keywords are ASCII words in upper case, so of the upper-case mapping only what leads into ASCII
matters: the letters `a` to `z` and the few other characters whose full mapping is a run of ASCII
letters. Every other character maps to something outside ASCII and is left as it is.
-/

namespace Stowage.Text

/-- The characters outside ASCII whose upper case is in ASCII. -/
def asciiUpperOf : List (Nat × List Char) :=
  [(0xdf, ['S', 'S']), (0x131, ['I']), (0x17f, ['S']), (0xfb00, ['F', 'F']), (0xfb01, ['F', 'I']),
   (0xfb02, ['F', 'L']), (0xfb03, ['F', 'F', 'I']), (0xfb04, ['F', 'F', 'L']),
   (0xfb05, ['S', 'T']), (0xfb06, ['S', 'T'])]

/-- The upper case of a character, as far as it is in ASCII. -/
def upperChar (c : Char) : List Char :=
  if c.toNat < 128 then [c.toUpper]
  else (asciiUpperOf.lookup c.toNat).getD [c]

/-- A text in upper case, for comparison with a keyword. -/
def upper (s : String) : String :=
  String.ofList (s.toList.flatMap upperChar)

end Stowage.Text
