import Stowage.Catalogue.Address

/-!
# Queries

The part of an address after the question mark, as names and values. Names and values may be given
in any characters; in the query those that have a meaning there are octets with percent signs, and
a blank is a plus sign.
-/

namespace Stowage.Web.Query

/-- The characters that stand for themselves in a name or value. -/
def isPlain (c : Char) : Bool :=
  c.isAlphanum || c == '_' || c == '.' || c == '-' || c == '~'

/-- A name or value as it stands in a query. -/
def encodePart (s : String) : List Char :=
  s.toList.flatMap fun c =>
    if c == ' ' then ['+']
    else if isPlain c then [c]
    else (Text.Utf8.encodeChar c).flatMap Address.percentOctet

/-- The query with the given names and values. -/
def encode (pairs : List (String × String)) : String :=
  String.ofList (List.intercalate ['&']
    (pairs.map fun (name, value) => encodePart name ++ '=' :: encodePart value))

/-- The name or value that stands in a query. -/
def decodePart (cs : List Char) : String :=
  Address.decoded (cs.map fun c => if c == '+' then ' ' else c)

/-- The names and values in a query. A name without an equals sign has an empty value. -/
def decode (query : String) : List (String × String) :=
  let parts := (query.toList.splitOn '&').filter fun part => !part.isEmpty
  parts.map fun part =>
    (decodePart (part.takeWhile (· != '=')), decodePart ((part.dropWhile (· != '=')).drop 1))

/-- The value of a name, the last one when there are several. -/
def value? (query name : String) : Option String := (decode query).reverse.lookup name

end Stowage.Web.Query
