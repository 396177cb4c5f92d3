import Stowage.Failure.Basic
import Stowage.Json.Reader
import Stowage.Text.Quoted
import Stowage.Text.Utf8

/-!
# Addresses

The address of a catalogue and the addresses of what it offers. A reference, such as the path to a
product, is appended to the base address: its question mark still starts a query, its hash sign
still starts a fragment, which is dropped, octets already written with a percent sign stay as they
are, and segments of one or two dots are resolved.
-/

namespace Stowage

/-- An absolute address without its fragment. -/
structure Address where
  scheme : String
  host : String
  /-- The path, with percent signs where characters need them. -/
  path : String
  /-- The query, if there is a question mark. -/
  query : Option String
  deriving DecidableEq

namespace Address

/-- The longest address or part of one. -/
def maxLength : Nat := 65536

/-- Whether a character is a control character of ASCII, which no address may have. -/
def isControl (c : Char) : Bool := c.toNat < 32 || c.toNat == 127

/-- Whether a text can be part of an address at all. -/
def isAdmissible (cs : List Char) : Bool := cs.length ≤ maxLength && !cs.any isControl

/-- Why a reference with half of a surrogate pair in it cannot be appended to an address: either it
could not be part of one anyway, or there are no octets to write it with. -/
def faultOfBroken (points : List CodePoint) : Failure :=
  if points.length ≤ maxLength && !(points.filterMap CodePoint.char?).any isControl then
    .unencodable
  else .invalidAddress

/-- An octet as a percent sign and two hexadecimal digits. -/
def percentOctet (b : UInt8) : List Char :=
  let digit (n : Nat) : Char := (Nat.digitChar n).toUpper
  ['%', digit (b.toNat / 16), digit (b.toNat % 16)]

/-- The characters that stand for themselves in a query: ASCII without the blank, the double quote,
the hash sign and angle brackets. -/
def isQuerySafe (c : Char) : Bool :=
  32 < c.toNat && c.toNat < 127 && c != '"' && c != '#' && c != '<' && c != '>'

/-- The characters that stand for themselves in a path: those of a query without the question mark,
the back quote and braces. -/
def isPathSafe (c : Char) : Bool :=
  isQuerySafe c && c != '?' && c.toNat != 0x60 && c.toNat != 0x7B && c.toNat != 0x7D

/-- A text with the octets of all other characters as percent signs and digits. -/
def encodeWith (safe : Char → Bool) (cs : List Char) : List Char :=
  cs.flatMap fun c => if safe c then [c] else (Text.Utf8.encodeChar c).flatMap percentOctet

/-- The parts of a text between the slashes. -/
def segments (cs : List Char) : List (List Char) := cs.splitOn '/'

/-- Segments after those of one dot are left out and each of two dots has taken the one before it
away; the empty segment in front stays. The result is reversed. -/
def resolveDots : (done : List (List Char)) → List (List Char) → List (List Char)
  | done, [] => done
  | done, s :: rest =>
    if s == ['.'] then resolveDots done rest
    else if s == ['.', '.'] then
      match done with
      | [] => resolveDots [] rest
      | [[]] => resolveDots [[]] rest
      | _ :: earlier => resolveDots earlier rest
    else resolveDots (s :: done) rest

/-- A path without segments of dots. -/
def normalizePath (cs : List Char) : List Char :=
  let parts := segments cs
  if parts.contains ['.'] || parts.contains ['.', '.'] then
    List.intercalate ['/'] (resolveDots [] parts).reverse
  else cs

/-- A reference cut at its first question mark or hash sign: the path, and the query if there is
one. -/
def cutReference (cs : List Char) : List Char × Option (List Char) :=
  let path := cs.takeWhile fun c => c != '?' && c != '#'
  match cs.dropWhile fun c => c != '?' && c != '#' with
  | '?' :: rest => (path, some (rest.takeWhile (· != '#')))
  | _ => (path, none)

/-- A path and query as they are written after the host. -/
def written (path : List Char) (query : Option (List Char)) : List Char :=
  match query with
  | some q => path ++ '?' :: q
  | none => path

/-- A written path and query taken apart at the first question mark. -/
def cutWritten (cs : List Char) : List Char × Option (List Char) :=
  match cs.dropWhile (· != '?') with
  | _ :: q => (cs.takeWhile (· != '?'), some q)
  | [] => (cs, none)

/-- The address of a host with a written path and query. -/
def onHost (scheme host : String) (target : List Char) : Fallible Address :=
  let (path, query) := cutWritten target
  if isAdmissible path && isAdmissible (query.getD []) then
    .ok ⟨scheme, host, String.ofList (encodeWith isPathSafe (normalizePath path)),
      query.map fun q => String.ofList (encodeWith isQuerySafe q)⟩
  else .error .invalidAddress

/-- The scheme in front of an address and what follows it. -/
def cutScheme (cs : List Char) : List Char × List Char :=
  let isSchemeChar (c : Char) : Bool := c.isAlphanum || c == '+' || c == '.' || c == '-'
  match cs.dropWhile isSchemeChar with
  | ':' :: rest =>
    if (cs.head?.map Char.isAlpha).getD false then (cs.takeWhile isSchemeChar, rest) else ([], cs)
  | _ => ([], cs)

/-- The host in an authority, without user and port. -/
def hostOf (authority : List Char) : List Char :=
  let host := (authority.reverse.takeWhile (· != '@')).reverse
  (host.takeWhile (· != ':')).map Char.toLower

/-- The address that a text denotes. -/
def ofText (s : String) : Fallible Address :=
  let cs := s.toList
  if !isAdmissible cs then .error .invalidAddress
  else
    let (scheme, rest) := cutScheme cs
    let (authority, rest) := match rest with
      | '/' :: '/' :: rest =>
        let stop (c : Char) : Bool := c != '/' && c != '?' && c != '#'
        (rest.takeWhile stop, rest.dropWhile stop)
      | rest => ([], rest)
    let (path, query) := cutReference rest
    let path := if path.isEmpty then ['/'] else path
    onHost (String.ofList (scheme.map Char.toLower)) (String.ofList (hostOf authority))
      (written path query)

/-- The path and query of an address. -/
def target (a : Address) : List Char := written a.path.toList (a.query.map String.toList)

/-- The target of an address with a slash at its end. -/
def targetWithSlash (a : Address) : List Char :=
  let t := a.target
  if t.getLast? == some '/' then t else t ++ ['/']

/-- The address of a reference that starts with a slash, appended to a base address. -/
def append (base : Address) (reference : String) : Fallible Address :=
  let cs := reference.toList
  if !isAdmissible cs then .error .invalidAddress
  else
    let (path, query) := cutReference cs
    let path := encodeWith isPathSafe path
    let query := query.map (encodeWith isQuerySafe)
    onHost base.scheme base.host (base.targetWithSlash ++ (written path query).dropWhile (· == '/'))

/-- How many characters a value takes in the query of a form. -/
def formLength (s : String) : Nat :=
  s.toList.foldl (fun length c => length +
    if c.isAlphanum || c == '_' || c == '.' || c == '-' || c == '~' || c == ' ' then 1
    else 3 * (Text.Utf8.encodeChar c).length) 0

/-- The octets of a text with percent signs. -/
def decodeOctets : List Char → List UInt8
  | '%' :: a :: b :: rest =>
    match Json.Reader.hexValue? a, Json.Reader.hexValue? b with
    | some x, some y => UInt8.ofNat (x * 16 + y) :: decodeOctets rest
    | _, _ => UInt8.ofNat '%'.toNat :: decodeOctets (a :: b :: rest)
  | c :: rest => Text.Utf8.encodeChar c ++ decodeOctets rest
  | [] => []

/-- A text with its characters in place of percent signs. -/
def decoded (cs : List Char) : String := Text.Utf8.decodeLossy (decodeOctets cs)

/-- The path with its characters in place of percent signs. -/
def plainPath (a : Address) : String := decoded a.path.toList

/-- The address up to the path, as it is read by people. -/
def display (a : Address) : String := a.scheme ++ "://" ++ a.host ++ a.plainPath

end Address

end Stowage
