import Stowage.Digest.Base64
import Stowage.Digest.Keyed
import Stowage.Json.Whole
import Stowage.Text.Utf8

/-!
# Passwords

A password is stored as the rounds of its stretching, a salt and the stretched octets. Verifying a
password stretches it again. A stored text that is none verifies no password.
-/

namespace Stowage.Password

/-- The parts of a stored password. -/
structure Stored where
  rounds : Nat
  salt : List UInt8
  digest : List UInt8
  deriving DecidableEq

/-- The mark in front of a stored password. -/
def mark : List Char := "$pbkdf2-sha256$".toList

/-- The rounds for new passwords. -/
def usualRounds : Nat := 29000

/-- The most rounds there may be. -/
def maxRounds : Nat := 4294967295

/-- The longest password, in characters. -/
def maxLength : Nat := 4096

/-- The longest salt, in octets. -/
def maxSalt : Nat := 1024

/-- The text of a stored password. -/
def Stored.text (s : Stored) : String :=
  String.ofList mark ++ toString s.rounds ++ "$" ++ Base64.encodeStored s.salt ++ "$" ++
    Base64.encodeStored s.digest

/-- Reads the rounds, which have no zeros in front. -/
def roundsOf? (cs : List Char) : Option Nat := do
  if cs.head? == some '0' then none
  let n ← wholeOfText? (String.ofList cs)
  if 1 ≤ n ∧ n ≤ maxRounds then some n.toNat else none

/-- Reads a stored password. -/
def Stored.ofText? (s : String) : Option Stored :=
  let cs := s.toList
  if mark.isPrefixOf cs then
    match (cs.drop mark.length).splitOn '$' with
    | [rounds, salt, digest] => do
      let rounds ← roundsOf? rounds
      let salt ← Base64.decodeStored? salt
      let digest ← Base64.decodeStored? digest
      if digest.length = 32 ∧ salt.length ≤ maxSalt then some ⟨rounds, salt, digest⟩ else none
    | _ => none
  else none

/-- Stores a password with a salt. -/
def store (password : String) (salt : List UInt8) : Stored :=
  ⟨usualRounds, salt, Keyed.stretch (Text.Utf8.encode password) salt usualRounds⟩

/-- Whether a password is the one that was stored. -/
def Stored.accepts (s : Stored) (password : String) : Bool :=
  password.length ≤ maxLength &&
    Keyed.stretch (Text.Utf8.encode password) s.salt s.rounds == s.digest

/-- Whether a password is the one whose stored text is given. -/
def verify (password stored : String) : Bool :=
  match Stored.ofText? stored with
  | some s => s.accepts password
  | none => false

end Stowage.Password
