import Stowage.Digest.Sha256

/-!
# Keyed digests

The keyed hash of a message, and the stretching of a password by many keyed hashes in a row.
-/

namespace Stowage.Keyed

open Sha256 (State)

/-- The states after the two masked copies of a key. -/
structure Key where
  inner : State
  outer : State

/-- The key for a secret: the secret itself when it fits into a block, its digest otherwise. -/
def Key.ofSecret (secret : List UInt8) : Key :=
  let secret := if 64 < secret.length then Sha256.hash secret else secret
  let block := secret ++ List.replicate (64 - secret.length) 0
  let masked (mask : UInt8) : State :=
    Sha256.compress Sha256.initial (Sha256.wordsOf (block.map (· ^^^ mask))).toArray
  ⟨masked 0x36, masked 0x5c⟩

/-- The keyed hash of a message, as a state. -/
def Key.authenticate (k : Key) (message : List UInt8) : State :=
  Sha256.finish k.outer 64 (Sha256.finish k.inner 64 message).octets

/-- A digest as the last block of a message that has one block before it. -/
def digestBlock (s : State) : Array UInt32 :=
  #[s.a, s.b, s.c, s.d, s.e, s.f, s.g, s.h, 0x80000000, 0, 0, 0, 0, 0, 0, 768]

/-- The keyed hash of a digest. -/
def Key.again (k : Key) (digest : State) : State :=
  Sha256.compress k.outer (digestBlock (Sha256.compress k.inner (digestBlock digest)))

/-- The keyed hash of a message. -/
def authenticate (secret message : List UInt8) : List UInt8 :=
  ((Key.ofSecret secret).authenticate message).octets

/-- Hashes on `count` times and adds up, bit by bit, all that comes. -/
def stretchFrom (k : Key) : (count : Nat) → (last total : State) → State
  | 0, _, total => total
  | count + 1, last, total =>
    let next := k.again last
    stretchFrom k count next (total.xor next)

/-- A password stretched to 32 octets by a number of rounds, which is positive. -/
def stretch (password salt : List UInt8) (rounds : Nat) : List UInt8 :=
  let k := Key.ofSecret password
  let start := k.authenticate (salt ++ [0, 0, 0, 1])
  (stretchFrom k (rounds - 1) start start).octets

end Stowage.Keyed
