/-
**Algorithms and keys of tokens.**

A token is signed with one of a few algorithms. A key belongs to one of them and verifies signatures
of that one only.

* `Key.ofArmor?`: the public key in a key file;
* `Key.verifies`: whether a text is a signature of a message under a key.
-/

import Gatehouse.Access.Error
import Gatehouse.Signature.Armor
import Gatehouse.Signature.Der
import Gatehouse.Signature.Ecdsa
import Gatehouse.Signature.Rsa

namespace Gatehouse.Bearer

open Text (Bytes)

/-- The algorithms that a token may name. -/
inductive Algorithm where
  | hs256 | hs384 | hs512
  | es256 | es384
  | rs256 | rs384 | rs512
  | ps256 | ps384 | ps512
  | edDsa
deriving DecidableEq, Repr

/-- The algorithms with their names. -/
def Algorithm.named : List (String × Algorithm) :=
  [("HS256", hs256), ("HS384", hs384), ("HS512", hs512), ("ES256", es256), ("ES384", es384),
   ("RS256", rs256), ("RS384", rs384), ("RS512", rs512), ("PS256", ps256), ("PS384", ps384),
   ("PS512", ps512), ("EdDSA", edDsa)]

/-- The algorithm with a name. -/
def Algorithm.ofName? (name : String) : Option Algorithm :=
  (named.find? fun entry => entry.1 = name).map (·.2)

/-- A key that verifies signatures. -/
inductive Key where
  /-- A secret shared with the signer. -/
  | secret (bytes : Bytes)
  /-- An RSA public key; a malformed one verifies nothing. -/
  | rsa (key : Option Rsa.PublicKey)
  /-- A point of the curve; a malformed one verifies nothing. -/
  | curve (point : Option P256.Point)
deriving DecidableEq

namespace Key

/-- The algorithm that a key belongs to. -/
def algorithm : Key → Algorithm
  | .secret _ => .hs256
  | .rsa _ => .rs256
  | .curve _ => .es256

/-! ### Key files -/

/-- Kinds of keys in key files that name the kind inside. -/
inductive Kind where
  | rsa
  | curve
  | edwards
deriving DecidableEq, Repr

/-- The identifiers of the kinds. -/
def Kind.identified : List (List Nat × Kind) :=
  [([1, 2, 840, 10045, 2, 1], curve), ([1, 2, 840, 113549, 1, 1, 1], rsa),
   ([1, 3, 101, 112], edwards)]

/-- The kind of key that elements hold: the first identifier of a kind counts. -/
def kindOf? (elements : List Der) : Option Kind :=
  (Der.identifiersAmong elements).findSome? fun arcs =>
    (Kind.identified.find? fun entry => entry.1 = arcs).map (·.2)

/-- Labels of files that hold nothing but an RSA key. -/
def rsaLabels : List String := ["RSA PRIVATE KEY", "RSA PUBLIC KEY"]

/-- Labels of files that hold a key of any kind. -/
def anyLabels : List String := ["PRIVATE KEY", "PUBLIC KEY", "CERTIFICATE"]

/-- An RSA key of a file; also a private key can be read, but verifies nothing. -/
def rsaOfArmor? (armor : Armor) : Option Key := do
  let elements ← Der.parse? armor.content
  if armor.label ∈ rsaLabels then return .rsa (Rsa.PublicKey.ofBytes? armor.content)
  if armor.label ∈ anyLabels ∧ kindOf? elements = some .rsa then
    return .rsa (Rsa.PublicKey.ofBytes? (← Der.firstStringAmong? elements))
  none

/-- A public key on the curve. -/
def curveOfArmor? (armor : Armor) : Option Key := do
  let elements ← Der.parse? armor.content
  if armor.label ∈ anyLabels ∧ armor.label ≠ "PRIVATE KEY" ∧ kindOf? elements = some .curve then
    return .curve (P256.Point.ofBytes? (← Der.firstStringAmong? elements))
  none

/-- The key of a file for an algorithm with public keys. -/
def ofArmor? (algorithm : Algorithm) (text : String) : Option Key :=
  (Armor.parse? text).bind fun armor =>
    match algorithm with
    | .rs256 => rsaOfArmor? armor
    | .es256 => curveOfArmor? armor
    | _ => none

/-! ### Signatures -/

/-- The bytes of a part of a token. -/
def partBytes (part : List Char) : Except TokenFault Bytes :=
  match Base64.decode Base64.urlSafe false (Text.encode (String.ofList part)) with
  | .ok bytes => .ok bytes
  | .error fault => .error (.encoding fault.message)

/-- The written form of bytes in a token. -/
def partOf (bytes : Bytes) : List Char :=
  (Base64.encode Base64.urlSafe false bytes).map fun byte => Char.ofNat byte.toNat

/-- Whether a text is a signature of a message. A shared secret gives exactly one signature, which
is compared as it is written. -/
def verifies (message : Bytes) (signature : List Char) : Key → Except TokenFault Bool
  | .secret bytes => .ok (signature = partOf (Digest.hmacSha256 bytes message))
  | .rsa key => (partBytes signature).map fun bytes => key.any (Rsa.verify · message bytes)
  | .curve point => (partBytes signature).map fun bytes => point.any (Ecdsa.verify · message bytes)

end Key

end Gatehouse.Bearer
