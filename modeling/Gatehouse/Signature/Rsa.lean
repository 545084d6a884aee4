/-
**RSA signatures.**

The signature of a message raised to the public exponent is the padded digest of the message.

* `Rsa.PublicKey.ofBytes?`: reads the written form of a public key;
* `Rsa.verify`: whether bytes are a signature of a message.
-/

import Gatehouse.Digest.Sha256
import Gatehouse.Signature.Modular

namespace Gatehouse.Rsa

open Text (Bytes)
open Digest (ofBytes toBytes sha256)

/-- A public key. -/
structure PublicKey where
  modulus : Nat
  exponent : Nat
deriving DecidableEq, Repr

def byteLength (value : Nat) : Nat := if value = 0 then 0 else value.log2 / 8 + 1

namespace PublicKey

def leastBytes : Nat := 256

def mostBytes : Nat := 1024

def exponentBound : Nat := Nat.pow 2 33

/-- Whether a key may be used: both numbers odd, the modulus of 2048 to 8192 bits in whole bytes,
the exponent neither one nor too large. -/
def isUsable (key : PublicKey) : Bool :=
  key.modulus % 2 = 1 && leastBytes ≤ byteLength key.modulus &&
    byteLength key.modulus ≤ mostBytes && key.exponent % 2 = 1 && 3 ≤ key.exponent &&
    key.exponent < exponentBound

end PublicKey

/-! ### The written form of keys -/

/-- The content of an element with the given tag, and what follows it; its length is written in as
few bytes as possible. -/
def element? (tag : UInt8) : Bytes → Option (Bytes × Bytes)
  | first :: rest =>
    if first ≠ tag then none
    else
      let measured? : Option (Nat × Bytes) := match rest with
        | 0x81 :: length :: rest => if length < 0x80 then none else some (length.toNat, rest)
        | 0x82 :: high :: low :: rest => if high = 0 then none else some (ofBytes [high, low], rest)
        | length :: rest => if length < 0x80 then some (length.toNat, rest) else none
        | [] => none
      measured?.bind fun (length, rest) =>
        if length ≤ rest.length then some (rest.take length, rest.drop length) else none
  | [] => none

/-- A positive number from its shortest signed form. -/
def positive? : Bytes → Option Nat
  | 0 :: next :: rest => if next < 0x80 then none else some (ofBytes (next :: rest))
  | first :: rest => if 0 < first && first < 0x80 then some (ofBytes (first :: rest)) else none
  | [] => none

/-- A public key from its written form: a sequence of modulus and exponent. -/
def PublicKey.ofBytes? (bytes : Bytes) : Option PublicKey := do
  let (content, after) ← element? 0x30 bytes
  let (modulus, rest) ← element? 0x02 content
  let (exponent, inside) ← element? 0x02 rest
  if after.isEmpty && inside.isEmpty then
    return ⟨← positive? modulus, ← positive? exponent⟩
  else none

/-! ### Verification -/

/-- What stands before the digest in a padded message: the name of the digest algorithm. -/
def digestInfo : Bytes :=
  [0x30, 0x31, 0x30, 0x0d, 0x06, 0x09, 0x60, 0x86, 0x48, 0x01, 0x65, 0x03, 0x04, 0x02, 0x01, 0x05,
   0x00, 0x04, 0x20]

/-- The digest of a message, padded to a length. -/
def padded (length : Nat) (message : Bytes) : Bytes :=
  let content := digestInfo ++ sha256 message
  [0x00, 0x01] ++ List.replicate (length - content.length - 3) 0xff ++ [0x00] ++ content

/-- Whether bytes are a signature of a message under a usable key. -/
def verify (key : PublicKey) (message signature : Bytes) : Bool :=
  let length := byteLength key.modulus
  let value := ofBytes signature
  key.isUsable && signature.length = length && value < key.modulus &&
    toBytes length (Signature.powMod key.modulus value key.exponent) = padded length message

-- a published case of the standard
example :
    let modulus := ofBytes <| [
      0xa1f8160ae2e3c9b465ce8d2d656263362b927dbe29e1f02477fc1625cc90a136,
      0xe38bd93497c5b6ea63dd7711e67c7429f956b0fb8a8f089adc4b69893cc1333f,
      0x53edd019b87784252fec914fe4857769594bea4280d32c0f55bf62944f130396,
      0xbc6e9bdf6ebdd2bda3678eeca0c668f701b38dbffb38c8342ce2fe6d27fade4a,
      0x5a4874979dd4b9cf9adec4c75b05852c2c0f5ef8a5c1750392f944e8ed64c110,
      0xc6b647609aa4783aeb9c6c9ad755313050638b83665c6f6f7a82a396702a1f64,
      0x1b82d3ebf2392219491fb686872c5716f50af8358d9a8b9d17c340728f7f87d8,
      0x9a18d8fcab67ad84590c2ecf759339363c07034d6f606f9e21e05456cae5e9a1].flatMap (toBytes 32)
    let signature := [
      0x702e218943e88fd11eb5d82dbf7845f34106ae1b81fff7731116add1717d8365,
      0x6d420afd3c96eedd73a2663e5166687b000b87226e0187ed1073f945e582adfc,
      0xef16d85a798ee8c66ddb3db8975b17d09402beedd5d9d97007108db28160d5f8,
      0x040ca7445762b81fbe7ff9d92e0ae76f24f25b33bbe6f44ae61eb1040acb2004,
      0x4d3ef9128ed40130795bd4bd3b41eecad066ab651981fde48df77f372dc38b9f,
      0xafdd3befb18b5da3cc3c2eb02f9e3a41d612caad15911273a05f23b9e838faaf,
      0x849d698429ef5a1e88798236c3d40e604522a544c8f27a7a2db80663d16cf7ca,
      0xea56de405cb2215a45b2c25566b55ac1a748a070dfc8a32a469543d019eefb47].flatMap (toBytes 32)
    let message := Text.encode <| "eyJhbGciOiJSUzI1NiJ9." ++
      "eyJpc3MiOiJqb2UiLA0KICJleHAiOjEzMDA4MTkzODAsDQogImh0dHA6Ly9leGFtcGxlLmNvbS9pc19y" ++
      "b290Ijp0cnVlfQ"
    verify ⟨modulus, 65537⟩ message signature = true := by
  decide +kernel

end Gatehouse.Rsa
