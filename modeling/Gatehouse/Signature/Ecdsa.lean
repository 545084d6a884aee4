/-
**Signatures on the curve P-256.**

A signature is two numbers of thirty-two bytes. With the digest of the message they give two
factors, for the generator and for the public key; the first number is the coordinate of the sum.

* `Ecdsa.verify`: whether bytes are a signature of a message.
-/

import Gatehouse.Digest.Sha256
import Gatehouse.Signature.Curve

namespace Gatehouse.Ecdsa

open Text (Bytes)
open Digest (ofBytes sha256)
open P256 (Point order)

/-- Whether a number may be part of a signature. -/
def isScalar (value : Nat) : Bool := 0 < value && value < order

/-- Whether two numbers are a signature of a digest under a public key. -/
def verifyDigest (key : Point) (digest r s : Nat) : Bool :=
  let ofGenerator := P256.divide order digest s
  let ofKey := P256.divide order r s
  match (Point.generator.scale ofGenerator).add (key.scale ofKey) with
  | .infinity => false
  | .affine x _ => x % order = r

/-- Whether bytes are a signature of a message under a public key. -/
def verify (key : Point) (message signature : Bytes) : Bool :=
  let r := ofBytes (signature.take 32)
  let s := ofBytes (signature.drop 32)
  signature.length = 64 && isScalar r && isScalar s &&
    verifyDigest key (ofBytes (sha256 message)) r s

-- a published case of the standard
example :
    let key : Point := .affine 0x7fcdce2770f6c45d4183cbee6fdb4b7b580733357be9ef13bacf6e3c7bd15445
      0xc7f144cd1bbd9b7e872cdfedb9eeb9f4b3695d6ea90b24ad8a4623288588e5ad
    let signature := [0x0ed1215379636c483c2f7f155807d402a3b228033af97c7e17819ac3169ea665,
      0xc50a07d38c3c70e5d8f12daf084a5480a66590c5f293509a8f3f7f8a83a354d5].flatMap (Digest.toBytes 32)
    let message := Text.encode <| "eyJhbGciOiJFUzI1NiJ9." ++
      "eyJpc3MiOiJqb2UiLA0KICJleHAiOjEzMDA4MTkzODAsDQogImh0dHA6Ly9leGFtcGxlLmNvbS9pc19y" ++
      "b290Ijp0cnVlfQ"
    verify key message signature = true := by
  decide +kernel

end Gatehouse.Ecdsa
