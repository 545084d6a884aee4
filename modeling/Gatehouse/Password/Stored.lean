/-
**Stored passwords.**

A stored hash is a bcrypt hash or an Argon2 hash string; it names the algorithm and everything the
algorithm needs besides the password.

* `Argon2.store`, `Argon2.verify`: writing and checking Argon2 hash strings;
* `Password.verify`: checking a password against a stored hash of either kind.
-/

import Gatehouse.Access.Error
import Gatehouse.Password.Argon2
import Gatehouse.Password.Bcrypt
import Gatehouse.Password.Phc

namespace Gatehouse

open Text (Bytes)

namespace Argon2

def Variety.name : Variety → List Char
  | .dependent => "argon2d".toList
  | .independent => "argon2i".toList
  | .hybrid => "argon2id".toList

def Variety.ofName? (name : List Char) : Option Variety :=
  [Variety.hybrid, .independent, .dependent].find? fun variety => variety.name = name

def Version.ofNumber? : Nat → Option Version
  | 16 => some .v16
  | 19 => some .v19
  | _ => none

/-- The parameters of new hashes, and of stored ones where they leave them out. -/
def defaults : Parameters := ⟨.hybrid, .v19, 19456, 2, 1, [], 32⟩

/-- Take in one parameter of a hash string; a key identifier has no effect. -/
def withParameter? (p : Parameters) (parameter : List Char × List Char) : Option Parameters :=
  let (name, value) := parameter
  if name = ['m'] then (Phc.decimal? value).map fun memory => { p with memory := memory }
  else if name = ['t'] then (Phc.decimal? value).map fun passes => { p with passes := passes }
  else if name = ['p'] then (Phc.decimal? value).map fun lanes => { p with lanes := lanes }
  else if name = "keyid".toList then (Phc.bytesUpTo? 8 value).map fun _ => p
  else if name = "data".toList then
    (Phc.bytesUpTo? 32 value).map fun bytes => { p with associated := bytes }
  else none

/-- Whether parameters are within the limits of the algorithm. -/
def Parameters.isValid (p : Parameters) : Bool :=
  8 ≤ p.memory && 8 * p.lanes ≤ p.memory && 1 ≤ p.passes && 1 ≤ p.lanes &&
    p.lanes < Nat.pow 2 24 && 4 ≤ p.length

def malformed (detail : String) : HashFault := .argon2 detail

/-- The parameters of a hash string with an output of the given length. -/
def parametersOf (phc : Phc) (variety : Variety) (length : Nat) : Except HashFault Parameters := do
  let version ← match phc.version.map Version.ofNumber? with
    | none => .ok Version.v19
    | some (some version) => .ok version
    | some none => .error (malformed "invalid version")
  let initial := { defaults with variety := variety, version := version, length := length }
  match phc.parameters.foldlM withParameter? initial with
  | none => .error (malformed "invalid parameter")
  | some p => if p.isValid then .ok p else .error (malformed "parameter out of range")

/-- Whether a password gives the output of a hash string under its salt. -/
def matchesOutput (phc : Phc) (variety : Variety) (output password : Bytes) :
    Except HashFault Bool := do
  let p ← parametersOf phc variety output.length
  match phc.salt with
  | none => .ok false
  | some symbols =>
    match Phc.bytes? symbols with
    | none => .error (malformed "invalid salt")
    | some salt =>
      if salt.length < 8 then .error (malformed "salt is too short")
      else .ok (hash p password salt = output)

/-- Whether a password gives the output of a hash string. -/
def verify (password : Bytes) (stored : String) : Except HashFault Bool :=
  match Phc.parse? stored.toList with
  | none => .error (malformed "malformed hash string")
  | some phc =>
    match Variety.ofName? phc.algorithm, phc.output with
    | some variety, some output => matchesOutput phc variety output password
    | _, _ => .error .argon2NoOutput

/-- The hash string of a password under a salt of bytes, with the usual parameters. -/
def store (salt password : Bytes) : String :=
  let p := defaults
  String.ofList <| Phc.toChars
    { algorithm := p.variety.name
      version := some p.version.number
      parameters := [(['m'], Nat.toDigits 10 p.memory), (['t'], Nat.toDigits 10 p.passes),
        (['p'], Nat.toDigits 10 p.lanes)]
      salt := some (Phc.symbols salt)
      output := some (hash p password salt) }

end Argon2

namespace Password

def argon2Start : List Char := "$argon2".toList

def bcryptStart : List Char := "$2".toList

/-- Whether a password gives a stored hash, by the algorithm that the hash names. -/
def verifyStored (password : Bytes) (stored : String) : Except HashFault Bool :=
  if argon2Start.isPrefixOf stored.toList then Argon2.verify password stored
  else if bcryptStart.isPrefixOf stored.toList then Bcrypt.verify password stored
  else .error .unsupported

/-- Whether a password gives a stored hash; the empty password is never compared. -/
def verify (password : Bytes) (stored : String) : Except AccessError Bool :=
  if password.isEmpty then .error .emptyCredential
  else (verifyStored password stored).mapError .hash

end Password

end Gatehouse
