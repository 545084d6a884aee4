/-
**Credentials from tokens.**

A token that is signed with the configured key establishes its user by itself.

* `Rules.accept`: the claims of a token that is accepted;
* `Rules.extract`: the credentials of a request with a token.
-/

import Gatehouse.Access.Mechanism
import Gatehouse.Bearer.Claims

namespace Gatehouse.Bearer

open Text (Bytes)

/-- The name of this kind of extractor. -/
def typeName : String := "jwt"

/-- Which tokens are accepted, and which of their claims name the user and list the roles. -/
structure Rules where
  key : Key
  issuer : Option String
  audience : Option String
  subjectName : String
  rolesName : String

/-- The three parts of a token. -/
structure Parts where
  header : List Char
  payload : List Char
  signature : List Char
deriving DecidableEq, Repr

namespace Parts

/-- The parts between the last two full stops and around them. -/
def ofToken? (token : List Char) : Option Parts := do
  let (signed, signature) ← Text.splitLast? '.' token
  let (header, payload) ← Text.splitLast? '.' signed
  return ⟨header, payload, signature⟩

/-- What a signature is for: header and payload as they are written. -/
def message (parts : Parts) : Bytes :=
  Text.encode (String.ofList (parts.header ++ '.' :: parts.payload))

end Parts

namespace Rules

/-- The rules of a key; tokens of any issuer and for any audience are accepted. -/
def ofKey (key : Key) : Rules := ⟨key, none, none, Claims.subjectName, Claims.rolesName⟩

/-- A part of a token, read. -/
def readPart {α : Type} (read : Bytes → Except PartFault α) (part : List Char) :
    Except TokenFault α := do
  let bytes ← Key.partBytes part
  (read bytes).mapError fun fault => .json fault.message

/-- A token whose header names the algorithm of a key and whose signature the key verifies. -/
def verify (rules : Rules) (parts : Parts) : Except TokenFault Unit := do
  let algorithm ← readPart Header.algorithm parts.header
  if algorithm ≠ rules.key.algorithm then throw .algorithm
  let valid ← rules.key.verifies parts.message parts.signature
  if !valid then throw .signature

/-- The claims of a token whose signature is valid. -/
def verified (rules : Rules) (token : List Char) : Except TokenFault Claims := do
  match Parts.ofToken? token with
  | none => throw .shape
  | some parts =>
    rules.verify parts
    readPart Claims.ofBytes parts.payload

/-- The claims of a token that is accepted at a time. -/
def accept (rules : Rules) (now : Nat) (token : List Char) : Except AccessError Claims := do
  let claims ← (rules.verified token).mapError .invalidToken
  claims.check now rules.issuer rules.audience

/-- The credentials that claims establish. -/
def credentials (rules : Rules) (claims : Claims) : Except AccessError Credentials :=
  match claims.user? rules.subjectName with
  | none => .error (.invalidToken (.noSubject rules.subjectName))
  | some user =>
    let established := (Credentials.established user).addRoles (claims.roles rules.rolesName)
    let issued := match claims.issuer with
      | some issuer => established.addAttribute "iss" issuer
      | none => established
    .ok <| match claims.audienceText? with
      | some audience => issued.addAttribute "aud" audience
      | none => issued

/-- What stands before a token in the authentication header. -/
def scheme : List Char := "Bearer ".toList

/-- The query parameter that may hold a token. -/
def parameterName : String := "token"

/-- The token of a request: in the authentication header, or in the query. -/
def token? (request : Request) : Option (List Char) :=
  let inHeader := (request.header? "authorization").bind fun header =>
    (Text.dropPrefix? scheme header.toList).map Text.trimBoth
  inHeader.orElse fun _ =>
    ((request.parameter? parameterName).filter fun token => token ≠ "").map String.toList

/-- The credentials of a request; none when it has no token. -/
def extract (rules : Rules) (now : Nat) (request : Request) :
    Except AccessError (Option Credentials) :=
  match token? request with
  | none => .ok none
  | some token => do
    let claims ← rules.accept now token
    return some (← rules.credentials claims)

/-- The extractor of these rules. -/
def extractor (rules : Rules) : Extractor where
  typeName := typeName
  extract now request := rules.extract now request
  challenge _ := some (.wwwAuthenticate "Bearer")

end Rules

end Gatehouse.Bearer
