/-
**Basic credentials.**

User name and password in the standard header: the scheme, one space, and the base64 form of the
name, a colon and the password.

* `Basic.extract`: the credentials of a header;
* `Basic.headerOf`: the header of a user name and a password.
-/

import Gatehouse.Access.Mechanism
import Gatehouse.Text.Blank

namespace Gatehouse.Basic

open Text (Bytes)

def typeName : String := "basic"

/-- The realm announced unless another one is configured. -/
def defaultRealm : String := "Authorization Required"

def headerName : String := "authorization"

/-- What follows the scheme in a header of that scheme: the first word after leading blanks, in any
case, ends at a space. -/
def afterScheme? (scheme : String) (header : List Char) : Option (List Char) :=
  match Text.splitFirst? ' ' (Text.trimLeft header) with
  | some (word, rest) =>
    if word.map Char.toLower = (Text.lowerAscii scheme).toList then some rest else none
  | none => none

def splitColon? : Bytes → Option (Bytes × Bytes)
  | [] => none
  | byte :: rest =>
    if byte = 0x3A then some ([], rest)
    else (splitColon? rest).map fun (user, secret) => (byte :: user, secret)

/-- The credentials that bytes with a colon stand for. -/
def ofBytes (bytes : Bytes) : Except HeaderFault Credentials :=
  match splitColon? bytes with
  | none => .error .noSeparator
  | some (user, secret) =>
    match Text.decode? user with
    | none => .error .userNotText
    | some username =>
      if username = "" then .error .emptyUser else .ok (.withSecret username secret)

/-- The credentials that the rest of a header stands for. -/
def ofEncoded (encoded : List Char) : Except HeaderFault Credentials :=
  let symbols := Text.encode (String.ofList (Text.trimBoth encoded))
  match Base64.decode Base64.standard true symbols with
  | .error fault => .error (.encoding fault)
  | .ok bytes => ofBytes bytes

/-- The credentials of a request; none when it has no header of this scheme. -/
def extract (request : Request) : Except AccessError (Option Credentials) :=
  match (request.header? headerName).bind fun header => afterScheme? typeName header.toList with
  | none => .ok none
  | some encoded =>
    match ofEncoded encoded with
    | .error fault => .error (.invalidHeader fault)
    | .ok credentials => .ok (some credentials)

def extractor (realm : String) : Extractor where
  typeName := typeName
  extract _ request := extract request
  challenge _ := some (.wwwAuthenticate ("Basic realm=\"" ++ realm ++ "\""))

/-- The header of a user name and a password. -/
def headerOf (username password : String) : String :=
  let bytes := Base64.encode Base64.standard true (Text.encode (username ++ ":" ++ password))
  "Basic " ++ String.ofList (bytes.map fun byte => Char.ofNat byte.toNat)

end Gatehouse.Basic
